import Slate.Eval.Host
import Slate.Grammar.Reading
import Slate.Proofs.Eval.Fits
import Slate.Proofs.Eval.Meets

/-!
# What reaches the host

The system call and the one builtin look at their arguments and at nothing else of
a program.  They can be given any arguments; what does not suit them is one of the
errors of `EvalError.IsHostError`, and what they answer with fits a type that does
not depend on the arguments.  A builtin is complained of as unknown unless it is `print`
and has one argument, and nothing else is complained of as an unknown builtin.
-/

namespace Slate

/-- The errors of system calls. -/
def EvalError.IsSyscallError : EvalError → Prop
  | unsupportedSyscall _ | unsupportedDescriptor _ | syscallArguments | writeOutOfBounds _ _
  | exit _ | output _ => True
  | _ => False

/-- The errors of system calls and builtins. -/
def EvalError.IsHostError : EvalError → Prop
  | unknownBuiltin _ | unsupportedSyscall _ | unsupportedDescriptor _ | syscallArguments
  | writeOutOfBounds _ _ | exit _ | output _ => True
  | _ => False

/-- An error of a system call is one of the host. -/
theorem EvalError.IsSyscallError.isHostError {e : EvalError} (h : e.IsSyscallError) :
    e.IsHostError := by
  cases e <;> trivial

variable {σ : Type} {host : Host σ}

/-- A missing integer is an error of the system call. -/
theorem intArgument_error {args : List Value} {index : Nat} {e : EvalError}
    (h : intArgument args index = .error e) : e.IsSyscallError := by
  unfold intArgument at h
  split at h
  · cases h
  · cases h
    trivial

/-- So is a missing string. -/
theorem stringArgument_error {args : List Value} {index : Nat} {e : EvalError}
    (h : stringArgument args index = .error e) : e.IsSyscallError := by
  unfold stringArgument at h
  split at h
  · cases h
  · cases h
    trivial

/-- So is any wrong argument of a write. -/
theorem writeArguments_error {args : List Value} {e : EvalError}
    (h : writeArguments args = .error e) : e.IsSyscallError := by
  unfold writeArguments at h
  rcases bind_eq_error.1 h with h | ⟨descriptor, _, h⟩
  · exact intArgument_error h
  · rcases bind_eq_error.1 h with h | ⟨length, _, h⟩
    · exact intArgument_error h
    · rcases bind_eq_error.1 h with h | ⟨s, _, h⟩
      · exact stringArgument_error h
      · dsimp only at h
        split at h
        · cases h
          trivial
        · split at h
          · cases h
            trivial
          · cases h

/-- A system call answers with an integer. -/
theorem meets_systemCall (args : List Value) :
    (systemCall host args).Meets (fun v => v.Fits .int) EvalError.IsSyscallError := by
  unfold systemCall
  refine (Run.Meets.ofExcept (P := fun _ => True) (fun _ _ => trivial)
    fun e => intArgument_error).bind fun number _ => ?_
  split
  · exact (Run.Meets.ofExcept (P := fun _ => True) (fun _ _ => trivial)
      fun e => intArgument_error).bind fun status _ => Run.Meets.fail trivial
  · split
    · refine (Run.Meets.ofExcept (P := fun _ => True) (fun _ _ => trivial)
        fun e => writeArguments_error).bind fun written _ => ?_
      exact (host.meets_print (fun _ => trivial) written.1).bind fun _ _ =>
        Run.Meets.answer ⟨rfl, .int _⟩
    · exact Run.Meets.fail trivial

/-- A builtin prints the value that it is given and returns nothing; but if it is not `print`
or has not one argument, it is unknown. -/
theorem meets_builtin (f : Function) (args : List Value) :
    (callBuiltin host f args).Meets (fun v => v = .void) fun e =>
      (∃ message, e = .output message) ∨
        e = .unknownBuiltin f.name ∧ ¬ (f.name = "print" ∧ args.length = 1) := by
  unfold callBuiltin
  split
  · split
    · exact (host.meets_print (fun message => .inl ⟨message, rfl⟩) _).bind fun _ _ =>
        Run.Meets.answer rfl
    · next hname => exact Run.Meets.fail (.inr ⟨rfl, fun h => hname h.1⟩)
  · next hsingle =>
    refine Run.Meets.fail (.inr ⟨rfl, fun h => ?_⟩)
    obtain ⟨value, rfl⟩ := List.length_eq_one_iff.1 h.2
    exact hsingle value rfl

/-- A builtin returns nothing. -/
theorem meets_callBuiltin (f : Function) (args : List Value) :
    (callBuiltin host f args).Meets (fun v => v.Fits .void) EvalError.IsHostError := by
  refine (meets_builtin f args).mono ?_ ?_
  · rintro v rfl
    exact ⟨rfl, .void⟩
  · rintro e (⟨message, rfl⟩ | ⟨rfl, _⟩) <;> trivial

end Slate
