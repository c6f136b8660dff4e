import Slate.Proofs.Eval.Passes
import Slate.Proofs.Typing.Places

/-!
# Calls are linked

Every call that is written in an accepted program is a system call, or names a function of
the program and gives as many arguments as it takes: the checker compares the two, and its
table of signatures and the evaluator's search for a function agree on what a name means.
So no call that is executed fails to be linked, whatever builtins answer with.

One call is not written.  A run enters a program by calling its `main` without arguments,
and nothing requires `main` to take none.  `calls_linked` therefore says that the runs of a
program are linked exactly if its `main` has no parameters.
-/

namespace Slate

variable {σ : Type} {p : Program}

/-- The errors of calls that are not linked. -/
def EvalError.IsLinkError : EvalError → Prop
  | noMain | unknownFunction _ | argumentCount _ _ _ => True
  | _ => False

/-! ## Calls that are written -/

/-- A name can be called with a number of arguments: it is that of the system call, or that
of a function with as many parameters. -/
def Program.Links (p : Program) (name : String) (count : Nat) : Prop :=
  name = syscallName ∨ ∃ f, p.function? name = some f ∧ f.arguments.length = count

/-- **Every call that is written is linked.** -/
theorem TypedFunction.links {f : Function} (hp : TypedProgram p)
    (hf : TypedFunction p.signatures f) (hblock : f.builtin = false) {locals : List Var} {n : Note}
    {name : String} {args : List Expr} (hcall : (locals, .call n name args) ∈ f.occurrences) :
    p.Links name args.length := by
  obtain ⟨t, after, htyped, _⟩ := (hf.body hblock).places _ hcall
  cases htyped with
  | syscall => exact .inl rfl
  | call other known arguments noted =>
      obtain ⟨g, hg, hsignature⟩ := hp.function?_of_signature known
      refine .inr ⟨g, hg, ?_⟩
      rw [arguments.length_eq, ← hsignature]
      exact (List.length_map Var.type).symm

/-! ## Calls that are executed -/

section

variable (setting : Setting σ)

/-- Whatever goes wrong in a typed program, its calls are linked. -/
theorem Setting.permits_linked (hp : TypedProgram setting.program) :
    setting.Permits True fun e => ¬ e.IsLinkError where
  missing := fun _ => id
  operands := by
    intro _ e he
    cases e <;> first | exact he.elim | exact id
  noReturn := fun _ => id
  callDepth := id
  syscall := by
    intro e he
    cases e <;> first | exact he.elim | exact id
  builtin := by
    intro b hb _ args _
    refine (meets_builtin b args).mono ?_ ?_
    · rintro v rfl
      exact ⟨(hp.each b hb).value, .inl trivial, .inr ⟨trivial, rfl⟩⟩
    · rintro e (⟨message, rfl⟩ | ⟨rfl, _⟩) <;> exact id

/-- A run of a program whose `main` takes no arguments is linked. -/
theorem run_linked (hp : TypedProgram setting.program) {main : Function}
    (hmain : setting.program.function? "main" = some main) (hnone : main.arguments = []) :
    setting.run.Meets (fun _ => True) fun e => ¬ e.IsLinkError := by
  obtain ⟨hmem, hname⟩ := function?_eq_some hmain
  have hargs : ValuesPass True [] (main.arguments.map Var.type) := by
    rw [hnone]
    exact .nil
  have hcall := call_passes (setting.permits_linked hp) hp hmem hargs
  rw [hname] at hcall
  exact Setting.meets_runBy hmain hcall (fun _ => id) fun _ => id

/-- A run of a program whose `main` takes arguments fails for want of them. -/
theorem run_unlinked {main : Function}
    (hmain : setting.program.function? "main" = some main) (hsome : main.arguments ≠ []) :
    setting.run = (do
      setting.host.flushOutput
      Run.fail (.argumentCount "main" main.arguments.length 0)) := by
  have hcall : setting.call "main" [] =
      Run.fail (.argumentCount "main" main.arguments.length 0) := by
    unfold Setting.call Setting.dispatch
    rw [if_neg (by decide), hmain]
    exact if_pos fun h => hsome (List.length_eq_zero_iff.1 h)
  unfold Setting.run Setting.runBy
  rw [hmain, hcall]
  rfl

end

/-- **Calls are linked, but for that of `main`.**  In an accepted program that has a `main`,
every call that is written is a system call or gives a function of the program as many
arguments as it takes; and no run ends because a call was not linked exactly if `main` takes
no arguments. -/
theorem calls_linked {source : String} {file : Option String} {main : Function}
    (haccepted : frontEnd source file = .ok p) (hmain : p.function? "main" = some main) :
    (∀ f ∈ p.functions, f.builtin = false → ∀ locals n name args,
      (locals, .call n name args) ∈ f.occurrences → p.Links name args.length) ∧
    ((∀ (σ : Type) (host : Host σ) (rounds : Nat),
        (Setting.mk p host rounds).run.Meets (fun _ => True) fun e => ¬ e.IsLinkError) ↔
      main.arguments = []) := by
  have hp := frontEnd_typed haccepted
  refine ⟨?_, ?_, ?_⟩
  · exact fun f hf hblock _ _ _ _ hcall => (hp.each f hf).links hp hblock hcall
  · intro hlinked
    by_contra hsome
    have hmeets := hlinked ByteArray (.ofSink .collect) 0
    rw [run_unlinked ⟨p, .ofSink .collect, 0⟩ hmain hsome] at hmeets
    exact hmeets ByteArray.empty trivial
  · exact fun hnone σ host rounds => run_linked ⟨p, host, rounds⟩ hp hmain hnone

/-- Functions that call each other, with one argument and with two. -/
def paritySource : String :=
  "bool main() { var n: i32 = 3; while (odd(n)) { n = n - 1; } return even(n, true); } " ++
    "bool odd(n: i32) { return !even(n, false); } " ++
    "bool even(n: i32, same: bool) { if (n == 0) { return same; } return odd(n - 1); }"

/-- A program that calls a function before its definition, in a condition and in itself. -/
theorem calls_linked_even :
    ∃ p, frontEnd paritySource none = .ok p ∧
      ∀ (σ : Type) (host : Host σ) (rounds : Nat),
        (Setting.mk p host rounds).run.Meets (fun _ => True) fun e => ¬ e.IsLinkError := by
  have hcheck : (frontEnd paritySource none).toOption.any (fun p =>
        (p.function? "main").any fun main =>
          main.arguments.isEmpty) = true := by
    decide +kernel
  obtain ⟨p, haccepted, hcheck⟩ := (Option.any_eq_true _ _).1 hcheck
  obtain ⟨main, hmain, hnone⟩ := (Option.any_eq_true _ _).1 hcheck
  have haccepted := toOption_eq_some.1 haccepted
  exact ⟨p, haccepted, (calls_linked haccepted hmain).2.2 (List.isEmpty_iff.1 hnone)⟩

/-- A program with a `main` can be accepted and run without its argument. -/
theorem accepted_and_unlinked :
    ∃ p, frontEnd "i32 main(x: i32) { return x; }" none = .ok p ∧
      (p.function? "main").isSome = true ∧
      (Setting.mk p (.ofSink .collect) 0).run .empty =
        .failed (.argumentCount "main" 1 0) .empty := by
  have hcheck : (frontEnd "i32 main(x: i32) { return x; }" none).toOption.any (fun p =>
      (p.function? "main").isSome && decide ((Setting.mk p (.ofSink .collect) 0).run .empty =
        .failed (.argumentCount "main" 1 0) .empty)) = true := by
    decide +kernel
  obtain ⟨p, haccepted, hcheck⟩ := (Option.any_eq_true _ _).1 hcheck
  rw [Bool.and_eq_true, decide_eq_true_eq] at hcheck
  exact ⟨p, toOption_eq_some.1 haccepted, hcheck⟩

end Slate
