import Slate.Eval.Value
import Slate.Sink

/-!
# How runs end

A run changes the state of its host and ends in one of three ways: with an
answer, with an error, or not within the rounds that its loops were given.
The state is there in every case, so what was printed before an error is not
lost.

The exit system call is an error here, since it ends every call in progress
like one; running a whole program makes its status the answer.

* `bind_eq_done` — a sequence of runs is done when each is.
-/

namespace Slate

/-- Why a run fails. -/
inductive EvalError where
  | noMain
  | noReturn (function : String)
  | unknownFunction (name : String)
  | argumentCount (name : String) (expected given : Nat)
  | unknownVariable (name : String)
  | notReference
  | invalidCast (source target : Ty)
  | incomparable (left right : Value)
  | unsupportedOperand (operator : String) (operand : Value)
  | unsupportedSyscall (number : Int32)
  | unsupportedDescriptor (descriptor : Int32)
  | syscallArguments
  | writeOutOfBounds (length : Int32) (size : Nat)
  | unknownBuiltin (name : String)
  | callDepth
  | invalidResult (result : Value)
  | untyped (written : String)
  | exit (status : Int32)
  | output (message : String)
  | dangling (slot : Nat)
deriving DecidableEq

/-- The number of calls of functions with a body that can be in progress at
once. -/
def maxCallDepth : Nat := 512

/-- The wording of each error.  One of the output is worded by the output. -/
def EvalError.message : EvalError → String
  | noMain => "main not found"
  | noReturn function => "no return statement reached in " ++ function
  | unknownFunction name => "unknown function " ++ name
  | argumentCount name expected given =>
    name ++ " takes " ++ toString expected ++ " arguments, " ++ toString given ++ " given"
  | unknownVariable name => "unknown variable " ++ name
  | notReference => "left hand side is not a reference"
  | invalidCast source target =>
    "dont know how to convert " ++ source.text ++ " to " ++ target.text
  | incomparable left right => "cannot compare " ++ left.text ++ " with " ++ right.text
  | unsupportedOperand operator operand =>
    "operator " ++ operator ++ " is not defined for " ++ operand.text
  | unsupportedSyscall number => "unsupported syscall " ++ intText number
  | unsupportedDescriptor descriptor =>
    "write to unsupported file descriptor " ++ intText descriptor
  | syscallArguments => "malformed arguments to syscall"
  | writeOutOfBounds length size =>
    "write of " ++ intText length ++ " bytes from a string of " ++ toString size
  | unknownBuiltin name => "unknown builtin " ++ name
  | callDepth => "call depth exceeded " ++ toString maxCallDepth
  | invalidResult result => result.text ++ " is not a valid result"
  | untyped written => "expression without a type: " ++ written
  | exit status => "program exited with status " ++ intText status
  | output message => message
  | dangling slot => "no variable at slot " ++ toString slot

/-- How a run ends, and the state of the host then. -/
inductive Outcome (σ α : Type) where
  | done (answer : α) (state : σ)
  | failed (error : EvalError) (state : σ)
  | unfinished (state : σ)
deriving DecidableEq

/-- The state at the end of a run. -/
def Outcome.state {σ α : Type} : Outcome σ α → σ
  | .done _ state => state
  | .failed _ state => state
  | .unfinished state => state

/-- A run: what becomes of a state of the host. -/
def Run (σ α : Type) := σ → Outcome σ α

namespace Run

variable {σ α β : Type}

/-- The run that answers at once. -/
def answer (a : α) : Run σ α := fun state => .done a state

/-- The run that fails at once. -/
def fail (e : EvalError) : Run σ α := fun state => .failed e state

/-- The run that goes on with what another one answers. -/
def andThen (x : Run σ α) (f : α → Run σ β) : Run σ β := fun state =>
  match x state with
  | .done a state => f a state
  | .failed e state => .failed e state
  | .unfinished state => .unfinished state

instance : Monad (Run σ) where
  pure := answer
  bind := andThen

/-- The run of a computation that does not touch the host. -/
def ofExcept : Except EvalError α → Run σ α
  | .ok a => answer a
  | .error e => fail e

/-- One run after another is done when each is. -/
theorem bind_eq_done {x : Run σ α} {f : α → Run σ β} {state final : σ} {b : β} :
    (x >>= f) state = .done b final ↔
      ∃ a middle, x state = .done a middle ∧ f a middle = .done b final := by
  show andThen x f state = _ ↔ _
  unfold andThen
  cases x state with
  | done a middle =>
    constructor
    · exact fun h => ⟨a, middle, rfl, h⟩
    · rintro ⟨_, _, ⟨⟩, h⟩; exact h
  | failed e middle => simp
  | unfinished middle => simp

/-- One run after another fails with the first failure. -/
theorem bind_eq_failed {x : Run σ α} {f : α → Run σ β} {state final : σ} {e : EvalError} :
    (x >>= f) state = .failed e final ↔
      x state = .failed e final ∨
        ∃ a middle, x state = .done a middle ∧ f a middle = .failed e final := by
  show andThen x f state = _ ↔ _
  unfold andThen
  cases x state with
  | done a middle =>
    constructor
    · exact fun h => .inr ⟨a, middle, rfl, h⟩
    · rintro (h | ⟨_, _, ⟨⟩, h⟩)
      · simp at h
      · exact h
  | failed e middle => simp
  | unfinished middle => simp

end Run

end Slate
