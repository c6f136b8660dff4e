import Slate.Eval.Program

/-!
# Evaluators

An evaluator is what a program is run by, again and again.  Between and during its
uses it consists of the state of the host and of a number: the depth, which is how many
calls of functions with a body are in progress.  A call counts itself in when it is
entered and out when it is left, whatever it ends with.  A call that finds
`maxCallDepth` others in progress is refused.

All else is as in `Setting`, which knows how deep calls may still nest and needs no
number that changes.  Only the way in which functions are entered is different
(`enterCounting`).  Its recursion is on a limit to the nesting of calls; the depth
refuses a call before the limit is met, if the limit is above `maxCallDepth`.
-/

namespace Slate

variable {σ τ α : Type}

/-- What an evaluator consists of. -/
structure Evaluator (σ : Type) where
  host : σ
  depth : Nat
deriving DecidableEq, Inhabited

/-- An evaluator that has not been used. -/
def Evaluator.fresh (state : σ) : Evaluator σ := ⟨state, 0⟩

namespace Outcome

/-- The end of a run with another state. -/
def mapState (g : σ → τ) : Outcome σ α → Outcome τ α
  | .done a state => .done a (g state)
  | .failed e state => .failed e (g state)
  | .unfinished state => .unfinished (g state)

/-- Two changes of the state are one. -/
@[simp] theorem mapState_mapState {ρ : Type} (g : σ → τ) (k : τ → ρ) (outcome : Outcome σ α) :
    (outcome.mapState g).mapState k = outcome.mapState (k ∘ g) := by
  cases outcome <;> rfl

/-- The state of a changed outcome is the changed state. -/
@[simp] theorem state_mapState (g : σ → τ) (outcome : Outcome σ α) :
    (outcome.mapState g).state = g outcome.state := by
  cases outcome <;> rfl

end Outcome

/-- The host as a part of an evaluator.  It has nothing to do with the depth. -/
def Host.counting (host : Host σ) : Host (Evaluator σ) where
  write bytes evaluator :=
    (host.write bytes evaluator.host).map fun state => { evaluator with host := state }
  flush evaluator := (host.flush evaluator.host).map fun state => { evaluator with host := state }
  notice event evaluator := { evaluator with host := host.notice event evaluator.host }

/-- Runs something as a call that is in progress. -/
def Evaluator.during (x : Run (Evaluator σ) α) : Run (Evaluator σ) α := fun evaluator =>
  (x { evaluator with depth := evaluator.depth + 1 }).mapState
    fun evaluator => { evaluator with depth := evaluator.depth - 1 }

namespace Setting

/-- The setting with an evaluator for the host. -/
def counting (setting : Setting σ) : Setting (Evaluator σ) :=
  ⟨setting.program, setting.host.counting, setting.rounds⟩

/-- Tells the host that a function is entered. -/
def announce (setting : Setting σ) (f : Function) : Run (Evaluator σ) Unit := fun evaluator =>
  setting.host.counting.tell (.entered f.name evaluator.depth) evaluator

/-- Enters a function, unless too many calls are in progress. -/
def enterCounting (setting : Setting σ) : Nat → Function → List Value → Run (Evaluator σ) Value
  | 0, _, _ => fun evaluator => .unfinished evaluator
  | limit + 1, f, args => fun evaluator =>
    if maxCallDepth ≤ evaluator.depth then .failed .callDepth evaluator
    else
      Evaluator.during (do
        setting.announce f
        setting.counting.body (setting.counting.dispatch (setting.enterCounting limit)) f args)
        evaluator

end Setting

end Slate
