import Slate.Proofs.Eval.Sessions

/-!
# Evaluations started at a depth

An evaluation is started by calling a function by its name or by entering it, and the
evaluator that is asked may have calls in progress already.  What it makes of the request
is what a setting makes of it in which calls may nest as much deeper as is missing to
`maxCallDepth` (`evaluateFrom_eq`).  The limit that the recursion of the evaluator is given
does not show: the depth refuses a call before the limit is met.
-/

namespace Slate

variable {σ : Type}

/-- Where an evaluation starts: a function is called by its name, or it is entered. -/
inductive Entry where
  | call (name : String)
  | enter (f : Function)

namespace Setting

variable {setting : Setting σ} {limit depth : Nat}

/-- Evaluates from an entry, with the given way to enter functions. -/
def evaluateBy (setting : Setting σ) (enter : Function → List Value → Run σ Value) :
    Entry → List Value → Run σ Value
  | .call name => setting.dispatch enter name
  | .enter f => enter f

/-- What becomes of an evaluation that an evaluator starts with `depth` calls in progress, if
its recursion may go `limit` deep. -/
def evaluateFrom (setting : Setting σ) (limit depth : Nat) (entry : Entry) (args : List Value)
    (state : σ) : Outcome σ Value :=
  (setting.counting.evaluateBy (setting.enterCounting limit) entry args ⟨state, depth⟩).mapState
    Evaluator.host

/-- What becomes of a run of the program that an evaluator starts with `depth` calls in
progress, if its recursion may go `limit` deep. -/
def runFrom (setting : Setting σ) (limit depth : Nat) (state : σ) : Outcome σ Int32 :=
  (setting.counting.runBy (setting.counting.dispatch (setting.enterCounting limit))
    ⟨state, depth⟩).mapState Evaluator.host

/-- Counting the depth and forgetting it again changes nothing. -/
theorem mapState_host {α : Type} (outcome : Outcome σ α) :
    (outcome.mapState (Evaluator.mk · depth)).mapState Evaluator.host = outcome := by
  cases outcome <;> rfl

/-- **An evaluation from a depth** is one in which calls may nest as much deeper as is missing. -/
theorem evaluateFrom_eq (hdepth : depth ≤ maxCallDepth) (hlimit : maxCallDepth < limit + depth)
    (entry : Entry) (args : List Value) (state : σ) :
    setting.evaluateFrom limit depth entry args state =
      setting.evaluateBy (setting.enter (maxCallDepth - depth)) entry args state := by
  have hentered := @enterCounting_carried σ setting limit depth hdepth hlimit
  have hcarried : Run.Carries (Evaluator.mk · depth)
      (setting.evaluateBy (setting.enter (maxCallDepth - depth)) entry args)
      (setting.counting.evaluateBy (setting.enterCounting limit) entry args) := by
    cases entry with
    | call name => exact (setting.counting_carries depth).dispatch hentered name args
    | enter f => exact hentered f args
  unfold evaluateFrom
  rw [hcarried state, mapState_host]

/-- A run from a depth within the limit is one with the room that is left. -/
theorem runFrom_eq (hdepth : depth ≤ maxCallDepth) (hlimit : maxCallDepth < limit + depth)
    (state : σ) :
    setting.runFrom limit depth state =
      setting.runBy (setting.dispatch (setting.enter (maxCallDepth - depth))) state := by
  have hentered := @enterCounting_carried σ setting limit depth hdepth hlimit
  have hcarries := setting.counting_carries depth
  have hcarried := hcarries.runBy (hcarries.dispatch hentered)
  unfold runFrom
  rw [hcarried state, mapState_host]

end Setting

end Slate
