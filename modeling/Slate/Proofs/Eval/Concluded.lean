import Slate.Eval.Program

/-!
# What follows `main`

A run of a program does not end with its `main`.  Whatever that has ended with, an answer or
an error, the output is flushed, the host is told, and the result becomes a status.  So a run
is the call of `main` with its error for an answer (`Run.result`), and then what is made of
that (`Setting.conclude`).
-/

namespace Slate

variable {σ α : Type}

/-- The run with its error for an answer. -/
def Run.result (x : Run σ α) : Run σ (Except EvalError α) := fun state =>
  match x state with
  | .done a final => .done (.ok a) final
  | .failed e final => .done (.error e) final
  | .unfinished final => .unfinished final

namespace Setting

/-- What a run makes of the result of its `main`. -/
def conclude (setting : Setting σ) : Except EvalError Value → Run σ Int32
  | .ok result => do
    setting.host.flushOutput
    setting.host.tell (.evaluated result)
    Run.ofExcept (status result)
  | .error (.exit code) => do
    setting.host.flushOutput
    setting.host.tell (.exited code)
    pure code
  | .error e => do
    setting.host.flushOutput
    Run.fail e

variable {setting : Setting σ} {call : Calls σ}

theorem runBy_none (h : setting.program.function? "main" = none) :
    setting.runBy call = Run.fail .noMain := by
  unfold runBy
  rw [h]

/-- **A run** is the call of its `main`, and what is made of the result. -/
theorem runBy_some {f : Function} (h : setting.program.function? "main" = some f) :
    setting.runBy call = (call "main" []).result >>= setting.conclude := by
  funext state
  show _ = Run.andThen (call "main" []).result setting.conclude state
  unfold runBy Run.andThen Run.result
  rw [h]
  dsimp only
  cases call "main" [] state with
  | done result final => rfl
  | unfinished final => rfl
  | failed e final => cases e <;> rfl

end Setting

end Slate
