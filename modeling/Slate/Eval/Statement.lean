import Slate.Eval.Expression

/-!
# Execution of statements

A statement changes the frame, and may return.  A `Stop` is what it hands on:
the returned value, or nothing when execution goes on behind it.

Every loop is given a number of rounds.  A loop that has not ended after them
leaves the run unfinished; a run that finishes did not depend on the number.

* `runLoop_succ` — a loop is one round of it, and the loop with a round less.
-/

namespace Slate

/-- The returned value, once a statement has returned. -/
abbrev Stop := Option Value

/-- Runs a loop for at most the given number of rounds. -/
def runLoop {σ : Type} (condition : Frame → Run σ (Bool × Frame))
    (body : Frame → Run σ (Stop × Frame)) : Nat → Frame → Run σ (Stop × Frame)
  | 0, _, state => .unfinished state
  | rounds + 1, frame, state =>
    match condition frame state with
    | .done (false, frame) state => .done (none, frame) state
    | .done (true, frame) state =>
      match body frame state with
      | .done (none, frame) state => runLoop condition body rounds frame state
      | .done (some value, frame) state => .done (some value, frame) state
      | .failed e state => .failed e state
      | .unfinished state => .unfinished state
    | .failed e state => .failed e state
    | .unfinished state => .unfinished state

/-- A round of a loop, and what is left of it. -/
theorem runLoop_succ {σ : Type} (condition : Frame → Run σ (Bool × Frame))
    (body : Frame → Run σ (Stop × Frame)) (rounds : Nat) (frame : Frame) :
    runLoop condition body (rounds + 1) frame = (do
      let (truth, frame) ← condition frame
      if truth then do
        let (stop, frame) ← body frame
        match stop with
        | none => runLoop condition body rounds frame
        | some value => pure (some value, frame)
      else pure (none, frame)) := by
  funext state
  show _ = Run.andThen (condition frame) _ state
  unfold Run.andThen
  simp only [runLoop]
  cases condition frame state with
  | failed e final => rfl
  | unfinished final => rfl
  | done r middle =>
      obtain ⟨truth, tested⟩ := r
      cases truth with
      | false => rfl
      | true =>
          show _ = Run.andThen (body tested) _ middle
          unfold Run.andThen
          dsimp only
          cases body tested middle with
          | failed e final => rfl
          | unfinished final => rfl
          | done r final =>
              obtain ⟨stop, after⟩ := r
              cases stop <;> rfl

/-- Evaluates a condition. -/
def evalCondition {σ : Type} (calls : Calls σ) (condition : Expr) (frame : Frame) :
    Run σ (Bool × Frame) := do
  let (value, frame) ← evalExpr calls condition frame
  let truth ← Run.ofExcept value.condition
  pure (truth, frame)

mutual

/-- Executes a statement; `rounds` are given to every loop. -/
def execStmt {σ : Type} (calls : Calls σ) (rounds : Nat) :
    Stmt → Frame → Run σ (Stop × Frame)
  | .expression _ e, frame => do
    let (_, frame) ← evalExpr calls e frame
    pure (none, frame)
  | .ret _ none, frame => pure (some .void, frame)
  | .ret _ (some e), frame => do
    let (value, frame) ← evalExpr calls e frame
    let value ← Run.ofExcept (frame.valueOf value)
    pure (some value, frame)
  | .ifThen _ condition body, frame => do
    let (truth, frame) ← evalCondition calls condition frame
    if truth then execStmts calls rounds body frame
    else pure (none, frame)
  | .ifElse _ condition body otherwise, frame => do
    let (truth, frame) ← evalCondition calls condition frame
    if truth then execStmts calls rounds body frame
    else execStmt calls rounds otherwise frame
  | .loop _ condition body, frame =>
    runLoop (evalCondition calls condition) (execStmts calls rounds body) rounds frame
  | .block _ body, frame => execStmts calls rounds body frame

/-- Executes statements in order, up to one that returns. -/
def execStmts {σ : Type} (calls : Calls σ) (rounds : Nat) :
    List Stmt → Frame → Run σ (Stop × Frame)
  | [], frame => pure (none, frame)
  | s :: ss, frame => do
    let (stop, frame) ← execStmt calls rounds s frame
    match stop with
    | some value => pure (some value, frame)
    | none => execStmts calls rounds ss frame

end

end Slate
