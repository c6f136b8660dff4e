import Slate.Typing.Expression

/-!
# Typing of statements

Statements are checked in textual order, with the locals threaded through
them; both branches of a conditional and the body of a loop are checked once.
A condition must have the type `bool` itself: a variable, being a reference,
is no condition.
-/

namespace Slate

/-- Checks a condition; the answer of a check that passes is nothing. -/
def checkCondition (env : Env) (locals : List Var) (condition : Expr) : Checked Expr Unit :=
  let c := checkExpr env locals condition
  match c.verdict with
  | .error f => ⟨c.tree, c.locals, .error f⟩
  | .ok t =>
    if t ≠ .bool then .fail c.tree c.locals condition.span .notCondition
    else .pass c.tree c.locals ()

/-- Checks the value of a `return` that stands at `span`. -/
def checkReturn (env : Env) (locals : List Var) (span : Span) (value : Option Expr) :
    Checked (Option Expr) Unit :=
  match value with
  | none =>
    if env.result.isVoid then .pass none locals ()
    else .fail none locals span .valueMissing
  | some e =>
    if env.result.isVoid then .fail (some e) locals span .valueFromVoid
    else
      let v := checkExpr env locals e
      match v.verdict with
      | .error f => ⟨some v.tree, v.locals, .error f⟩
      | .ok t =>
        if !t.agrees env.result then
          .fail (some v.tree) v.locals span (.mismatch env.result t)
        else .pass (some (v.tree.decayed t)) v.locals ()

mutual

/-- Checks a statement, with the locals met so far. -/
def checkStmt (env : Env) (locals : List Var) : Stmt → Checked Stmt Unit
  | .expression span e =>
    let c := checkExpr env locals e
    ⟨.expression span c.tree, c.locals, c.verdict.map fun _ => ()⟩
  | .ret span value =>
    let c := checkReturn env locals span value
    ⟨.ret span c.tree, c.locals, c.verdict⟩
  | .ifThen span condition body =>
    let c := checkCondition env locals condition
    match c.verdict with
    | .error f => ⟨.ifThen span c.tree body, c.locals, .error f⟩
    | .ok () =>
      let b := checkStmts env c.locals body
      ⟨.ifThen span c.tree b.tree, b.locals, b.verdict⟩
  | .ifElse span condition body otherwise =>
    let c := checkCondition env locals condition
    match c.verdict with
    | .error f => ⟨.ifElse span c.tree body otherwise, c.locals, .error f⟩
    | .ok () =>
      let b := checkStmts env c.locals body
      match b.verdict with
      | .error f => ⟨.ifElse span c.tree b.tree otherwise, b.locals, .error f⟩
      | .ok () =>
        let o := checkStmt env b.locals otherwise
        ⟨.ifElse span c.tree b.tree o.tree, o.locals, o.verdict⟩
  | .loop span condition body =>
    let c := checkCondition env locals condition
    match c.verdict with
    | .error f => ⟨.loop span c.tree body, c.locals, .error f⟩
    | .ok () =>
      let b := checkStmts env c.locals body
      ⟨.loop span c.tree b.tree, b.locals, b.verdict⟩
  | .block span body =>
    let b := checkStmts env locals body
    ⟨.block span b.tree, b.locals, b.verdict⟩

/-- Checks statements one after the other. -/
def checkStmts (env : Env) (locals : List Var) : List Stmt → Checked (List Stmt) Unit
  | [] => .pass [] locals ()
  | s :: ss =>
    let c := checkStmt env locals s
    match c.verdict with
    | .error f => ⟨c.tree :: ss, c.locals, .error f⟩
    | .ok () =>
      let cs := checkStmts env c.locals ss
      ⟨c.tree :: cs.tree, cs.locals, cs.verdict⟩

end

end Slate
