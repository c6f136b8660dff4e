import Slate.Tree.Basic

/-!
# Equality of trees is decidable

Trees are compared constructor by constructor.  The comparison follows the first tree, and
answers `true` exactly if both are the same (`Expr.same_iff`, `Stmt.same_iff`), so
statements that compare trees can be evaluated.
-/

namespace Slate

mutual

/-- Whether two expressions are the same. -/
def Expr.same : Expr → Expr → Bool
  | .literal n value, .literal m other => n = m && value = other
  | .declare n v, .declare m w => n = m && v = w
  | .var n name, .var m other => n = m && name = other
  | .assign n left right, .assign m left' right' => n = m && left.same left' && right.same right'
  | .call n name args, .call m other args' => n = m && name = other && sameArguments args args'
  | .binary n op left right, .binary m op' left' right' =>
    n = m && op = op' && left.same left' && right.same right'
  | .unary n op operand, .unary m op' operand' => n = m && op = op' && operand.same operand'
  | .cast n operand, .cast m operand' => n = m && operand.same operand'
  | _, _ => false

/-- Whether two lists of arguments are the same. -/
def sameArguments : List Expr → List Expr → Bool
  | [], [] => true
  | e :: es, e' :: es' => e.same e' && sameArguments es es'
  | _, _ => false

end

mutual

/-- Expressions are found the same exactly if they are equal. -/
theorem Expr.same_iff (e e' : Expr) : e.same e' = true ↔ e = e' := by
  cases e with
  | literal n value => cases e' <;> simp [Expr.same]
  | declare n v => cases e' <;> simp [Expr.same]
  | var n name => cases e' <;> simp [Expr.same]
  | assign n left right =>
      cases e' <;> simp [Expr.same, left.same_iff, right.same_iff, and_assoc]
  | call n name args => cases e' <;> simp [Expr.same, sameArguments_iff args, and_assoc]
  | binary n op left right =>
      cases e' <;> simp [Expr.same, left.same_iff, right.same_iff, and_assoc]
  | unary n op operand => cases e' <;> simp [Expr.same, operand.same_iff, and_assoc]
  | cast n operand => cases e' <;> simp [Expr.same, operand.same_iff]

/-- The same for the arguments of a call. -/
theorem sameArguments_iff (es es' : List Expr) : sameArguments es es' = true ↔ es = es' := by
  cases es with
  | nil => cases es' <;> simp [sameArguments]
  | cons e es => cases es' <;> simp [sameArguments, e.same_iff, sameArguments_iff es]

end

instance : DecidableEq Expr := fun e e' => decidable_of_iff _ (e.same_iff e')

mutual

/-- Whether two statements are the same. -/
def Stmt.same : Stmt → Stmt → Bool
  | .expression span e, .expression span' e' => span = span' && e = e'
  | .ret span value, .ret span' value' => span = span' && value = value'
  | .ifThen span condition body, .ifThen span' condition' body' =>
    span = span' && condition = condition' && sameBody body body'
  | .ifElse span condition body otherwise, .ifElse span' condition' body' otherwise' =>
    span = span' && condition = condition' && sameBody body body' && otherwise.same otherwise'
  | .loop span condition body, .loop span' condition' body' =>
    span = span' && condition = condition' && sameBody body body'
  | .block span body, .block span' body' => span = span' && sameBody body body'
  | _, _ => false

/-- Whether two lists of statements are the same. -/
def sameBody : List Stmt → List Stmt → Bool
  | [], [] => true
  | s :: ss, s' :: ss' => s.same s' && sameBody ss ss'
  | _, _ => false

end

mutual

/-- The same for a statement. -/
theorem Stmt.same_iff (s s' : Stmt) : s.same s' = true ↔ s = s' := by
  cases s with
  | expression span e => cases s' <;> simp [Stmt.same]
  | ret span value => cases s' <;> simp [Stmt.same]
  | ifThen span condition body =>
      cases s' <;> simp [Stmt.same, sameBody_iff body, and_assoc]
  | ifElse span condition body otherwise =>
      cases s' <;> simp [Stmt.same, sameBody_iff body, otherwise.same_iff, and_assoc]
  | loop span condition body => cases s' <;> simp [Stmt.same, sameBody_iff body, and_assoc]
  | block span body => cases s' <;> simp [Stmt.same, sameBody_iff body]

/-- The same for a list of statements. -/
theorem sameBody_iff (ss ss' : List Stmt) : sameBody ss ss' = true ↔ ss = ss' := by
  cases ss with
  | nil => cases ss' <;> simp [sameBody]
  | cons s ss => cases ss' <;> simp [sameBody, s.same_iff, sameBody_iff ss]

end

instance : DecidableEq Stmt := fun s s' => decidable_of_iff _ (s.same_iff s')

deriving instance DecidableEq for Function

deriving instance DecidableEq for Program

end Slate
