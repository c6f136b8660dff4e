import Mathlib.Logic.Relation
import Slate.Tree.Basic

/-!
# The nodes of a tree

Expressions and statements are the nodes of one tree, in which each has its parts below it.
The parts of a node are listed as they are written, which for an assignment is not the order
in which they are evaluated (`Expr.operands`).

* `Node.HasPart` — one node is a part of another;
* `Node.Above`, `Node.Reaches` — one node lies below another, or may be the same.
-/

namespace Slate

/-- The expressions that an expression is made of, as they are written. -/
def Expr.parts : Expr → List Expr
  | .assign _ left right => [left, right]
  | .call _ _ args => args
  | .binary _ _ left right => [left, right]
  | .unary _ _ operand => [operand]
  | .cast _ operand => [operand]
  | _ => []

/-- An expression or a statement. -/
inductive Node where
  | expr (e : Expr)
  | stmt (s : Stmt)

namespace Node

/-- The span of the expression or of the statement. -/
def span : Node → Span
  | expr e => e.span
  | stmt s => s.span

/-- What a node is made of, as it is written. -/
def parts : Node → List Node
  | expr e => e.parts.map expr
  | stmt (.expression _ e) => [expr e]
  | stmt (.ret _ none) => []
  | stmt (.ret _ (some e)) => [expr e]
  | stmt (.ifThen _ condition body) => expr condition :: body.map stmt
  | stmt (.ifElse _ condition body otherwise) =>
    expr condition :: (body.map stmt ++ [stmt otherwise])
  | stmt (.loop _ condition body) => expr condition :: body.map stmt
  | stmt (.block _ body) => body.map stmt

/-- The second node is a part of the first one. -/
def HasPart (n m : Node) : Prop := m ∈ n.parts

/-- The second node lies below the first one. -/
def Above : Node → Node → Prop := Relation.TransGen HasPart

/-- The second node is the first one, or it lies below that. -/
def Reaches : Node → Node → Prop := Relation.ReflTransGen HasPart

/-- What is inherited by every part is inherited by every node below. -/
theorem Reaches.inherits {P : Node → Prop} (hpart : ∀ n, P n → ∀ m ∈ n.parts, P m) {n m : Node}
    (h : n.Reaches m) (hn : P n) : P m := by
  induction h with
  | refl => exact hn
  | tail _ hlast ih => exact hpart _ ih _ hlast

end Node

end Slate
