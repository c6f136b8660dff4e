import Slate.Tree.Basic

/-!
# The spans of a tree

Every span that stands in a tree: those of functions, of statements and of expressions,
with what is in them.  The lists follow the text, a whole before its parts.
-/

namespace Slate

mutual

/-- The spans of the expression and of the expressions in it. -/
def Expr.spans : Expr → List Span
  | .literal n _ => [n.span]
  | .declare n _ => [n.span]
  | .var n _ => [n.span]
  | .assign n left right => n.span :: (left.spans ++ right.spans)
  | .call n _ args => n.span :: argumentSpans args
  | .binary n _ left right => n.span :: (left.spans ++ right.spans)
  | .unary n _ operand => n.span :: operand.spans
  | .cast n operand => n.span :: operand.spans

/-- The spans of the expressions in the arguments. -/
def argumentSpans : List Expr → List Span
  | [] => []
  | e :: es => e.spans ++ argumentSpans es

end

mutual

/-- The spans of the statement and of everything in it. -/
def Stmt.spans : Stmt → List Span
  | .expression span e => span :: e.spans
  | .ret span none => [span]
  | .ret span (some e) => span :: e.spans
  | .ifThen span condition body => span :: (condition.spans ++ bodySpans body)
  | .ifElse span condition body otherwise =>
    span :: (condition.spans ++ (bodySpans body ++ otherwise.spans))
  | .loop span condition body => span :: (condition.spans ++ bodySpans body)
  | .block span body => span :: bodySpans body

/-- The spans of the statements and of everything in them. -/
def bodySpans : List Stmt → List Span
  | [] => []
  | s :: ss => s.spans ++ bodySpans ss

end

/-- The spans of the function and of everything in its body. -/
def Function.spans (f : Function) : List Span := f.span :: bodySpans f.body

theorem Expr.span_mem_spans (e : Expr) : e.span ∈ e.spans := by
  cases e <;> exact List.mem_cons_self

theorem Stmt.span_mem_spans (s : Stmt) : s.span ∈ s.spans := by
  cases s with
  | ret span value => cases value <;> exact List.mem_cons_self
  | _ => exact List.mem_cons_self

end Slate
