import Slate.Proofs.Tree.Spanless
import Slate.Token.Basic

/-!
# Moved tokens and trees

A map of positions moves the spans of tokens and trees, and nothing else of them.  The span
between two spans moves with them, so a tree whose span is put together of the spans of its
parts may be moved before or after that.

Leaving the spans out of a tree is the move to the place of trees that come from no text
(`Expr.spanless_eq`, `Function.spanless_eq`).
-/

namespace Slate

variable (move : Position → Position)

/-- The span between the moved positions. -/
def Span.relocated (s : Span) : Span := ⟨move s.start, move s.stop⟩

/-- The token at the moved place. -/
def Token.relocated (t : Token) : Token := { t with span := t.span.relocated move }

/-- The note at the moved span. -/
def Note.relocated (n : Note) : Note := ⟨n.type, n.span.relocated move⟩

mutual

/-- The expression with its spans moved. -/
def Expr.relocated : Expr → Expr
  | .literal n value => .literal (n.relocated move) value
  | .declare n declared => .declare (n.relocated move) declared
  | .var n name => .var (n.relocated move) name
  | .assign n left right => .assign (n.relocated move) left.relocated right.relocated
  | .call n name args => .call (n.relocated move) name (relocatedArguments args)
  | .binary n op left right => .binary (n.relocated move) op left.relocated right.relocated
  | .unary n op operand => .unary (n.relocated move) op operand.relocated
  | .cast n operand => .cast (n.relocated move) operand.relocated

/-- Arguments with their spans moved. -/
def relocatedArguments : List Expr → List Expr
  | [] => []
  | e :: es => e.relocated :: relocatedArguments es

end

mutual

/-- The statement with its spans moved. -/
def Stmt.relocated : Stmt → Stmt
  | .expression span e => .expression (span.relocated move) (e.relocated move)
  | .ret span value => .ret (span.relocated move) (value.map (Expr.relocated move))
  | .ifThen span condition body =>
    .ifThen (span.relocated move) (condition.relocated move) (relocatedBody body)
  | .ifElse span condition body otherwise =>
    .ifElse (span.relocated move) (condition.relocated move) (relocatedBody body)
      otherwise.relocated
  | .loop span condition body =>
    .loop (span.relocated move) (condition.relocated move) (relocatedBody body)
  | .block span body => .block (span.relocated move) (relocatedBody body)

/-- Statements with their spans moved. -/
def relocatedBody : List Stmt → List Stmt
  | [] => []
  | s :: ss => s.relocated :: relocatedBody ss

end

/-- The function with its spans moved. -/
def Function.relocated (f : Function) : Function :=
  { f with span := f.span.relocated move, body := relocatedBody move f.body }

/-! ## Spans of moved trees -/

/-- The note of a moved expression is moved. -/
@[simp] theorem Expr.note_relocated (e : Expr) :
    (e.relocated move).note = e.note.relocated move := by
  cases e <;> rfl

/-- So is its span. -/
@[simp] theorem Expr.span_relocated (e : Expr) :
    (e.relocated move).span = e.span.relocated move := by
  rw [Expr.span, e.note_relocated]
  rfl

/-- So is the span of a statement. -/
@[simp] theorem Stmt.span_relocated (s : Stmt) :
    (s.relocated move).span = s.span.relocated move := by
  cases s <;> rfl

/-! ## Leaving spans out -/

mutual

/-- An expression without its spans is moved to where no text is. -/
theorem Expr.spanless_eq : ∀ e : Expr, e.spanless = e.relocated fun _ => .nowhere
  | .literal _ _ => rfl
  | .declare _ _ => rfl
  | .var _ _ => rfl
  | .assign _ left right => by
      rw [Expr.spanless, Expr.relocated, left.spanless_eq, right.spanless_eq]
      rfl
  | .call _ _ args => by
      rw [Expr.spanless, Expr.relocated, spanlessArguments_eq args]
      rfl
  | .binary _ _ left right => by
      rw [Expr.spanless, Expr.relocated, left.spanless_eq, right.spanless_eq]
      rfl
  | .unary _ _ operand => by
      rw [Expr.spanless, Expr.relocated, operand.spanless_eq]
      rfl
  | .cast _ operand => by
      rw [Expr.spanless, Expr.relocated, operand.spanless_eq]
      rfl

/-- The same for the arguments of a call. -/
theorem spanlessArguments_eq :
    ∀ es : List Expr, spanlessArguments es = relocatedArguments (fun _ => .nowhere) es
  | [] => rfl
  | e :: es => by
      rw [spanlessArguments, relocatedArguments, e.spanless_eq, spanlessArguments_eq es]

end

mutual

/-- The same for a statement. -/
theorem Stmt.spanless_eq : ∀ s : Stmt, s.spanless = s.relocated fun _ => .nowhere
  | .expression _ e => by
      rw [Stmt.spanless, Stmt.relocated, e.spanless_eq]
      rfl
  | .ret _ value => by
      rw [Stmt.spanless, Stmt.relocated, funext Expr.spanless_eq]
      rfl
  | .ifThen _ condition body => by
      rw [Stmt.spanless, Stmt.relocated, condition.spanless_eq, spanlessBody_eq body]
      rfl
  | .ifElse _ condition body otherwise => by
      rw [Stmt.spanless, Stmt.relocated, condition.spanless_eq, spanlessBody_eq body,
        otherwise.spanless_eq]
      rfl
  | .loop _ condition body => by
      rw [Stmt.spanless, Stmt.relocated, condition.spanless_eq, spanlessBody_eq body]
      rfl
  | .block _ body => by
      rw [Stmt.spanless, Stmt.relocated, spanlessBody_eq body]
      rfl

/-- The same for a list of statements. -/
theorem spanlessBody_eq :
    ∀ ss : List Stmt, spanlessBody ss = relocatedBody (fun _ => .nowhere) ss
  | [] => rfl
  | s :: ss => by rw [spanlessBody, relocatedBody, s.spanless_eq, spanlessBody_eq ss]

end

/-- The same for a function. -/
theorem Function.spanless_eq (f : Function) : f.spanless = f.relocated fun _ => .nowhere := by
  rw [Function.spanless, Function.relocated, spanlessBody_eq]
  rfl

end Slate
