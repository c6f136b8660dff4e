import Slate.Tree.Text

/-!
# Trees without spans

Two trees are equal up to spans when they are equal after every span in them is
replaced by the span of nodes that come from no text.  Only the spans go:
noted types, casts and locals stay.
-/

namespace Slate

/-- The note with its type alone. -/
def Note.spanless (n : Note) : Note := ⟨n.type, .nowhere⟩

mutual

/-- The expression without its spans. -/
def Expr.spanless : Expr → Expr
  | .literal n value => .literal n.spanless value
  | .declare n declared => .declare n.spanless declared
  | .var n name => .var n.spanless name
  | .assign n left right => .assign n.spanless left.spanless right.spanless
  | .call n name args => .call n.spanless name (spanlessArguments args)
  | .binary n op left right => .binary n.spanless op left.spanless right.spanless
  | .unary n op operand => .unary n.spanless op operand.spanless
  | .cast n operand => .cast n.spanless operand.spanless

/-- Arguments without their spans. -/
def spanlessArguments : List Expr → List Expr
  | [] => []
  | e :: es => e.spanless :: spanlessArguments es

end

mutual

/-- The statement without its spans. -/
def Stmt.spanless : Stmt → Stmt
  | .expression _ e => .expression .nowhere e.spanless
  | .ret _ value => .ret .nowhere (value.map Expr.spanless)
  | .ifThen _ condition body => .ifThen .nowhere condition.spanless (spanlessBody body)
  | .ifElse _ condition body otherwise =>
    .ifElse .nowhere condition.spanless (spanlessBody body) otherwise.spanless
  | .loop _ condition body => .loop .nowhere condition.spanless (spanlessBody body)
  | .block _ body => .block .nowhere (spanlessBody body)

/-- Statements without their spans. -/
def spanlessBody : List Stmt → List Stmt
  | [] => []
  | s :: ss => s.spanless :: spanlessBody ss

end

/-- The function without its spans. -/
def Function.spanless (f : Function) : Function :=
  { f with span := .nowhere, body := spanlessBody f.body }

/-- The program without its spans. -/
def Program.spanless (p : Program) : Program :=
  { p with functions := p.functions.map Function.spanless }

/-! ## What is left of a tree -/

/-- The note of an expression loses its span. -/
@[simp] theorem Expr.note_spanless (e : Expr) : e.spanless.note = e.note.spanless := by
  cases e <;> rfl

/-- What is left of the span is nowhere. -/
@[simp] theorem Expr.span_spanless (e : Expr) : e.spanless.span = .nowhere := by
  rw [Expr.span, e.note_spanless]
  rfl

/-- The recorded type stays. -/
@[simp] theorem Expr.type?_spanless (e : Expr) : e.spanless.type? = e.type? := by
  rw [Expr.type?, e.note_spanless]
  rfl

@[simp] theorem length_spanlessArguments (es : List Expr) :
    (spanlessArguments es).length = es.length := by
  induction es with
  | nil => rfl
  | cons e es ih => rw [spanlessArguments, List.length_cons, List.length_cons, ih]

/-- A function is found by its name. -/
theorem Program.function?_spanless (p : Program) (name : String) :
    p.spanless.function? name = (p.function? name).map Function.spanless := by
  unfold Program.function? Program.spanless
  rw [List.find?_map]
  rfl

/-- The statements of a body lose their spans one by one. -/
theorem spanlessBody_eq_map (ss : List Stmt) : spanlessBody ss = ss.map Stmt.spanless := by
  induction ss with
  | nil => rfl
  | cons s ss ih => rw [spanlessBody, List.map_cons, ih]

mutual

/-- The written form of an expression shows no spans. -/
@[simp] theorem Expr.text_spanless : ∀ e : Expr, e.spanless.text = e.text
  | .literal _ _ => rfl
  | .declare _ _ => rfl
  | .var _ _ => rfl
  | .assign _ left right => by
      rw [Expr.spanless, Expr.text, Expr.text, left.text_spanless, right.text_spanless]
  | .call _ _ args => by
      rw [Expr.spanless, Expr.text, Expr.text, argumentsText_spanless args]
  | .binary _ _ left right => by
      rw [Expr.spanless, Expr.text, Expr.text, left.text_spanless, right.text_spanless]
  | .unary _ _ operand => by
      rw [Expr.spanless, Expr.text, Expr.text, operand.text_spanless]
  | .cast _ operand => by
      rw [Expr.spanless, Expr.text, Expr.text, operand.text_spanless]

/-- The same for the arguments of a call. -/
theorem argumentsText_spanless :
    ∀ es : List Expr, Expr.argumentsText (spanlessArguments es) = Expr.argumentsText es
  | [] => rfl
  | e :: es => by
      rw [spanlessArguments, Expr.argumentsText, Expr.argumentsText, e.text_spanless,
        argumentsText_spanless es]

end

end Slate
