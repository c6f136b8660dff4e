import Slate.Proofs.Text.Quoted
import Slate.Proofs.Token.Spelled
import Slate.Tree.Text

/-!
# Written forms

The written form of an expression is made of words, quoted texts and nodes: a node is a word
and further forms between parentheses, each behind a space (`Form`).  Which word stands where
depends on the expression (`Expr.form`), how it is written does not.

Where words have no spaces, parentheses and quotes, a form can be read from its characters:
no two forms begin the same text, unless a word of one goes on in the other
(`Form.written_append_inj`).
-/

namespace Slate

/-- The structure of a written form. -/
inductive Form where
  | word (text : String)
  | quoted (text : String)
  | node (head : String) (items : List Form)

mutual

/-- The characters of a form. -/
def Form.written : Form → List Char
  | .word text => text.toList
  | .quoted text => (Text.quote text).toList
  | .node head items => '(' :: (head.toList ++ (writtenItems items ++ [')']))

/-- The characters of forms, each behind a space. -/
def writtenItems : List Form → List Char
  | [] => []
  | x :: xs => ' ' :: (x.written ++ writtenItems xs)

end

/-! ## Expressions as forms -/

/-- The form of a literal. -/
def Literal.form : Literal → Form
  | .bool b => .word (boolText b)
  | .int i => .word (intText i)
  | .string s => .quoted s

mutual

/-- The form of an expression. -/
def Expr.form : Expr → Form
  | .literal _ value => value.form
  | .declare _ declared => .node "var" [.word (declared.name ++ ":"), .word declared.type.text]
  | .var _ name => .word name
  | .assign _ left right => .node "=" [left.form, right.form]
  | .call _ name args => .node "call" (.word name :: argumentForms args)
  | .binary _ op left right => .node op.symbol [left.form, right.form]
  | .unary _ op operand => .node op.symbol [operand.form]
  | .cast _ operand => .node "cast" [operand.form]

/-- The forms of arguments. -/
def argumentForms : List Expr → List Form
  | [] => []
  | e :: es => e.form :: argumentForms es

end

/-- The written form of a literal is its text. -/
theorem Literal.written_form (value : Literal) : value.form.written = value.text.toList := by
  cases value <;> rfl

mutual

/-- An expression is written as its form. -/
theorem Expr.written_form : ∀ e : Expr, e.form.written = e.text.toList
  | .literal _ value => value.written_form
  | .declare _ declared => by
      simp [Expr.form, Expr.text, Form.written, writtenItems]
  | .var _ name => rfl
  | .assign _ left right => by
      simp [Expr.form, Expr.text, Form.written, writtenItems, left.written_form,
        right.written_form]
  | .call _ name args => by
      simp [Expr.form, Expr.text, Form.written, writtenItems, written_argumentForms args]
  | .binary _ op left right => by
      simp [Expr.form, Expr.text, Form.written, writtenItems, left.written_form,
        right.written_form]
  | .unary _ op operand => by
      simp [Expr.form, Expr.text, Form.written, writtenItems, operand.written_form]
  | .cast _ operand => by
      simp [Expr.form, Expr.text, Form.written, writtenItems, operand.written_form]

/-- The same for the arguments of a call. -/
theorem written_argumentForms :
    ∀ es : List Expr, writtenItems (argumentForms es) = (Expr.argumentsText es).toList
  | [] => rfl
  | e :: es => by
      simp [argumentForms, Expr.argumentsText, writtenItems, e.written_form,
        written_argumentForms es]

end

/-! ## Expressions without notes -/

mutual

/-- The expression without its spans and without the types that the checker has noted.  Casts
and the types of declared variables stay. -/
def Expr.noteless : Expr → Expr
  | .literal _ value => .literal (.unchecked .nowhere) value
  | .declare _ declared => .declare (.unchecked .nowhere) declared
  | .var _ name => .var (.unchecked .nowhere) name
  | .assign _ left right => .assign (.unchecked .nowhere) left.noteless right.noteless
  | .call _ name args => .call (.unchecked .nowhere) name (notelessArguments args)
  | .binary _ op left right => .binary (.unchecked .nowhere) op left.noteless right.noteless
  | .unary _ op operand => .unary (.unchecked .nowhere) op operand.noteless
  | .cast _ operand => .cast (.unchecked .nowhere) operand.noteless

/-- The arguments without their spans and noted types. -/
def notelessArguments : List Expr → List Expr
  | [] => []
  | e :: es => e.noteless :: notelessArguments es

end

mutual

/-- Notes do not matter for the form. -/
theorem Expr.form_noteless : ∀ e : Expr, e.noteless.form = e.form
  | .literal _ _ => rfl
  | .declare _ _ => rfl
  | .var _ _ => rfl
  | .assign _ left right => by
      rw [Expr.noteless, Expr.form, Expr.form, left.form_noteless, right.form_noteless]
  | .call _ _ args => by
      rw [Expr.noteless, Expr.form, Expr.form, argumentForms_noteless args]
  | .binary _ _ left right => by
      rw [Expr.noteless, Expr.form, Expr.form, left.form_noteless, right.form_noteless]
  | .unary _ _ operand => by
      rw [Expr.noteless, Expr.form, Expr.form, operand.form_noteless]
  | .cast _ operand => by
      rw [Expr.noteless, Expr.form, Expr.form, operand.form_noteless]

/-- The same for the arguments of a call. -/
theorem argumentForms_noteless :
    ∀ es : List Expr, argumentForms (notelessArguments es) = argumentForms es
  | [] => rfl
  | e :: es => by
      rw [notelessArguments, argumentForms, argumentForms, e.form_noteless,
        argumentForms_noteless es]

end

/-- Notes are not written. -/
theorem Expr.text_noteless (e : Expr) : e.noteless.text = e.text := by
  apply String.toList_injective
  rw [← Expr.written_form, ← Expr.written_form, Expr.form_noteless]

/-! ## Reading forms -/

/-- The characters that a word of a form can have. -/
def isPlain (c : Char) : Bool := c ∉ [' ', '(', ')', '"']

/-- The text is a word of a form. -/
def IsPlainWord (text : String) : Prop := text ≠ "" ∧ text.toList.all isPlain = true

/-- No word goes on in the text. -/
def Edge (u : List Char) : Prop := u.head?.any isPlain = false

mutual

/-- The words of the form are words. -/
def Form.Plain : Form → Prop
  | .word text => IsPlainWord text
  | .quoted _ => True
  | .node head items => IsPlainWord head ∧ PlainItems items

/-- The words of the forms are words. -/
def PlainItems : List Form → Prop
  | [] => True
  | x :: xs => x.Plain ∧ PlainItems xs

end

theorem edge_nil : Edge [] := rfl

/-- A character that is not plain is an edge. -/
theorem edge_cons {c : Char} (hc : isPlain c = false) (u : List Char) : Edge (c :: u) := hc

/-- Behind a form there is another one or the end of the node. -/
theorem edge_items (xs : List Form) (u : List Char) : Edge (writtenItems xs ++ ')' :: u) := by
  cases xs with
  | nil => exact edge_cons (by decide) u
  | cons x xs => exact edge_cons (by decide) _

section

variable {s t : String} {u v : List Char}

/-- A word ends where no word goes on. -/
theorem IsPlainWord.append_inj (hs : IsPlainWord s) (ht : IsPlainWord t) (hu : Edge u)
    (hv : Edge v) (h : s.toList ++ u = t.toList ++ v) : s = t ∧ u = v := by
  have hplain := List.all_eq_true.1 hs.2
  have hplain' := List.all_eq_true.1 ht.2
  have hwords : s.toList = t.toList := by
    calc s.toList = (s.toList ++ u).takeWhile isPlain := (Lexeme.takeWhile_exact hplain hu).symm
      _ = (t.toList ++ v).takeWhile isPlain := by rw [h]
      _ = t.toList := Lexeme.takeWhile_exact hplain' hv
  rw [hwords] at h
  exact ⟨String.toList_injective hwords, List.append_cancel_left h⟩

/-- A word starts with no mark. -/
theorem IsPlainWord.append_ne_cons (hs : IsPlainWord s) {c : Char} (hc : isPlain c = false) :
    s.toList ++ u ≠ c :: v := by
  intro h
  cases htext : s.toList with
  | nil => exact hs.1 (String.toList_eq_nil_iff.1 htext)
  | cons d more =>
      rw [htext] at h
      have hplain := List.all_eq_true.1 hs.2 d (htext ▸ List.mem_cons_self)
      rw [(List.cons.inj h).1, hc] at hplain
      cases hplain

end

mutual

/-- **A form ends where it ends.**  Where two forms begin the same text, and no word of theirs
goes on behind them, they are the same and so is what follows. -/
theorem Form.written_append_inj : ∀ x y : Form, x.Plain → y.Plain → ∀ {u v : List Char}, Edge u →
    Edge v → x.written ++ u = y.written ++ v → x = y ∧ u = v
  | .word s, .word t => by
      intro hx hy u v hu hv h
      simp only [Form.written] at h
      obtain ⟨rfl, hrest⟩ := IsPlainWord.append_inj hx hy hu hv h
      exact ⟨rfl, hrest⟩
  | .quoted s, .quoted t => by
      intro _ _ u v _ _ h
      simp only [Form.written] at h
      obtain ⟨rfl, hrest⟩ := Text.quote_append_inj h
      exact ⟨rfl, hrest⟩
  | .node head items, .node head' items' => by
      intro hx hy u v _ _ h
      simp only [Form.written, List.cons_append, List.append_assoc, List.nil_append,
        List.cons.injEq, true_and] at h
      obtain ⟨rfl, hitems⟩ := hx.1.append_inj hy.1 (edge_items items u) (edge_items items' v) h
      obtain ⟨rfl, hrest⟩ := writtenItems_append_inj items items' hx.2 hy.2 hitems
      exact ⟨rfl, hrest⟩
  -- Forms of different kinds start differently.
  | .word s, .quoted t => by
      intro hx _ u v _ _ h
      simp only [Form.written, Text.quote_toList, List.cons_append] at h
      exact (IsPlainWord.append_ne_cons hx (by decide) h).elim
  | .word s, .node head items => by
      intro hx _ u v _ _ h
      simp only [Form.written, List.cons_append] at h
      exact (IsPlainWord.append_ne_cons hx (by decide) h).elim
  | .quoted s, .word t => by
      intro _ hy u v _ _ h
      simp only [Form.written, Text.quote_toList, List.cons_append] at h
      exact (IsPlainWord.append_ne_cons hy (by decide) h.symm).elim
  | .quoted s, .node head items => by
      intro _ _ u v _ _ h
      simp [Form.written, Text.quote_toList] at h
  | .node head items, .word t => by
      intro _ hy u v _ _ h
      simp only [Form.written, List.cons_append] at h
      exact (IsPlainWord.append_ne_cons hy (by decide) h.symm).elim
  | .node head items, .quoted t => by
      intro _ _ u v _ _ h
      simp [Form.written, Text.quote_toList] at h

/-- The forms of a node end at its parenthesis. -/
theorem writtenItems_append_inj : ∀ xs ys : List Form, PlainItems xs → PlainItems ys →
    ∀ {u v : List Char}, writtenItems xs ++ ')' :: u = writtenItems ys ++ ')' :: v →
      xs = ys ∧ u = v
  | [], [] => by
      intro _ _ u v h
      exact ⟨rfl, (List.cons.inj h).2⟩
  | x :: xs, y :: ys => by
      intro hx hy u v h
      simp only [writtenItems, List.cons_append, List.append_assoc, List.cons.injEq,
        true_and] at h
      obtain ⟨rfl, hmore⟩ :=
        x.written_append_inj y hx.1 hy.1 (edge_items xs u) (edge_items ys v) h
      obtain ⟨rfl, hrest⟩ := writtenItems_append_inj xs ys hx.2 hy.2 hmore
      exact ⟨rfl, hrest⟩
  | [], _ :: _ => by
      intro _ _ u v h
      simp [writtenItems] at h
  | _ :: _, [] => by
      intro _ _ u v h
      simp [writtenItems] at h

end

/-- A form that can be read is determined by its characters. -/
theorem Form.written_inj {x y : Form} (hx : x.Plain) (hy : y.Plain) (h : x.written = y.written) :
    x = y :=
  (x.written_append_inj y hx hy edge_nil edge_nil (by rw [h])).1

end Slate
