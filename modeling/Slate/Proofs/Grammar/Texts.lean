import Slate.Proofs.Grammar.WellNamed
import Slate.Proofs.Grammar.WrittenLexemes
import Slate.Proofs.Tree.Forms

/-!
# The text of an expression tells which one it is

In an expression with names of the language every word of the written form is one, so the
form can be read from the text.  The form in turn determines the expression up to notes.  The
word behind a parenthesis tells the kind of a node; only the minus sign heads two kinds, and
these have different numbers of operands.  A word that stands alone is a truth value, an
integer or a name: a name is neither a keyword nor does it start with a digit or a sign.

Therefore two such expressions have the same text exactly if they differ in nothing but notes
(`Expr.text_eq_iff`).
-/

namespace Slate

open Lexeme

/-! ## Words -/

/-- The characters of words are plain. -/
theorem isPlain_of_isWordPart {c : Char} (h : isWordPart c = true) : isPlain c = true := by
  refine decide_eq_true fun hmem => ?_
  simp only [List.mem_cons, List.not_mem_nil, or_false] at hmem
  rcases hmem with rfl | rfl | rfl | rfl <;> exact absurd h (by decide)

/-- Words are plain. -/
theorem isPlainWord_of_isWord {name : String} (h : isWord name = true) : IsPlainWord name := by
  unfold isWord at h
  split at h
  · cases h
  · next c more heq =>
    obtain ⟨hfirst, hothers⟩ := (Bool.and_eq_true _ _).mp h
    refine ⟨fun hempty => ?_, ?_⟩
    · rw [hempty] at heq
      cases heq
    · rw [heq]
      exact List.all_eq_true.2 (List.forall_mem_cons.2
        ⟨isPlain_of_isWordPart (isWordPart_iff.2 (.inl hfirst)),
          fun d hd => isPlain_of_isWordPart (List.all_eq_true.1 hothers d hd)⟩)

/-- An integer is written in digits, a negative one behind a minus sign. -/
theorem intText_toList (i : Int32) : (intText i).toList =
    if i.toInt < 0 then '-' :: Nat.toDigits 10 i.toInt.natAbs
    else Nat.toDigits 10 i.toInt.natAbs := by
  rw [intText, Int.toString_eq_repr]
  cases i.toInt with
  | ofNat n => exact String.toList_ofList
  | negSucc n =>
      show ("-" ++ String.ofList (Nat.toDigits 10 (n + 1))).toList = _
      rw [if_pos (Int.negSucc_lt_zero n)]
      simp

/-- The digits of a number are digits. -/
theorem isDigit_of_mem_toDigits {n : Nat} {c : Char} (h : c ∈ Nat.toDigits 10 n) :
    c.isDigit = true :=
  Nat.isDigit_of_mem_toDigits (by decide) (by decide) h

/-- There is no sign among the digits of a number. -/
theorem minus_not_mem_toDigits (n : Nat) : '-' ∉ Nat.toDigits 10 n :=
  fun h => absurd (isDigit_of_mem_toDigits h) (by decide)

/-- Numbers with the same digits are the same. -/
theorem toDigits_inj {m n : Nat} (h : Nat.toDigits 10 m = Nat.toDigits 10 n) : m = n := by
  rw [← decimalValue_toDigits m, h, decimalValue_toDigits]

/-- Different integers are written differently. -/
theorem intText_inj {i j : Int32} (h : intText i = intText j) : i = j := by
  have htext := congrArg String.toList h
  rw [intText_toList, intText_toList] at htext
  have hint : i.toInt = j.toInt := by
    split at htext <;> split at htext
    · have habs := toDigits_inj (List.cons.inj htext).2
      omega
    · exact (minus_not_mem_toDigits _ (htext ▸ List.mem_cons_self)).elim
    · exact (minus_not_mem_toDigits _ (htext ▸ List.mem_cons_self)).elim
    · have habs := toDigits_inj htext
      omega
  exact Int32.toInt_inj.1 hint

/-- An integer starts with a digit or a minus sign, and goes on in digits. -/
theorem intText_starts (i : Int32) : ∃ c more, (intText i).toList = c :: more ∧
    (c = '-' ∨ c.isDigit = true) ∧ ∀ d ∈ more, d.isDigit = true := by
  have hdigits : ∀ d ∈ Nat.toDigits 10 i.toInt.natAbs, d.isDigit = true :=
    fun _ hd => isDigit_of_mem_toDigits hd
  rw [intText_toList]
  split
  · exact ⟨'-', _, rfl, .inl rfl, hdigits⟩
  · cases heq : Nat.toDigits 10 i.toInt.natAbs with
    | nil => exact (Nat.toDigits_ne_nil heq).elim
    | cons c more =>
        rw [heq] at hdigits
        obtain ⟨hc, hmore⟩ := List.forall_mem_cons.1 hdigits
        exact ⟨c, more, rfl, .inr hc, hmore⟩

/-- The text of an integer is plain. -/
theorem isPlainWord_intText (i : Int32) : IsPlainWord (intText i) := by
  obtain ⟨c, more, htext, hc, hmore⟩ := intText_starts i
  have hdigit : ∀ {d : Char}, d.isDigit = true → isPlain d = true :=
    fun hd => isPlain_of_isWordPart (isWordPart_iff.2 (.inr hd))
  refine ⟨fun hempty => ?_, ?_⟩
  · rw [hempty] at htext
    cases htext
  · rw [htext]
    refine List.all_eq_true.2 (List.forall_mem_cons.2 ⟨?_, fun d hd => hdigit (hmore d hd)⟩)
    rcases hc with rfl | hc
    · decide
    · exact hdigit hc

/-- It is no word, for it begins with a digit or a sign. -/
theorem isWord_intText (i : Int32) : isWord (intText i) = false := by
  obtain ⟨c, more, htext, hc, _⟩ := intText_starts i
  have hstart : isWordStart c = false := by
    rcases hc with rfl | hc
    · decide
    · have hdigit := isDigit_iff.1 hc
      rw [Bool.eq_false_iff, ne_eq, isWordStart_iff]
      omega
  simp [isWord, htext, hstart]

/-- The text of a truth value is a word. -/
theorem isWord_boolText (b : Bool) : isWord (boolText b) = true := by
  cases b <;> decide

/-- It is no name, for it is a keyword. -/
theorem isName_boolText (b : Bool) : isName (boolText b) = false := by
  cases b <;> decide

/-! ## Forms can be read -/

/-- A literal has a plain form. -/
theorem Literal.plain_form (value : Literal) : value.form.Plain := by
  cases value with
  | bool b => exact isPlainWord_of_isWord (isWord_boolText b)
  | int i => exact isPlainWord_intText i
  | string s => trivial

/-- The symbol of a binary operator is plain. -/
theorem BinaryOp.isPlainWord_symbol (op : BinaryOp) : IsPlainWord op.symbol := by
  cases op <;> exact ⟨by decide, by decide⟩

/-- So is that of a unary operator. -/
theorem UnaryOp.isPlainWord_symbol (op : UnaryOp) : IsPlainWord op.symbol := by
  cases op <;> exact ⟨by decide, by decide⟩

/-- Names are plain. -/
theorem isPlainWord_of_isName {name : String} (h : isName name = true) : IsPlainWord name :=
  isPlainWord_of_isWord (isWord_of_isName h)

/-- A name with a colon behind it is one word. -/
theorem IsPlainWord.colon {name : String} (h : IsPlainWord name) : IsPlainWord (name ++ ":") := by
  refine ⟨by simp, ?_⟩
  rw [String.toList_append, List.all_append, h.2]
  decide

/-- The text of a type that can be written is its name. -/
theorem Ty.Writable.text_eq {t : Ty} (h : t.Writable) : t.text = t.name := by
  simp [Ty.text, h.2]

mutual

/-- An expression whose names are names has a plain form. -/
theorem Expr.WellNamed.plain_form : ∀ {e : Expr}, e.WellNamed → e.form.Plain
  | .literal _ value, _ => value.plain_form
  | .declare _ declared, ⟨hname, htype⟩ =>
      ⟨⟨by decide, by decide⟩, (isPlainWord_of_isName hname).colon,
        htype.text_eq ▸ isPlainWord_of_isName htype.1, trivial⟩
  | .var _ _, h => isPlainWord_of_isName h
  | .assign _ _ _, ⟨hleft, hright⟩ =>
      ⟨⟨by decide, by decide⟩, hleft.plain_form, hright.plain_form, trivial⟩
  | .call _ _ _, ⟨hname, hargs⟩ =>
      ⟨⟨by decide, by decide⟩, isPlainWord_of_isName hname, ArgumentsWellNamed.plain_forms hargs⟩
  | .binary _ op _ _, ⟨hleft, hright⟩ =>
      ⟨op.isPlainWord_symbol, hleft.plain_form, hright.plain_form, trivial⟩
  | .unary _ op operand, h =>
      ⟨op.isPlainWord_symbol, Expr.WellNamed.plain_form (e := operand) h, trivial⟩
  | .cast _ operand, h =>
      ⟨⟨by decide, by decide⟩, Expr.WellNamed.plain_form (e := operand) h, trivial⟩

/-- The same for the arguments of a call. -/
theorem ArgumentsWellNamed.plain_forms :
    ∀ {es : List Expr}, ArgumentsWellNamed es → PlainItems (argumentForms es)
  | [], _ => trivial
  | _ :: _, ⟨he, hes⟩ => ⟨he.plain_form, ArgumentsWellNamed.plain_forms hes⟩

end

/-! ## Forms tell expressions apart -/

/-- Literals with the same form are the same. -/
theorem Literal.form_inj {value other : Literal} (h : value.form = other.form) : value = other := by
  cases value with
  | bool b =>
      cases other with
      | bool b' =>
          have htext : boolText b = boolText b' := Form.word.inj h
          cases b <;> cases b' <;> first | rfl | exact absurd htext (by decide)
      | int i =>
          have htext : boolText b = intText i := Form.word.inj h
          have hword := isWord_boolText b
          rw [htext, isWord_intText] at hword
          cases hword
      | string s => cases h
  | int i =>
      cases other with
      | bool b =>
          have htext : intText i = boolText b := Form.word.inj h
          have hword := isWord_boolText b
          rw [← htext, isWord_intText] at hword
          cases hword
      | int j =>
          have htext : intText i = intText j := Form.word.inj h
          rw [intText_inj htext]
      | string s => cases h
  | string s =>
      cases other with
      | string t => rw [Form.quoted.inj h]
      | _ => cases h

/-- No literal is written as a name. -/
theorem Literal.form_ne_name (value : Literal) {name : String} (hname : isName name = true) :
    value.form ≠ .word name := by
  intro h
  cases value with
  | bool b =>
      rw [← Form.word.inj h, isName_boolText] at hname
      cases hname
  | int i =>
      have hword := isWord_of_isName hname
      rw [← Form.word.inj h, isWord_intText] at hword
      cases hword
  | string s => cases h

/-- The form of a literal is no node. -/
theorem Literal.form_ne_node (value : Literal) (head : String) (items : List Form) :
    value.form ≠ .node head items := by
  cases value <;> nofun

/-- Variables with the same name and the same type in their forms are the same. -/
theorem Var.eq_of_form {v w : Var} (hv : v.Writable) (hw : w.Writable)
    (hname : v.name ++ ":" = w.name ++ ":") (htype : v.type.text = w.type.text) : v = w := by
  obtain ⟨name, typeName, isReference⟩ := v
  obtain ⟨name', typeName', isReference'⟩ := w
  rw [hv.2.text_eq, hw.2.text_eq] at htype
  obtain rfl : isReference = false := hv.2.2
  obtain rfl : isReference' = false := hw.2.2
  obtain rfl : typeName = typeName' := htype
  have hnames : name.toList ++ [':'] = name'.toList ++ [':'] := by
    simpa using congrArg String.toList hname
  rw [String.toList_injective (List.append_cancel_right hnames)]

/-- Binary operators with the same symbol are the same. -/
theorem BinaryOp.symbol_inj {op op' : BinaryOp} (h : op.symbol = op'.symbol) : op = op' := by
  cases op <;> cases op' <;> first | rfl | exact absurd h (by decide)

/-- So are unary ones. -/
theorem UnaryOp.symbol_inj {op op' : UnaryOp} (h : op.symbol = op'.symbol) : op = op' := by
  cases op <;> cases op' <;> first | rfl | exact absurd h (by decide)

/-- The words that head declarations, assignments, calls and casts. -/
def keyHeads : List String := ["var", "=", "call", "cast"]

/-- The symbol of a binary operator is the head of no other form. -/
theorem BinaryOp.symbol_not_mem (op : BinaryOp) : op.symbol ∉ keyHeads := by
  cases op <;> decide

/-- Nor is that of a unary one. -/
theorem UnaryOp.symbol_not_mem (op : UnaryOp) : op.symbol ∉ keyHeads := by
  cases op <;> decide

mutual

/-- Expressions of one form differ in nothing but notes. -/
theorem Expr.WellNamed.noteless_eq : ∀ {e f : Expr}, e.WellNamed → f.WellNamed →
    e.form = f.form → e.noteless = f.noteless
  | .literal _ value, f, he, hf, h => by
      cases f with
      | literal _ other =>
          obtain rfl := Literal.form_inj h
          rfl
      | var _ name => exact (value.form_ne_name hf h).elim
      | _ => exact (value.form_ne_node _ _ h).elim
  | .declare _ declared, f, he, hf, h => by
      cases f with
      | declare _ declared' =>
          simp only [Expr.form, Form.node.injEq, List.cons.injEq, Form.word.injEq, and_true,
            true_and] at h
          rw [Expr.noteless, Expr.noteless, Var.eq_of_form he hf h.1 h.2]
      | literal _ value => exact (value.form_ne_node _ _ h.symm).elim
      | binary _ op => exact (op.symbol_not_mem ((Form.node.inj h).1 ▸ by decide)).elim
      | _ => simp [Expr.form] at h
  | .var _ name, f, he, hf, h => by
      cases f with
      | var _ name' => rw [Expr.noteless, Expr.noteless, Form.word.inj h]
      | literal _ value => exact (value.form_ne_name he h.symm).elim
      | _ => simp [Expr.form] at h
  | .assign _ left right, f, ⟨hleft, hright⟩, hf, h => by
      cases f with
      | assign _ left' right' =>
          simp only [Expr.form, Form.node.injEq, List.cons.injEq, and_true, true_and] at h
          rw [Expr.noteless, Expr.noteless, hleft.noteless_eq hf.1 h.1,
            hright.noteless_eq hf.2 h.2]
      | literal _ value => exact (value.form_ne_node _ _ h.symm).elim
      | binary _ op => exact (op.symbol_not_mem ((Form.node.inj h).1 ▸ by decide)).elim
      | _ => simp [Expr.form] at h
  | .call _ name args, f, ⟨hname, hargs⟩, hf, h => by
      cases f with
      | call _ name' args' =>
          simp only [Expr.form, Form.node.injEq, List.cons.injEq, Form.word.injEq,
            true_and] at h
          rw [Expr.noteless, Expr.noteless, h.1, hargs.noteless_eq hf.2 h.2]
      | literal _ value => exact (value.form_ne_node _ _ h.symm).elim
      | binary _ op => exact (op.symbol_not_mem ((Form.node.inj h).1 ▸ by decide)).elim
      | unary _ op => exact (op.symbol_not_mem ((Form.node.inj h).1 ▸ by decide)).elim
      | _ => simp [Expr.form] at h
  | .binary _ op left right, f, ⟨hleft, hright⟩, hf, h => by
      cases f with
      | binary _ op' left' right' =>
          simp only [Expr.form, Form.node.injEq, List.cons.injEq, and_true] at h
          rw [Expr.noteless, Expr.noteless, BinaryOp.symbol_inj h.1, hleft.noteless_eq hf.1 h.2.1,
            hright.noteless_eq hf.2 h.2.2]
      | literal _ value => exact (value.form_ne_node _ _ h.symm).elim
      -- Both kinds of operators have the minus sign, for a different number of operands.
      | unary _ op' => simp [Expr.form] at h
      | var => simp [Expr.form] at h
      | _ => exact (op.symbol_not_mem ((Form.node.inj h).1 ▸ by decide)).elim
  | .unary _ op operand, f, he, hf, h => by
      cases f with
      | unary _ op' operand' =>
          simp only [Expr.form, Form.node.injEq, List.cons.injEq, and_true] at h
          have hoperand : operand.WellNamed := he
          have hoperand' : operand'.WellNamed := hf
          rw [Expr.noteless, Expr.noteless, UnaryOp.symbol_inj h.1,
            hoperand.noteless_eq hoperand' h.2]
      | literal _ value => exact (value.form_ne_node _ _ h.symm).elim
      | binary _ op' => simp [Expr.form] at h
      | var => simp [Expr.form] at h
      | _ => exact (op.symbol_not_mem ((Form.node.inj h).1 ▸ by decide)).elim
  | .cast _ operand, f, he, hf, h => by
      cases f with
      | cast _ operand' =>
          simp only [Expr.form, Form.node.injEq, List.cons.injEq, and_true, true_and] at h
          have hoperand : operand.WellNamed := he
          have hoperand' : operand'.WellNamed := hf
          rw [Expr.noteless, Expr.noteless, hoperand.noteless_eq hoperand' h]
      | literal _ value => exact (value.form_ne_node _ _ h.symm).elim
      | unary _ op => exact (op.symbol_not_mem ((Form.node.inj h).1 ▸ by decide)).elim
      | _ => simp [Expr.form] at h

/-- The same for the arguments of a call. -/
theorem ArgumentsWellNamed.noteless_eq : ∀ {es fs : List Expr}, ArgumentsWellNamed es →
    ArgumentsWellNamed fs → argumentForms es = argumentForms fs →
    notelessArguments es = notelessArguments fs
  | [], [], _, _, _ => rfl
  | _ :: _, _ :: _, ⟨he, hes⟩, ⟨hf, hfs⟩, h => by
      obtain ⟨hfirst, hothers⟩ := List.cons.inj h
      rw [notelessArguments, notelessArguments, he.noteless_eq hf hfirst,
        ArgumentsWellNamed.noteless_eq hes hfs hothers]
  | [], _ :: _, _, _, h => by
      cases h
  | _ :: _, [], _, _, h => by
      cases h

end

/-- **Texts tell expressions apart.**  Expressions with names of the language have the same
text exactly if they differ in nothing but notes. -/
theorem Expr.text_eq_iff {e f : Expr} (he : e.WellNamed) (hf : f.WellNamed) :
    e.text = f.text ↔ e.noteless = f.noteless := by
  constructor
  · intro h
    have hwritten : e.form.written = f.form.written := by
      rw [e.written_form, f.written_form, h]
    exact he.noteless_eq hf (Form.written_inj he.plain_form hf.plain_form hwritten)
  · intro h
    rw [← e.text_noteless, h, f.text_noteless]

end Slate
