import Slate.Proofs.Grammar.Written

/-!
# What is written can be read

Every lexeme of a program that can be written is one of the language, and its numbers are
not too large: so the tokens of the text are these lexemes (`tokensOf_written`).
-/

namespace Slate

open Lexeme

namespace Lexeme

/-- The lexeme is one of the language, and no number that is too large. -/
structure Readable (x : Lexeme) : Prop where
  genuine : x.Genuine
  fits : x.kind = .number → decimalValue x.text ≤ maxInteger

/-- A genuine lexeme that is no number is readable. -/
theorem Genuine.readable {x : Lexeme} (h : x.Genuine) (hkind : x.kind ≠ .number) : x.Readable :=
  ⟨h, fun hnumber => (hkind hnumber).elim⟩

/-! ## Lexemes -/

/-- A mark is readable. -/
theorem mark_readable {c : Char} {kind : TokenKind} (h : markKind? c = some kind)
    (hkind : kind ≠ .number) : (whole kind [c]).Readable :=
  (Genuine.mark h).readable hkind

/-- A word is readable. -/
theorem word_readable {name : String} (h : isWord name = true) : (word name).Readable := by
  unfold isWord at h
  unfold word
  split at h
  · cases h
  · next c more heq =>
    rw [heq]
    simp only [Bool.and_eq_true, List.all_eq_true] at h
    refine (Genuine.word h.1 h.2).readable ?_
    unfold wordKind
    split <;> nofun

/-- A name is a word. -/
theorem isWord_of_isName {name : String} (h : isName name = true) : isWord name = true := by
  unfold isName at h
  exact (Bool.and_eq_true_iff.1 h).1

/-- A keyword is readable. -/
theorem keyword_readable {name : String} (h : name ∈ Token.keywords) : (word name).Readable := by
  have hall : ∀ name ∈ Token.keywords, isWord name = true := by
    decide
  exact word_readable (hall name h)

/-- The symbol of a binary operator is readable. -/
theorem binaryOp_readable (op : BinaryOp) : (operator op.symbol).Readable := by
  cases op with
  | plus => exact mark_readable rfl nofun
  | minus => exact mark_readable rfl nofun
  | times => exact mark_readable rfl nofun
  | equal => exact Genuine.equal.readable nofun
  | notEqual => exact Genuine.notEqual.readable nofun

/-- The symbol of a unary operator is readable. -/
theorem unaryOp_readable (op : UnaryOp) : (operator op.symbol).Readable := by
  cases op with
  | negate => exact mark_readable rfl nofun
  | not => exact Genuine.not.readable nofun
  | complement => exact mark_readable rfl nofun

/-- The digits of a number have it as their value. -/
theorem decimalValue_toDigits (n : Nat) : decimalValue (Nat.toDigits 10 n) = n :=
  Nat.ofDigitChars_toDigits (by decide) (by decide)

/-- A number within the range is readable. -/
theorem number_readable {n : Nat} (h : n ≤ maxInteger) : (number n).Readable := by
  refine ⟨?_, fun _ => ?_⟩
  · have hdigits : ∀ c ∈ Nat.toDigits 10 n, c.isDigit = true :=
      fun c hc => Nat.isDigit_of_mem_toDigits (by decide) (by decide) hc
    unfold number
    cases heq : Nat.toDigits 10 n with
    | nil => exact (Nat.toDigits_ne_nil heq).elim
    | cons c more =>
        rw [heq] at hdigits
        obtain ⟨hc, hmore⟩ := List.forall_mem_cons.1 hdigits
        exact .number hc hmore
  · show decimalValue (Nat.toDigits 10 n) ≤ maxInteger
    rw [decimalValue_toDigits]
    exact h

/-- A string without a quote inside is readable. -/
theorem quoted_readable {s : String} (h : '"' ∉ s.toList) : (quoted s).Readable :=
  (Genuine.string h).readable nofun

/-! ## Phrases -/

variable {xs : List Lexeme}

/-- A readable piece between two readable lexemes is readable. -/
theorem between_readable {opening closing : Lexeme} (hopening : opening.Readable)
    (hclosing : closing.Readable) (h : ∀ x ∈ xs, x.Readable) :
    ∀ x ∈ between opening closing xs, x.Readable :=
  List.forall_mem_cons.2 ⟨hopening,
    List.forall_mem_append.2 ⟨h, List.forall_mem_singleton.2 hclosing⟩⟩

theorem parens_readable (h : ∀ x ∈ xs, x.Readable) : ∀ x ∈ parens xs, x.Readable :=
  between_readable (mark_readable rfl nofun) (mark_readable rfl nofun) h

theorem braces_readable (h : ∀ x ∈ xs, x.Readable) : ∀ x ∈ braces xs, x.Readable :=
  between_readable (mark_readable rfl nofun) (mark_readable rfl nofun) h

/-- A phrase stays readable in the parentheses it may need. -/
theorem enclosed_readable (wanted own : Level) (h : ∀ x ∈ xs, x.Readable) :
    ∀ x ∈ enclosed wanted own xs, x.Readable := by
  unfold enclosed
  split
  · exact parens_readable h
  · exact h

/-- Readable phrases stay so with commas between them. -/
theorem commas_readable {phrases : List (List Lexeme)}
    (h : ∀ xs ∈ phrases, ∀ x ∈ xs, x.Readable) : ∀ x ∈ commas phrases, x.Readable := by
  fun_induction commas phrases with
  | case1 => exact List.forall_mem_nil _
  | case2 xs => exact h xs List.mem_cons_self
  | case3 xs ys rest ih =>
      obtain ⟨hxs, hrest⟩ := List.forall_mem_cons.1 h
      exact List.forall_mem_append.2 ⟨hxs,
        List.forall_mem_cons.2 ⟨mark_readable rfl nofun, ih hrest⟩⟩

end Lexeme

/-- A literal that can be written is a readable lexeme. -/
theorem Literal.lexeme_readable {value : Literal} (h : value.Writable) :
    value.lexeme.Readable := by
  cases value with
  | bool b =>
      cases b with
      | true => exact keyword_readable (by decide)
      | false => exact keyword_readable (by decide)
  | int i =>
      have hlt := i.toNatClampNeg_lt
      exact number_readable (show i.toNatClampNeg ≤ 2147483647 by omega)
  | string s => exact quoted_readable h

/-- A variable that can be written is readable. -/
theorem Var.lexemes_readable {v : Var} (h : v.Writable) : ∀ x ∈ v.lexemes, x.Readable := by
  obtain ⟨hname, htype, _⟩ := h
  exact List.forall_mem_cons.2 ⟨word_readable (isWord_of_isName hname),
    List.forall_mem_cons.2 ⟨mark_readable rfl nofun,
      List.forall_mem_singleton.2 (word_readable (isWord_of_isName htype))⟩⟩

mutual

/-- An expression that can be written is readable as the phrase of any level. -/
theorem Expr.phrase_readable (wanted : Level) :
    ∀ e : Expr, e.Writable → ∀ x ∈ e.phrase wanted, x.Readable
  | .literal _ _, h => List.forall_mem_singleton.2 (Literal.lexeme_readable h.2)
  | .var _ _, h => List.forall_mem_singleton.2 (word_readable (isWord_of_isName h.2))
  | .assign _ left right, ⟨_, hleft, hright⟩ =>
      enclosed_readable _ _ (List.forall_mem_append.2 ⟨left.phrase_readable _ hleft,
        List.forall_mem_cons.2 ⟨Genuine.assign.readable nofun, right.phrase_readable _ hright⟩⟩)
  | .call _ _ args, ⟨_, hname, hargs⟩ =>
      List.forall_mem_cons.2 ⟨word_readable (isWord_of_isName hname),
        parens_readable (commas_readable (argumentPhrases_readable args hargs))⟩
  | .binary _ op left right, ⟨_, hleft, hright⟩ =>
      enclosed_readable _ _ (List.forall_mem_append.2 ⟨left.phrase_readable _ hleft,
        List.forall_mem_cons.2 ⟨binaryOp_readable op, right.phrase_readable _ hright⟩⟩)
  | .unary _ op operand, ⟨_, hoperand⟩ =>
      enclosed_readable _ _
        (List.forall_mem_cons.2 ⟨unaryOp_readable op, operand.phrase_readable _ hoperand⟩)

/-- The same for each of a list of arguments. -/
theorem argumentPhrases_readable :
    ∀ es : List Expr, ArgumentsWritable es → ∀ xs ∈ argumentPhrases es, ∀ x ∈ xs, x.Readable
  | [], _ => List.forall_mem_nil _
  | e :: es, ⟨he, hes⟩ =>
      List.forall_mem_cons.2 ⟨e.phrase_readable _ he, argumentPhrases_readable es hes⟩

end

/-! ## Statements -/

/-- A declaration, alone or with a value, is readable. -/
theorem Expr.Declares.phrase_readable {e : Expr} (h : e.Declares) (wanted : Level) :
    ∀ x ∈ e.phrase wanted, x.Readable := by
  cases e with
  | declare n v =>
      exact List.forall_mem_cons.2 ⟨keyword_readable (by decide), Var.lexemes_readable h.2⟩
  | _ => exact h.elim

/-- What can be written as a statement of its own is readable. -/
theorem Expr.StatementWritable.phrase_readable {e : Expr} (h : e.StatementWritable) :
    ∀ x ∈ e.phrase .assignment, x.Readable := by
  cases e with
  | assign n left right =>
      obtain ⟨_, hleft, hright⟩ := h
      refine enclosed_readable _ _ (List.forall_mem_append.2 ⟨?_, List.forall_mem_cons.2
        ⟨Genuine.assign.readable nofun, right.phrase_readable _ hright⟩⟩)
      rcases hleft with hleft | hleft
      · exact hleft.phrase_readable _
      · exact left.phrase_readable _ hleft
  | _ =>
      rcases h with h | h
      · exact h.phrase_readable _
      · exact Expr.phrase_readable _ _ h

/-- An expression that can be written is readable as a condition. -/
theorem Expr.condition_readable {e : Expr} (h : e.Writable) : ∀ x ∈ e.condition, x.Readable :=
  parens_readable (e.phrase_readable _ h)

mutual

/-- A statement that can be written is readable. -/
theorem Stmt.lexemes_readable : ∀ s : Stmt, s.Writable → ∀ x ∈ s.lexemes, x.Readable
  | .expression _ _, h =>
      List.forall_mem_append.2 ⟨Expr.StatementWritable.phrase_readable h,
        List.forall_mem_singleton.2 (mark_readable rfl nofun)⟩
  | .ret _ none, _ =>
      List.forall_mem_cons.2 ⟨keyword_readable (by decide),
        List.forall_mem_singleton.2 (mark_readable rfl nofun)⟩
  | .ret _ (some e), h =>
      List.forall_mem_cons.2 ⟨keyword_readable (by decide),
        List.forall_mem_append.2 ⟨e.phrase_readable _ h,
          List.forall_mem_singleton.2 (mark_readable rfl nofun)⟩⟩
  | .ifThen _ _ body, ⟨hcondition, hbody⟩ =>
      List.forall_mem_cons.2 ⟨keyword_readable (by decide),
        List.forall_mem_append.2 ⟨Expr.condition_readable hcondition,
          braces_readable (bodyLexemes_readable body hbody)⟩⟩
  | .ifElse _ _ body otherwise, ⟨hcondition, hbody, hotherwise⟩ =>
      List.forall_mem_cons.2 ⟨keyword_readable (by decide),
        List.forall_mem_append.2 ⟨Expr.condition_readable hcondition,
          List.forall_mem_append.2 ⟨braces_readable (bodyLexemes_readable body hbody),
            List.forall_mem_cons.2 ⟨keyword_readable (by decide),
              otherwise.branch_readable hotherwise⟩⟩⟩⟩
  | .loop _ _ body, ⟨hcondition, hbody⟩ =>
      List.forall_mem_cons.2 ⟨keyword_readable (by decide),
        List.forall_mem_append.2 ⟨Expr.condition_readable hcondition,
          braces_readable (bodyLexemes_readable body hbody)⟩⟩

/-- What can be written behind `else` is readable. -/
theorem Stmt.branch_readable : ∀ s : Stmt, s.BranchWritable → ∀ x ∈ s.lexemes, x.Readable
  | .block _ body, h => by
      rw [Stmt.lexemes]
      split
      · exact bodyLexemes_readable body h
      · exact braces_readable (bodyLexemes_readable body h)

/-- Statements that can be written are readable. -/
theorem bodyLexemes_readable :
    ∀ ss : List Stmt, BodyWritable ss → ∀ x ∈ bodyLexemes ss, x.Readable
  | [], _ => List.forall_mem_nil _
  | s :: ss, ⟨hs, hss⟩ =>
      List.forall_mem_append.2 ⟨s.lexemes_readable hs, bodyLexemes_readable ss hss⟩

end

/-! ## Programs -/

/-- The block or the semicolon of a function is readable. -/
theorem Function.ending_readable {f : Function} (h : f.Writable) :
    ∀ x ∈ f.ending, x.Readable := by
  unfold Function.ending
  split
  · exact List.forall_mem_singleton.2 (mark_readable rfl nofun)
  · exact braces_readable (bodyLexemes_readable f.body h.body)

/-- A function that can be written is readable. -/
theorem Function.lexemes_readable {f : Function} (h : f.Writable) :
    ∀ x ∈ f.lexemes, x.Readable := by
  have hmark : ∀ x ∈ (if f.builtin then [word "builtin"] else []), x.Readable := by
    split
    · exact List.forall_mem_singleton.2 (keyword_readable (by decide))
    · exact List.forall_mem_nil _
  have hparameters : ∀ xs ∈ f.arguments.map Var.lexemes, ∀ x ∈ xs, x.Readable := by
    refine List.forall_mem_map.2 fun v hv => ?_
    exact Var.lexemes_readable (h.arguments v hv)
  exact List.forall_mem_append.2 ⟨hmark,
    List.forall_mem_cons.2 ⟨word_readable (isWord_of_isName h.result.1),
      List.forall_mem_cons.2 ⟨word_readable (isWord_of_isName h.name),
        List.forall_mem_append.2 ⟨parens_readable (commas_readable hparameters),
          Function.ending_readable h⟩⟩⟩⟩

/-- Each lexeme of a program that can be written is read back as itself. -/
theorem Program.lexemes_readable {p : Program} (h : p.Writable) :
    ∀ x ∈ p.lexemes, x.Readable := by
  intro x hx
  obtain ⟨f, hf, hxf⟩ := List.mem_flatMap.1 hx
  exact Function.lexemes_readable (h.each f hf) x hxf

/-- **The tokens of what is written are the lexemes written.** -/
theorem tokensOf_written {p : Program} (h : p.Writable) :
    (tokensOf p.written).map Token.face = p.lexemes.map Lexeme.face :=
  tokensOf_spelled fun x hx => (Program.lexemes_readable h x hx).genuine

/-- No number of what is written is too large. -/
theorem numbersFit_written {p : Program} (h : p.Writable) : NumbersFit (tokensOf p.written) := by
  intro t ht hkind
  have hmem : t.face ∈ p.lexemes.map Lexeme.face :=
    tokensOf_written h ▸ List.mem_map.2 ⟨t, ht, rfl⟩
  obtain ⟨x, hx, heq⟩ := List.mem_map.1 hmem
  obtain ⟨hxkind, hxtext⟩ := Prod.mk.inj heq
  rw [← hxtext, String.toList_ofList]
  exact (Program.lexemes_readable h x hx).fits (hxkind.trans hkind)

end Slate
