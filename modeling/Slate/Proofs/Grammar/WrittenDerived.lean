import Slate.Proofs.Grammar.FunctionDerivations
import Slate.Proofs.Grammar.WrittenLexemes

/-!
# What is written is derived

Tokens that are the lexemes of a tree, wherever they stand, are derived by the grammar as
this tree.  An expression that is written as one of a level is derived at this level: it is
either of a level that binds as strongly, or it stands between parentheses
(`derives_enclosed`).

The proofs follow the trees.  What a phrase was written from tells how its tokens split, so
there is nothing to search for; that no other tree is derived from the tokens is known of
the grammar already.
-/

namespace Slate

open Lexeme

/-- The tokens are the lexemes, wherever they stand. -/
def Spell (ts : List Token) (xs : List Lexeme) : Prop := ts.map Token.face = xs.map Lexeme.face

/-! ## Tokens of phrases -/

section

variable {ts : List Token} {t : Token} {x : Lexeme} {xs ys : List Lexeme}

theorem spell_nil : Spell ts [] ↔ ts = [] :=
  List.map_eq_nil_iff

/-- A token for the first lexeme and tokens for the others spell the whole. -/
theorem spell_cons :
    Spell ts (x :: xs) ↔ ∃ t us, ts = t :: us ∧ t.face = x.face ∧ Spell us xs :=
  List.map_eq_cons_iff

theorem spell_singleton : Spell ts [x] ↔ ∃ t, ts = [t] ∧ t.face = x.face := by
  simp only [spell_cons, spell_nil]
  constructor
  · rintro ⟨t, _, rfl, ht, rfl⟩
    exact ⟨t, rfl, ht⟩
  · rintro ⟨t, rfl, ht⟩
    exact ⟨t, [], rfl, ht, rfl⟩

/-- What spells two pieces behind each other is cut where the second begins. -/
theorem spell_append :
    Spell ts (xs ++ ys) ↔ ∃ us vs, ts = us ++ vs ∧ Spell us xs ∧ Spell vs ys := by
  unfold Spell
  rw [List.map_append, List.map_eq_append_iff]

/-- What spells a piece between two lexemes has a token for each of the two. -/
theorem spell_between {opening closing : Lexeme} (h : Spell ts (between opening closing xs)) :
    ∃ t us u, ts = t :: (us ++ [u]) ∧ t.face = opening.face ∧ Spell us xs ∧
      u.face = closing.face := by
  obtain ⟨t, _, rfl, ht, h⟩ := spell_cons.1 h
  obtain ⟨us, _, rfl, hus, h⟩ := spell_append.1 h
  obtain ⟨u, rfl, hu⟩ := spell_singleton.1 h
  exact ⟨t, us, u, rfl, ht, hus, hu⟩

/-- What spells a piece in parentheses has the two parentheses around it. -/
theorem spell_parens (h : Spell ts (parens xs)) :
    ∃ opening us closing, ts = opening :: (us ++ [closing]) ∧ opening.kind = .leftParen ∧
      Spell us xs ∧ closing.kind = .rightParen := by
  obtain ⟨opening, us, closing, rfl, hopening, hus, hclosing⟩ := spell_between h
  exact ⟨opening, us, closing, rfl, congrArg Prod.fst hopening, hus, congrArg Prod.fst hclosing⟩

/-- What spells a piece in braces has the two braces around it. -/
theorem spell_braces (h : Spell ts (braces xs)) :
    ∃ opening us closing, ts = opening :: (us ++ [closing]) ∧ opening.kind = .leftBrace ∧
      Spell us xs ∧ closing.kind = .rightBrace := by
  obtain ⟨opening, us, closing, rfl, hopening, hus, hclosing⟩ := spell_between h
  exact ⟨opening, us, closing, rfl, congrArg Prod.fst hopening, hus, congrArg Prod.fst hclosing⟩

/-- A token that is a word has the text of the word. -/
theorem text_of_word {name : String} (h : t.face = (word name).face) : t.text = name := by
  have htext : t.text = String.ofList name.toList := congrArg Prod.snd h
  rw [htext, String.ofList_toList]

/-- A token that spells a name is an identifier. -/
theorem kind_of_name {name : String} (h : t.face = (word name).face) (hname : isName name = true) :
    t.kind = .identifier := by
  have hkind : t.kind = wordKind name.toList := congrArg Prod.fst h
  have hother : ¬ name ∈ Token.keywords := by
    unfold isName at hname
    exact of_decide_eq_true (Bool.and_eq_true_iff.1 hname).2
  rw [hkind, wordKind, String.ofList_toList, if_neg hother]

/-- A token that spells a keyword is that keyword. -/
theorem isKeyword_of_word {name : String} (h : t.face = (word name).face)
    (hname : name ∈ Token.keywords) : t.isKeyword name = true := by
  have hkind : t.kind = wordKind name.toList := congrArg Prod.fst h
  rw [wordKind, String.ofList_toList, if_pos hname] at hkind
  simp [Token.isKeyword, hkind, text_of_word h]

/-- A token that spells an operator is that operator. -/
theorem isOperator_of_operator {symbol : String} (h : t.face = (operator symbol).face) :
    t.IsOperator symbol := by
  refine ⟨congrArg Prod.fst h, ?_⟩
  have htext : t.text = String.ofList symbol.toList := congrArg Prod.snd h
  rw [htext, String.ofList_toList]

end

/-! ## Expressions -/

/-- A note without a type is bare up to its span. -/
theorem Note.spanless_of_type {n : Note} (h : n.type = none) : n.spanless = .bare := by
  unfold Note.spanless
  rw [h]
  rfl

/-- What stands in parentheses where it has to is derived at the level that is wanted. -/
theorem derives_enclosed {wanted own : Level} {xs : List Lexeme} {e : Expr}
    (h : ∀ us, Spell us xs → DerivesExpr own us e) {ts : List Token}
    (hts : Spell ts (enclosed wanted own xs)) : DerivesExpr wanted ts e := by
  unfold enclosed at hts
  split at hts
  · obtain ⟨opening, us, closing, rfl, hopening, hus, hclosing⟩ := spell_parens hts
    have hinner : DerivesExpr .assignment us e := (h us hus).weaken (Nat.zero_le _)
    exact (DerivesExpr.parens hopening hinner hclosing).weaken wanted.rank_le_five
  · next hle => exact (h ts hts).weaken (Nat.not_lt.1 hle)

/-- The token that spells a literal derives it. -/
theorem Literal.derives {value : Literal} (h : value.Writable) {t : Token}
    (ht : t.face = value.lexeme.face) : DerivesExpr .primary [t] (.literal .bare value) := by
  cases value with
  | bool b =>
      cases b with
      | true => exact .truth (isKeyword_of_word ht (by decide))
      | false => exact .falsity (isKeyword_of_word ht (by decide))
  | int i =>
      have htext : t.text = String.ofList (Nat.toDigits 10 i.toNatClampNeg) :=
        congrArg Prod.snd ht
      have hvalue : Int32.ofNat (decimalValue t.text.toList) = i := by
        rw [htext, String.toList_ofList, decimalValue_toDigits]
        exact i.ofNat_toNatClampNeg h
      have hnumber := DerivesExpr.number (congrArg Prod.fst ht : t.kind = .number)
      rw [hvalue] at hnumber
      exact hnumber
  | string s =>
      have htext : t.text = s := by
        have htext : t.text = String.ofList s.toList := congrArg Prod.snd ht
        rw [htext, String.ofList_toList]
      have hstring := DerivesExpr.string (congrArg Prod.fst ht : t.kind = .string)
      rw [htext] at hstring
      exact hstring

mutual

/-- **What an expression is written as is derived as this expression**, at the level that
was wanted. -/
theorem Expr.derives_phrase (wanted : Level) :
    ∀ (e : Expr), e.Writable → ∀ ts, Spell ts (e.phrase wanted) →
      DerivesExpr wanted ts e.spanless
  | .literal n value, ⟨hn, hvalue⟩ => by
      intro ts hts
      obtain ⟨t, rfl, ht⟩ := spell_singleton.1 hts
      rw [Expr.spanless, Note.spanless_of_type hn]
      exact (Literal.derives hvalue ht).weaken wanted.rank_le_five
  | .var n name, ⟨hn, hname⟩ => by
      intro ts hts
      obtain ⟨t, rfl, ht⟩ := spell_singleton.1 hts
      have hvar := DerivesExpr.var (kind_of_name ht hname)
      rw [text_of_word ht] at hvar
      rw [Expr.spanless, Note.spanless_of_type hn]
      exact hvar.weaken wanted.rank_le_five
  | .assign n left right, ⟨hn, hleft, hright⟩ => by
      intro ts hts
      rw [Expr.spanless, Note.spanless_of_type hn]
      refine derives_enclosed (fun us hus => ?_) hts
      obtain ⟨ls, _, rfl, hls, hus⟩ := spell_append.1 hus
      obtain ⟨t, rs, rfl, ht, hrs⟩ := spell_cons.1 hus
      exact .assign (left.derives_phrase _ hleft ls hls) (congrArg Prod.fst ht)
        (right.derives_phrase _ hright rs hrs)
  | .call n name args, ⟨hn, hname, hargs⟩ => by
      intro ts hts
      obtain ⟨t, _, rfl, ht, hts⟩ := spell_cons.1 hts
      obtain ⟨opening, us, closing, rfl, hopening, hus, hclosing⟩ := spell_parens hts
      have hkind := kind_of_name ht hname
      rw [Expr.spanless, Note.spanless_of_type hn, ← text_of_word ht]
      by_cases hempty : args = []
      · subst hempty
        obtain rfl := spell_nil.1 hus
        exact (DerivesExpr.callNone hkind hopening hclosing).weaken wanted.rank_le_five
      · have harguments := derives_arguments args hargs hempty us hus
        exact (DerivesExpr.call hkind hopening harguments hclosing).weaken wanted.rank_le_five
  | .binary n op left right, ⟨hn, hleft, hright⟩ => by
      intro ts hts
      rw [Expr.spanless, Note.spanless_of_type hn]
      refine derives_enclosed (fun us hus => ?_) hts
      obtain ⟨ls, _, rfl, hls, hus⟩ := spell_append.1 hus
      obtain ⟨t, rs, rfl, ht, hrs⟩ := spell_cons.1 hus
      exact .binary (left.derives_phrase _ hleft ls hls) (isOperator_of_operator ht)
        (right.derives_phrase _ hright rs hrs)
  | .unary n op operand, ⟨hn, hoperand⟩ => by
      intro ts hts
      rw [Expr.spanless, Note.spanless_of_type hn]
      refine derives_enclosed (fun us hus => ?_) hts
      obtain ⟨t, rs, rfl, ht, hrs⟩ := spell_cons.1 hus
      exact .unary (isOperator_of_operator ht) (operand.derives_phrase _ hoperand rs hrs)

/-- The same for the arguments of a call. -/
theorem derives_arguments :
    ∀ es : List Expr, ArgumentsWritable es → es ≠ [] →
      ∀ ts, Spell ts (commas (argumentPhrases es)) → DerivesArguments ts (spanlessArguments es)
  | [], _ => fun hne => (hne rfl).elim
  | [e], ⟨he, _⟩ => by
      intro _ ts hts
      exact .one (e.derives_phrase _ he ts hts)
  | e :: f :: es, ⟨he, hes⟩ => by
      intro _ ts hts
      obtain ⟨us, _, rfl, hus, hts⟩ := spell_append.1 hts
      obtain ⟨comma, vs, rfl, hcomma, hvs⟩ := spell_cons.1 hts
      exact .more (e.derives_phrase _ he us hus) (congrArg Prod.fst hcomma)
        (derives_arguments (f :: es) hes nofun vs hvs)

end

/-! ## Statements -/

/-- The token that spells a type derives it. -/
theorem Ty.derives {type : Ty} (h : type.Writable) {t : Token}
    (ht : t.face = (word type.name).face) : DerivesType [t] type := by
  obtain ⟨name, isReference⟩ := type
  obtain ⟨hname, hplain⟩ := h
  cases hplain
  have htype := DerivesType.name (kind_of_name ht hname)
  rw [text_of_word ht] at htype
  exact htype

/-- The tokens that spell a variable derive it. -/
theorem Var.derives {v : Var} (h : v.Writable) {ts : List Token} (hts : Spell ts v.lexemes) :
    DerivesVar ts v := by
  obtain ⟨hname, htype⟩ := h
  obtain ⟨name, _, rfl, hnametoken, hts⟩ := spell_cons.1 hts
  obtain ⟨colon, _, rfl, hcolon, hts⟩ := spell_cons.1 hts
  obtain ⟨t, rfl, ht⟩ := spell_singleton.1 hts
  have hvar := DerivesVar.typed (kind_of_name hnametoken hname) (congrArg Prod.fst hcolon)
    (Ty.derives htype ht)
  rw [text_of_word hnametoken] at hvar
  exact hvar

/-- The tokens that spell a condition derive it, up to spans. -/
theorem Expr.derives_condition {e : Expr} (h : e.Writable) {ts : List Token}
    (hts : Spell ts e.condition) : DerivesCondition ts e.spanless := by
  obtain ⟨opening, us, closing, rfl, hopening, hus, hclosing⟩ := spell_parens hts
  exact .parens hopening (e.derives_phrase _ h us hus) hclosing

/-- What is written as a value and a semicolon is a statement. -/
theorem Expr.derives_value {e : Expr} (h : e.Writable) {ts : List Token}
    (hts : Spell ts (e.phrase .assignment ++ [semicolon])) :
    DerivesStmt ts (.expression .nowhere e.spanless) := by
  obtain ⟨us, _, rfl, hus, hts⟩ := spell_append.1 hts
  obtain ⟨t, rfl, ht⟩ := spell_singleton.1 hts
  exact .expression (e.derives_phrase _ h us hus) (congrArg Prod.fst ht)

/-- The tokens that spell an expression and a semicolon derive the statement it is. -/
theorem Expr.derives_statement {e : Expr} (h : e.StatementWritable) {ts : List Token}
    (hts : Spell ts (e.phrase .assignment ++ [semicolon])) :
    DerivesStmt ts (.expression .nowhere e.spanless) := by
  cases e with
  | declare n v =>
      obtain ⟨hn, hv⟩ : n.type = none ∧ v.Writable := h.resolve_right id
      obtain ⟨t, _, rfl, ht, hts⟩ := spell_cons.1 hts
      obtain ⟨us, _, rfl, hus, hts⟩ := spell_append.1 hts
      obtain ⟨semicolon, rfl, hsemicolon⟩ := spell_singleton.1 hts
      rw [Expr.spanless, Note.spanless_of_type hn]
      exact .declare (isKeyword_of_word ht (by decide)) (Var.derives hv hus)
        (congrArg Prod.fst hsemicolon)
  | assign n left right =>
      obtain ⟨hn, hleft, hright⟩ := h
      rcases hleft with hleft | hleft
      · cases left with
        | declare m v =>
            obtain ⟨hm, hv⟩ := hleft
            obtain ⟨ws, _, rfl, hws, hts⟩ := spell_append.1 hts
            obtain ⟨semicolon, rfl, hsemicolon⟩ := spell_singleton.1 hts
            obtain ⟨t, _, rfl, ht, hws⟩ := spell_cons.1 hws
            obtain ⟨us, _, rfl, hus, hws⟩ := spell_append.1 hws
            obtain ⟨sign, vs, rfl, hsign, hvs⟩ := spell_cons.1 hws
            have hstatement := DerivesStmt.declareValue (isKeyword_of_word ht (by decide))
              (Var.derives hv hus) (congrArg Prod.fst hsign) (right.derives_phrase _ hright vs hvs)
              (congrArg Prod.fst hsemicolon)
            rw [Expr.spanless, Expr.spanless, Note.spanless_of_type hn, Note.spanless_of_type hm]
            simpa using hstatement
        | _ => exact hleft.elim
      · exact Expr.derives_value (e := .assign n left right) ⟨hn, hleft, hright⟩ hts
  | _ => exact Expr.derives_value (h.resolve_left id) hts

/-- One statement derived as a list is derived by itself. -/
theorem DerivesStmts.singleton {ts : List Token} {s : Stmt} (h : DerivesStmts ts [s]) :
    DerivesStmt ts s := by
  cases h with
  | cons first others =>
      cases others
      rw [List.append_nil]
      exact first

/-- A conditional alone is derived without braces behind `else`. -/
theorem derives_lone {ts : List Token} {body : List Stmt}
    (h : DerivesStmts ts (spanlessBody body)) (hlone : isLoneConditional body = true) :
    DerivesElse ts (.block .nowhere (spanlessBody body)) := by
  unfold isLoneConditional at hlone
  split at hlone
  · cases h.singleton with
    | branch branches => exact .nested branches
  · cases h.singleton with
    | branch branches => exact .nested branches
  · cases hlone

/-- What spells statements in braces derives the block of them. -/
theorem derives_braces {ts : List Token} {body : List Stmt}
    (h : ∀ us, Spell us (bodyLexemes body) → DerivesStmts us (spanlessBody body))
    (hts : Spell ts (braces (bodyLexemes body))) : DerivesBlock ts (spanlessBody body) := by
  obtain ⟨opening, us, closing, rfl, hopening, hus, hclosing⟩ := spell_braces hts
  exact .braces hopening (h us hus) hclosing

mutual

/-- **What a statement is written as is derived as this statement.** -/
theorem Stmt.derives :
    ∀ s : Stmt, s.Writable → ∀ ts, Spell ts s.lexemes → DerivesStmt ts s.spanless
  | .expression _ e, h => fun ts hts => Expr.derives_statement h hts
  | .ret _ none, _ => by
      intro ts hts
      obtain ⟨t, _, rfl, ht, hts⟩ := spell_cons.1 hts
      obtain ⟨semicolon, rfl, hsemicolon⟩ := spell_singleton.1 hts
      exact .ret (isKeyword_of_word ht (by decide)) (congrArg Prod.fst hsemicolon)
  | .ret _ (some e), h => by
      intro ts hts
      obtain ⟨t, _, rfl, ht, hts⟩ := spell_cons.1 hts
      obtain ⟨us, _, rfl, hus, hts⟩ := spell_append.1 hts
      obtain ⟨semicolon, rfl, hsemicolon⟩ := spell_singleton.1 hts
      exact .retValue (isKeyword_of_word ht (by decide)) (e.derives_phrase _ h us hus)
        (congrArg Prod.fst hsemicolon)
  | .ifThen _ condition body, ⟨hcondition, hbody⟩ => by
      intro ts hts
      obtain ⟨t, _, rfl, ht, hts⟩ := spell_cons.1 hts
      obtain ⟨cs, bs, rfl, hcs, hbs⟩ := spell_append.1 hts
      exact .branch (.ifThen (isKeyword_of_word ht (by decide))
        (Expr.derives_condition hcondition hcs) (derives_braces (derives_body body hbody) hbs))
  | .ifElse _ condition body otherwise, ⟨hcondition, hbody, hotherwise⟩ => by
      intro ts hts
      obtain ⟨t, _, rfl, ht, hts⟩ := spell_cons.1 hts
      obtain ⟨cs, _, rfl, hcs, hts⟩ := spell_append.1 hts
      obtain ⟨bs, _, rfl, hbs, hts⟩ := spell_append.1 hts
      obtain ⟨u, os, rfl, hu, hos⟩ := spell_cons.1 hts
      exact .branch (.ifElse (isKeyword_of_word ht (by decide))
        (Expr.derives_condition hcondition hcs) (derives_braces (derives_body body hbody) hbs)
        (isKeyword_of_word hu (by decide)) (otherwise.derives_branch hotherwise os hos))
  | .loop _ condition body, ⟨hcondition, hbody⟩ => by
      intro ts hts
      obtain ⟨t, _, rfl, ht, hts⟩ := spell_cons.1 hts
      obtain ⟨cs, bs, rfl, hcs, hbs⟩ := spell_append.1 hts
      exact .loop (isKeyword_of_word ht (by decide)) (Expr.derives_condition hcondition hcs)
        (derives_braces (derives_body body hbody) hbs)

/-- What spells an alternative derives it behind `else`. -/
theorem Stmt.derives_branch :
    ∀ s : Stmt, s.BranchWritable → ∀ ts, Spell ts s.lexemes → DerivesElse ts s.spanless
  | .block _ body, h => by
      intro ts hts
      rw [Stmt.lexemes] at hts
      split at hts
      · next hlone => exact derives_lone (derives_body body h ts hts) hlone
      · exact .block (derives_braces (derives_body body h) hts)

/-- What spells statements derives them, up to spans. -/
theorem derives_body :
    ∀ ss : List Stmt, BodyWritable ss → ∀ ts, Spell ts (bodyLexemes ss) →
      DerivesStmts ts (spanlessBody ss)
  | [], _ => by
      intro ts hts
      obtain rfl := spell_nil.1 hts
      exact .nil
  | s :: ss, ⟨hs, hss⟩ => by
      intro ts hts
      obtain ⟨us, vs, rfl, hus, hvs⟩ := spell_append.1 hts
      exact .cons (s.derives hs us hus) (derives_body ss hss vs hvs)

end

/-! ## Functions -/

/-- What the definition of the function says. -/
def Function.definition (f : Function) : Definition :=
  ⟨f.builtin, f.result, f.name, f.arguments,
    if f.builtin then none else some (spanlessBody f.body)⟩

/-- The definition of a function that can be written is of the function itself, up to spans. -/
theorem Function.function_definition {f : Function} (h : f.Writable) :
    f.definition.function = f.spanless := by
  obtain ⟨name, result, arguments, locals, builtin, span, body⟩ := f
  have hlocals : locals = [] := h.locals
  cases builtin with
  | true =>
      have hbody : body = [] := h.builtin rfl
      rw [hlocals, hbody]
      rfl
  | false =>
      rw [hlocals]
      rfl

/-- What spells parameters derives their list. -/
theorem derives_parameters {vs : List Var} (h : ∀ v ∈ vs, v.Writable) {ts : List Token}
    (hts : Spell ts (commas (vs.map Var.lexemes))) : DerivesParameterList ts vs := by
  induction vs generalizing ts with
  | nil =>
      obtain rfl := spell_nil.1 hts
      exact .none
  | cons v vs ih =>
      obtain ⟨hv, hvs⟩ := List.forall_mem_cons.1 h
      cases vs with
      | nil => exact .some (.one (Var.derives hv hts))
      | cons w vs =>
          obtain ⟨us, _, rfl, hus, hts⟩ := spell_append.1 hts
          obtain ⟨comma, ws, rfl, hcomma, hws⟩ := spell_cons.1 hts
          cases ih hvs hws with
          | some others =>
              exact .some (.more (Var.derives hv hus) (congrArg Prod.fst hcomma) others)

/-- What spells the block or the semicolon of a function derives it. -/
theorem Function.derives_ending {f : Function} (h : f.Writable) {ts : List Token}
    (hts : Spell ts f.ending) : DerivesBody ts f.definition.body := by
  unfold Function.ending at hts
  unfold Function.definition
  cases hbuiltin : f.builtin with
  | true =>
      rw [hbuiltin] at hts
      obtain ⟨semicolon, rfl, hsemicolon⟩ := spell_singleton.1 hts
      exact .semicolon (congrArg Prod.fst hsemicolon)
  | false =>
      rw [hbuiltin] at hts
      exact .block (derives_braces (derives_body f.body h.body) hts)

/-- **What a function is written as is derived as its definition.** -/
theorem Function.derives {f : Function} (h : f.Writable) {ts : List Token}
    (hts : Spell ts f.lexemes) : DerivesFunction ts f.definition := by
  obtain ⟨ms, _, rfl, hms, hts⟩ := spell_append.1 hts
  obtain ⟨type, _, rfl, htype, hts⟩ := spell_cons.1 hts
  obtain ⟨name, _, rfl, hname, hts⟩ := spell_cons.1 hts
  obtain ⟨_, bs, rfl, hts, hbs⟩ := spell_append.1 hts
  obtain ⟨opening, ps, closing, rfl, hopening, hps, hclosing⟩ := spell_parens hts
  have hmark : DerivesMark ms f.builtin := by
    cases hbuiltin : f.builtin with
    | true =>
        rw [hbuiltin] at hms
        obtain ⟨t, rfl, ht⟩ := spell_singleton.1 hms
        exact .present (isKeyword_of_word ht (by decide))
    | false =>
        rw [hbuiltin] at hms
        obtain rfl := spell_nil.1 hms
        exact .absent
  have hfunction := DerivesFunction.parts hmark (Ty.derives h.result htype)
    (kind_of_name hname h.name) hopening (derives_parameters h.arguments hps) hclosing
    (Function.derives_ending h hbs)
  rw [text_of_word hname] at hfunction
  rw [List.cons_append, List.append_assoc, List.singleton_append]
  exact hfunction

/-- **What a program is written as is derived as its definitions.** -/
theorem derives_functions {fs : List Function} (h : ∀ f ∈ fs, f.Writable) {ts : List Token}
    (hts : Spell ts (fs.flatMap Function.lexemes)) :
    DerivesProgram ts (fs.map Function.definition) := by
  induction fs generalizing ts with
  | nil =>
      obtain rfl := spell_nil.1 hts
      exact .nil
  | cons f fs ih =>
      obtain ⟨hf, hfs⟩ := List.forall_mem_cons.1 h
      rw [List.flatMap_cons] at hts
      obtain ⟨us, vs, rfl, hus, hvs⟩ := spell_append.1 hts
      exact .cons (Function.derives hf hus) (ih hfs hvs)

end Slate
