import Slate.Proofs.Grammar.Prompt
import Slate.Proofs.Grammar.Soundness

/-!
# Expressions are read promptly

Tokens open a phrase when there are tokens that complete them to one (`OpensPhrase`).
Every level of expressions is opened by no tokens at all, so any reader may fail before it
has taken something.  Behind that, each alternative of the grammar says how an opened part
is completed to an opened whole.

The reader of infix operators stands behind a phrase that has been read.  As in the
soundness of the readers, that phrase is of some level, and the operator that comes next
stays below its bound; what is opened is a phrase that starts with it.
-/

namespace Slate

/-- The tokens can be completed to a phrase. -/
def OpensPhrase {β : Type} (Derives : List Token → β → Prop) (us : List Token) : Prop :=
  ∃ more b, Derives (us ++ more) b ∧ NumbersFit (us ++ more)

section

variable {β γ : Type} {Derives : List Token → β → Prop} {Others : List Token → γ → Prop}
  {us : List Token}

/-- A phrase is opened by itself. -/
theorem OpensPhrase.whole {b : β} (h : Derives us b) (hfit : NumbersFit us) :
    OpensPhrase Derives us :=
  ⟨[], b, by rwa [List.append_nil], by rwa [List.append_nil]⟩

/-- What opens a phrase is opened by fewer tokens. -/
theorem OpensPhrase.shorten (vs : List Token) (h : OpensPhrase Derives (us ++ vs)) :
    OpensPhrase Derives us := by
  obtain ⟨more, b, hb, hfit⟩ := h
  rw [List.append_assoc] at hb hfit
  exact ⟨vs ++ more, b, hb, hfit⟩

/-- A part that is opened, inside a whole that goes on behind the part. -/
theorem OpensPhrase.inside (h : OpensPhrase Derives us) (before behind : List Token)
    (hbefore : NumbersFit before) (hbehind : NumbersFit behind)
    (hwhole : ∀ part b, Derives part b → ∃ c, Others (before ++ (part ++ behind)) c) :
    OpensPhrase Others (before ++ us) := by
  obtain ⟨more, b, hb, hfit⟩ := h
  obtain ⟨c, hc⟩ := hwhole _ b hb
  have htokens : before ++ us ++ (more ++ behind) = before ++ (us ++ more ++ behind) := by simp
  refine ⟨more ++ behind, c, htokens ▸ hc, ?_⟩
  rw [htokens]
  exact numbersFit_append.2 ⟨hbefore, numbersFit_append.2 ⟨hfit, hbehind⟩⟩

end

/-- A token that stands nowhere, for completions. -/
def Token.sample (kind : TokenKind) (text : String) : Token := ⟨kind, text, .nowhere⟩

/-! ## How the readers decide -/

/-- An expression is an operand and the infix operators behind it. -/
theorem plain_readExpression (least : Nat) :
    plain (readExpression least) = (do
      let left ← plain readOperand
      plain (readInfixes least left)) := by
  funext ts
  show forget (readExpression least ts) = _
  rw [readExpression]
  refine forget_bind fun left rest _ => ?_
  show _ = forget (readInfixes least left rest)
  dsimp only
  cases readInfixes least left rest <;> rfl

/-- An infix operator that binds strongly enough is taken, with what it binds to the right. -/
theorem plain_readInfixes_of_le {least : Nat} {t : Token} {l : Expr} {op : InfixOp}
    (hop : op.Signs t) (hle : least ≤ op.leftPower) (us : List Token) :
    plain (readInfixes least l) (t :: us) = (do
      let right ← plain (readExpression op.rightPower)
      plain (readInfixes least (op.tree l right)) : Reader Expr) us := by
  show forget (readInfixes least l (t :: us)) = _
  rw [readInfixes, ofToken?_eq_some.2 hop]
  simp only [if_neg (Nat.not_lt.2 hle)]
  refine forget_bind fun right rest _ => ?_
  show _ = forget (readInfixes least (op.tree l right) rest)
  cases readInfixes least (op.tree l right) rest <;> rfl

/-- Any other token ends the operators. -/
theorem plain_readInfixes_of_ends {least : Nat} {l : Expr} {us : List Token}
    (h : EndsInfixes least us) : plain (readInfixes least l) us = .ok (l, us) :=
  forget_eq_ok.2 ((reads_infixes_of_ends h).2 ⟨rfl, rfl⟩)

/-- Whether the operators end is decided by one token. -/
theorem EndsInfixes.of_head {power : Nat} {ts us : List Token} (h : EndsInfixes power ts)
    (hhead : us.head? = ts.head?) : EndsInfixes power us := by
  cases us with
  | nil => trivial
  | cons u us =>
      obtain ⟨more, rfl⟩ := List.head?_eq_some_iff.1 hhead.symm
      exact h

/-- A prefix operator decides for an operation on the expression behind it. -/
theorem plain_readOperand_of_operator {t : Token} {op : UnaryOp} (hop : t.IsOperator op.symbol)
    (us : List Token) :
    plain readOperand (t :: us) = (do
      let operand ← plain (readExpression prefixPower)
      pure (.unary (.unchecked (t.span.through operand.span)) op operand) : Reader Expr) us := by
  show forget (readOperand (t :: us)) = _
  rw [readOperand.eq_def]
  simp only [hop.1, ofSymbol?_eq_some.2 hop.2]
  exact forget_bind fun operand rest _ => rfl

/-- An operator that is no prefix is no operand. -/
theorem plain_readOperand_of_symbol {t : Token} (hkind : t.kind = .operator)
    (hnone : UnaryOp.ofSymbol? t.text = none) (us : List Token) :
    plain readOperand (t :: us) = .error (.unexpected .expression (t :: us)) := by
  show forget (readOperand (t :: us)) = _
  rw [readOperand.eq_def]
  simp only [hkind, hnone]
  rfl

/-- A parenthesis decides for an expression in parentheses. -/
theorem plain_readOperand_of_paren {t : Token} (hkind : t.kind = .leftParen) (us : List Token) :
    plain readOperand (t :: us) = (do
      let e ← plain (readExpression 0)
      let _ ← plain (readKind .rightParen .closeParen)
      pure e : Reader Expr) us := by
  show forget (readOperand (t :: us)) = _
  rw [readOperand.eq_def]
  simp only [hkind]
  refine forget_bind fun e rest _ => ?_
  exact forget_bind fun close rest _ => rfl

/-- A name with a parenthesis behind it decides for a call. -/
theorem plain_readOperand_of_call {t paren : Token} (hkind : t.kind = .identifier)
    (hparen : paren.kind = .leftParen) (us : List Token) :
    plain readOperand (t :: paren :: us) = (do
      let (args, close) ← plain readArguments
      pure (.call (.unchecked (t.span.through close)) t.text args) : Reader Expr) us := by
  show forget (readOperand (t :: paren :: us)) = _
  rw [readOperand.eq_def]
  simp only [hkind, if_pos hparen]
  exact forget_bind fun args rest _ => rfl

/-- Any other token is an operand by itself, if it is one at all. -/
theorem plain_readOperand_of_atom {t : Token} (ho : t.kind ≠ .operator) (hp : t.kind ≠ .leftParen)
    {us : List Token} (hc : t.kind = .identifier → startsWith .leftParen us = false) :
    plain readOperand (t :: us) = (readAtom t).map fun e => (e, us) := by
  show forget (readOperand (t :: us)) = _
  rw [readOperand.eq_def]
  simp only
  split
  · next h => exact (ho h).elim
  · next h => exact (hp h).elim
  · next h =>
    cases us with
    | nil =>
        dsimp only
        cases readAtom t <;> rfl
    | cons paren args =>
        have hparen : paren.kind ≠ .leftParen := kind_ne_of_startsWith (hc h)
        simp only [if_neg hparen]
        cases readAtom t <;> rfl
  · cases readAtom t <;> rfl

/-- A closing parenthesis decides for no arguments. -/
theorem plain_readArguments_of_close {t : Token} (hkind : t.kind = .rightParen) (us : List Token) :
    plain readArguments (t :: us) = .ok (([], t.span), us) :=
  forget_eq_ok.2 ((reads_arguments_of_close hkind).2 ⟨rfl, rfl, rfl⟩)

/-- Any other token decides for at least one argument. -/
theorem plain_readArguments_of_ne {us : List Token} (h : startsWith .rightParen us = false) :
    plain readArguments us = plain readMoreArguments us := by
  show forget (readArguments us) = forget (readMoreArguments us)
  cases us with
  | nil => rw [readArguments]
  | cons t us =>
      have hne : t.kind ≠ .rightParen := kind_ne_of_startsWith h
      rw [readArguments, if_neg hne]

/-- What stands behind an argument: further arguments, or the end of them. -/
def argumentsBehind (e : Expr) : Reader (List Expr × Span) := fun ts =>
  if startsWith .comma ts then
    (do
      let (es, close) ← plain readMoreArguments
      pure (e :: es, close) : Reader (List Expr × Span)) ts.tail
  else
    (do
      let close ← plain (readKind .rightParen .commaOrCloseParen)
      pure ([e], close.span) : Reader (List Expr × Span)) ts

/-- Arguments are an expression and what may stand behind it. -/
theorem plain_readMoreArguments :
    plain readMoreArguments = (do
      let e ← plain (readExpression 0)
      argumentsBehind e) := by
  funext ts
  show forget (readMoreArguments ts) = _
  rw [readMoreArguments]
  refine forget_bind fun e rest left => ?_
  cases rest with
  | nil => rfl
  | cons t rest =>
      unfold argumentsBehind
      by_cases hcomma : t.kind = .comma
      · simp only [startsWith_cons, hcomma, decide_true, if_true]
        exact forget_bind fun es rest _ => rfl
      · simp only [startsWith_cons, hcomma, decide_false, Bool.false_eq_true,
          if_false]
        exact forget_bind fun close rest _ => rfl

/-! ## How phrases are opened -/

/-- What opens a phrase of a stronger level opens one of a weaker level. -/
theorem OpensPhrase.weaken {level weaker : Level} {us : List Token}
    (h : OpensPhrase (DerivesExpr level) us) (hle : weaker.rank ≤ level.rank) :
    OpensPhrase (DerivesExpr weaker) us := by
  obtain ⟨more, e, he, hfit⟩ := h
  exact ⟨more, e, he.weaken hle, hfit⟩

/-- Every level is opened by no tokens. -/
theorem opensExpr_nil (level : Level) : OpensPhrase (DerivesExpr level) [] := by
  have hvar : DerivesExpr .primary [.sample .identifier "x"] _ := .var rfl
  exact ⟨_, _, hvar.weaken level.rank_le_five, by simp [Token.sample]⟩

/-- An operator behind its left operand, with an opened right operand. -/
theorem OpensPhrase.joined {op : InfixOp} {t : Token} {ls us : List Token} {l : Expr}
    (hl : DerivesExpr op.leftLevel ls l) (hfit : NumbersFit ls) (ht : op.Signs t)
    (h : OpensPhrase (DerivesExpr op.rightLevel) us) :
    OpensPhrase (DerivesExpr op.level) (ls ++ t :: us) := by
  have hjoined : ∀ rs r, DerivesExpr op.rightLevel rs r →
      ∃ e, DerivesExpr op.level (ls ++ [t] ++ (rs ++ [])) e := by
    intro rs r hr
    rw [List.append_nil, List.append_assoc, List.singleton_append]
    match op, hl, ht, hr with
    | .assign, hl, ht, hr => exact ⟨_, .assign hl ht hr⟩
    | .binary _, hl, ht, hr => exact ⟨_, .binary hl ht hr⟩
  rw [List.append_cons]
  exact h.inside _ [] (by simp [hfit, ht.kind_ne]) numbersFit_nil hjoined

/-- Behind a prefix operator, what opens an operand opens one. -/
theorem OpensPhrase.unary {op : UnaryOp} {t : Token} {us : List Token}
    (ht : t.IsOperator op.symbol) (h : OpensPhrase (DerivesExpr .unary) us) :
    OpensPhrase (DerivesExpr .unary) (t :: us) :=
  h.inside [t] [] (by simp [ht.1]) numbersFit_nil fun part e he =>
    ⟨_, by simpa using DerivesExpr.unary ht he⟩

/-- Behind a parenthesis, what opens an expression opens an operand. -/
theorem OpensPhrase.parens {t : Token} {us : List Token} (ht : t.kind = .leftParen)
    (h : OpensPhrase (DerivesExpr .assignment) us) :
    OpensPhrase (DerivesExpr .primary) (t :: us) :=
  h.inside [t] [.sample .rightParen ")"] (by simp [ht]) (by simp [Token.sample])
    fun part e he => ⟨e, .parens ht he rfl⟩

/-- Behind a name and a parenthesis, what opens arguments opens an operand. -/
theorem OpensPhrase.call {name opening : Token} {us : List Token} (hk : name.kind = .identifier)
    (ho : opening.kind = .leftParen) (h : OpensPhrase DerivesArguments us) :
    OpensPhrase (DerivesExpr .primary) (name :: opening :: us) :=
  h.inside [name, opening] [.sample .rightParen ")"] (by simp [hk, ho])
    (by simp [Token.sample]) fun part es hes => ⟨_, .call hk ho hes rfl⟩

/-- What opens an expression opens arguments. -/
theorem OpensPhrase.argument {us : List Token} (h : OpensPhrase (DerivesExpr .assignment) us) :
    OpensPhrase DerivesArguments us := by
  obtain ⟨more, e, he, hfit⟩ := h
  exact ⟨more, [e], .one he, hfit⟩

/-- Behind an argument and a comma, what opens arguments opens arguments. -/
theorem OpensPhrase.moreArguments {comma : Token} {ts us : List Token} {e : Expr}
    (he : DerivesExpr .assignment ts e) (hfit : NumbersFit ts) (hcomma : comma.kind = .comma)
    (h : OpensPhrase DerivesArguments us) : OpensPhrase DerivesArguments (ts ++ comma :: us) := by
  rw [List.append_cons]
  exact h.inside _ [] (by simp [hfit, hcomma]) numbersFit_nil fun part es hes =>
    ⟨e :: es, by simpa using DerivesArguments.more he hcomma hes⟩

/-! ## Reading expressions -/

/-- The fault of an operand of one token is at that token. -/
theorem readAtom_at {t : Token} {f : SyntaxFault} (h : readAtom t = .error f) : f.At [t] := by
  unfold readAtom at h
  split at h
  · dsimp only at h
    split at h
    · cases h
    · cases h
      exact ⟨t, List.mem_cons_self, rfl⟩
  · cases h
  · split at h
    · cases h
    · split at h
      · cases h
      · cases h
        exact SyntaxFault.unexpected_at _ _
  · cases h
  · cases h
    exact SyntaxFault.unexpected_at _ _

/-- What has been taken is all that stands before what is left. -/
theorem used_eq {used before rest ts : List Token} (h : ts = used ++ rest)
    (h' : ts = before ++ rest) : used = before :=
  List.append_cancel_right (h.symm.trans h')

mutual

/-- **Expressions are read promptly.** -/
theorem expression_prompt (least : Nat) (ts : List Token) :
    Prompt (OpensPhrase (DerivesExpr (.ofPower least))) (plain (readExpression least)) ts := by
  rw [plain_readExpression]
  refine (operand_prompt ts).bind ?_ ?_
  · exact fun us rest _ hus => hus.weaken (Level.rank_ofPower_le_unary least)
  · intro left used rest hread hts
    have hreads := forget_eq_ok.1 hread
    have hshorter : rest.length < ts.length := hreads.left
    obtain ⟨before, hbefore, hleft, hfit⟩ := operand_derivable hreads
    obtain rfl := used_eq hts hbefore
    exact infixes_prompt hleft hfit (endsInfixes_bound_unary rest)
termination_by 3 * ts.length + 1

/-- Behind a phrase that is read, what is opened is a phrase that starts with it. -/
theorem infixes_prompt {least : Nat} {level : Level} {before ts : List Token} {l : Expr}
    (hl : DerivesExpr level before l.spanless) (hfit : NumbersFit before)
    (hends : EndsInfixes level.bound ts) :
    Prompt (fun us => OpensPhrase (DerivesExpr (.ofPower least)) (before ++ us))
      (plain (readInfixes least l)) ts := by
  by_cases hstop : EndsInfixes least ts
  · refine Prompt.congr (s := pure l) ?_ (.answer l ts)
    exact fun us hus => plain_readInfixes_of_ends (hstop.of_head hus)
  · cases ts with
    | nil => exact absurd trivial hstop
    | cons t ts =>
        obtain ⟨op, hop, hpower⟩ := exists_signs_of_not_ends hstop
        have hleft := hl.weaken (InfixOp.rank_leftLevel_le (hends op hop))
        have hrank := InfixOp.rank_ofPower_le hpower
        refine Prompt.skip (plain_readInfixes_of_le hop hpower) ?_
        refine (expression_prompt op.rightPower ts).bind ?_ ?_
        · intro us rest _ hus
          rw [InfixOp.ofPower_rightPower] at hus
          exact (OpensPhrase.joined hleft hfit hop hus).weaken hrank
        · intro right used rest hread hts
          have hreads := forget_eq_ok.1 hread
          have hshorter : rest.length < ts.length := hreads.left
          obtain ⟨us, hus, hright, hfit', hnext⟩ := expression_derivable hreads
          obtain rfl := used_eq hts hus
          rw [InfixOp.ofPower_rightPower] at hright
          have htree : DerivesExpr op.level (before ++ t :: used) (op.tree l right).spanless :=
            .joined hleft hop hright
          refine (infixes_prompt htree (by simp [hop.kind_ne, hfit, hfit'])
            (by rw [InfixOp.bound_level]; exact hnext)).mono ?_
          intro us _ _ h
          simpa using h
termination_by 3 * ts.length

/-- Operands are read promptly. -/
theorem operand_prompt (ts : List Token) :
    Prompt (OpensPhrase (DerivesExpr .unary)) (plain readOperand) ts := by
  cases ts with
  | nil =>
      refine Prompt.refuse ?_ (SyntaxFault.unexpected_at .expression []) (opensExpr_nil _)
      intro us hus
      rw [List.head?_eq_none_iff.1 hus]
      show forget (readOperand []) = _
      rw [readOperand.eq_def]
      rfl
  | cons t ts =>
      by_cases ho : t.kind = .operator
      · cases hsymbol : UnaryOp.ofSymbol? t.text with
        | none =>
            refine Prompt.refuse ?_ (SyntaxFault.unexpected_at .expression (t :: ts))
              (opensExpr_nil _)
            intro us hus
            obtain ⟨more, rfl⟩ := List.head?_eq_some_iff.1 hus
            exact plain_readOperand_of_symbol ho hsymbol more
        | some op =>
            have hop : t.IsOperator op.symbol := ⟨ho, ofSymbol?_eq_some.1 hsymbol⟩
            refine Prompt.skip (plain_readOperand_of_operator hop) ?_
            refine (expression_prompt prefixPower ts).bind ?_ ?_
            · exact fun us rest _ hus => hus.unary hop
            · exact fun operand used rest _ _ => .answer _ _
      · by_cases hp : t.kind = .leftParen
        · refine Prompt.skip (plain_readOperand_of_paren hp) ?_
          refine (expression_prompt 0 ts).bind ?_ ?_
          · exact fun us rest _ hus => (hus.parens hp).weaken (by decide)
          · intro e used rest hread hts
            obtain ⟨before, hbefore, he, hfit, _⟩ := expression_derivable (forget_eq_ok.1 hread)
            obtain rfl := used_eq hts hbefore
            have hopen : OpensPhrase (DerivesExpr .unary) (t :: used) :=
              ((OpensPhrase.whole he hfit).parens hp).weaken (by decide)
            exact .token (by simpa using hopen) fun close rest _ _ => .answer _ _
        · by_cases hk : t.kind = .identifier
          · exact Prompt.skip (fun us => rfl) (name_prompt hk ts)
          · have hatom : ∀ us, plain readOperand (t :: us) = (readAtom t).map fun e => (e, us) :=
              fun us => plain_readOperand_of_atom ho hp fun h => absurd h hk
            cases hread : readAtom t with
            | ok e =>
                refine Prompt.skip (s := pure e) ?_ (.answer e ts)
                intro us
                rw [hatom us, hread]
                rfl
            | error f =>
                refine Prompt.refuse ?_ ((readAtom_at hread).behind _) (opensExpr_nil _)
                intro us hus
                obtain ⟨more, rfl⟩ := List.head?_eq_some_iff.1 hus
                rw [hatom more, hread]
                rfl
termination_by 3 * ts.length

/-- Behind a name there are the arguments of a call, or nothing more is taken. -/
theorem name_prompt {t : Token} (hk : t.kind = .identifier) (ts : List Token) :
    Prompt (fun us => OpensPhrase (DerivesExpr .unary) (t :: us))
      (fun us => plain readOperand (t :: us)) ts := by
  have hvar : ∀ us, startsWith .leftParen us = false →
      plain readOperand (t :: us) = .ok (.var (.unchecked t.span) t.text, us) := by
    intro us hus
    rw [plain_readOperand_of_atom (by simp [hk]) (by simp [hk]) fun _ => hus]
    simp only [readAtom, hk]
    rfl
  cases ts with
  | nil =>
      refine Prompt.congr (s := pure (.var (.unchecked t.span) t.text)) ?_ (.answer _ _)
      intro us hus
      rw [List.head?_eq_none_iff.1 hus]
      exact hvar [] rfl
  | cons paren ts =>
      by_cases hparen : paren.kind = .leftParen
      · refine Prompt.skip (plain_readOperand_of_call hk hparen) ?_
        refine (arguments_prompt hk hparen ts).bind ?_ ?_
        · exact fun us rest _ hus => hus.weaken (by decide)
        · exact fun args used rest _ _ => .answer _ _
      · refine Prompt.congr (s := pure (.var (.unchecked t.span) t.text)) ?_ (.answer _ _)
        intro us hus
        obtain ⟨more, rfl⟩ := List.head?_eq_some_iff.1 hus
        exact hvar (paren :: more) (by simp [startsWith_cons, hparen])
termination_by 3 * ts.length + 1

/-- Behind a name and an opening parenthesis, what is opened is a call. -/
theorem arguments_prompt {name opening : Token} (hk : name.kind = .identifier)
    (ho : opening.kind = .leftParen) (ts : List Token) :
    Prompt (fun us => OpensPhrase (DerivesExpr .primary) (name :: opening :: us))
      (plain readArguments) ts := by
  cases hclose : startsWith .rightParen ts with
  | true =>
      cases ts with
      | nil => cases hclose
      | cons t ts =>
          have hkind : t.kind = .rightParen := kind_of_startsWith hclose
          refine Prompt.skip (s := pure ([], t.span)) ?_ (.answer _ _)
          exact plain_readArguments_of_close hkind
  | false =>
      refine Prompt.congr (s := plain readMoreArguments) ?_ ?_
      · intro us hus
        exact plain_readArguments_of_ne ((startsWith_of_head _ hus).trans hclose)
      · exact (moreArguments_prompt ts).mono fun us rest _ hus => hus.call hk ho
termination_by 3 * ts.length + 3

/-- Arguments are read promptly. -/
theorem moreArguments_prompt (ts : List Token) :
    Prompt (OpensPhrase DerivesArguments) (plain readMoreArguments) ts := by
  rw [plain_readMoreArguments]
  refine (expression_prompt 0 ts).bind ?_ ?_
  · exact fun us rest _ hus => hus.argument
  · intro e used rest hread hts
    have hreads := forget_eq_ok.1 hread
    have hshorter : rest.length < ts.length := hreads.left
    obtain ⟨before, hbefore, he, hfit, _⟩ := expression_derivable hreads
    obtain rfl := used_eq hts hbefore
    cases hcomma : startsWith .comma rest with
    | true =>
        cases rest with
        | nil => cases hcomma
        | cons t rest =>
            have hkind : t.kind = .comma := kind_of_startsWith hcomma
            refine Prompt.skip (s := do
              let (es, close) ← plain readMoreArguments
              pure (e :: es, close)) ?_ ?_
            · intro us
              simp only [argumentsBehind, startsWith_cons, hkind, decide_true, if_true,
                List.tail_cons]
            · have hmore : rest.length < ts.length := Nat.lt_of_succ_lt hshorter
              refine (moreArguments_prompt rest).bind ?_ ?_
              · exact fun us left _ hus => hus.moreArguments he hfit hkind
              · exact fun es used' left _ _ => .answer _ _
    | false =>
        refine Prompt.congr (s := do
          let close ← plain (readKind .rightParen .commaOrCloseParen)
          pure ([e], close.span)) ?_ ?_
        · intro us hus
          have hno : startsWith .comma us = false := (startsWith_of_head _ hus).trans hcomma
          simp only [argumentsBehind, hno, Bool.false_eq_true, if_false]
        · have hopen := (OpensPhrase.whole he hfit).argument
          exact .token (by simpa using hopen) fun close rest _ _ => .answer _ _
termination_by 3 * ts.length + 2

end

end Slate
