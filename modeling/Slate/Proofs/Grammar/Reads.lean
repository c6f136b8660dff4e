import Slate.Proofs.Grammar.Derivation

/-!
# What a reader reads

A reader answers with a tree, and with the tokens that are left together with a
proof that they are fewer.  The proof matters to the recursion of the readers and
to nothing else.  `Reads r a rest` forgets it: the reading `r` succeeds with the
answer `a` and leaves `rest`.

For every reader there is one equivalence below that says when it succeeds, in
terms of the readers that it calls.  Everything that is proved about reading,
in either direction, goes through these equivalences and unfolds no reader.
-/

namespace Slate

/-- The reading succeeds with an answer and leaves the given tokens. -/
def Reads {α : Type} {p : List Token → Prop}
    (r : Except SyntaxFault (α × { rest : List Token // p rest })) (a : α) (rest : List Token) :
    Prop :=
  ∃ left, r = .ok (a, ⟨rest, left⟩)

section

variable {α β : Type} {p q : List Token → Prop}

/-- What is left satisfies what the type of the reading promises. -/
theorem Reads.left {r : Except SyntaxFault (α × { rest : List Token // p rest })} {a : α}
    {rest : List Token} (h : Reads r a rest) : p rest :=
  h.1

/-- A reading has at most one answer. -/
theorem Reads.unique {r : Except SyntaxFault (α × { rest : List Token // p rest })} {a b : α}
    {rest other : List Token} (h : Reads r a rest) (h' : Reads r b other) :
    a = b ∧ rest = other := by
  obtain ⟨_, hr⟩ := h
  obtain ⟨_, hr'⟩ := h'
  rw [hr] at hr'
  cases hr'
  exact ⟨rfl, rfl⟩

/-- A reader after another one reads on where the first has stopped. -/
theorem reads_bind {x : Except SyntaxFault (α × { rest : List Token // p rest })}
    {f : α × { rest : List Token // p rest } →
      Except SyntaxFault (β × { rest : List Token // q rest })}
    {b : β} {rest : List Token} :
    Reads (x >>= f) b rest ↔
      ∃ a middle, ∃ left : p middle, Reads x a middle ∧ Reads (f (a, ⟨middle, left⟩)) b rest := by
  constructor
  · rintro ⟨h, hb⟩
    obtain ⟨⟨a, middle, left⟩, hx, hf⟩ := bind_eq_ok.1 hb
    exact ⟨a, middle, left, ⟨left, hx⟩, ⟨h, hf⟩⟩
  · rintro ⟨a, middle, left, ⟨_, hx⟩, ⟨h, hf⟩⟩
    exact ⟨h, bind_eq_ok.2 ⟨_, hx, hf⟩⟩

/-- What is known first takes no tokens. -/
theorem reads_bind_value {x : Except SyntaxFault α}
    {f : α → Except SyntaxFault (β × { rest : List Token // q rest })} {b : β}
    {rest : List Token} :
    Reads (x >>= f) b rest ↔ ∃ a, x = .ok a ∧ Reads (f a) b rest := by
  constructor
  · rintro ⟨h, hb⟩
    obtain ⟨a, hx, hf⟩ := bind_eq_ok.1 hb
    exact ⟨a, hx, ⟨h, hf⟩⟩
  · rintro ⟨a, hx, ⟨h, hf⟩⟩
    exact ⟨h, bind_eq_ok.2 ⟨a, hx, hf⟩⟩

/-- An answer takes no tokens. -/
theorem reads_pure {a b : α} {rest : List Token} {left : { rest : List Token // p rest }} :
    Reads (pure (a, left) : Except SyntaxFault (α × { rest : List Token // p rest })) b rest ↔
      b = a ∧ rest = left.val := by
  constructor
  · rintro ⟨_, hb⟩
    cases hb
    exact ⟨rfl, rfl⟩
  · rintro ⟨rfl, rfl⟩
    exact ⟨left.property, rfl⟩

/-- A fault reads nothing. -/
theorem reads_error {a : α} {e : SyntaxFault} {rest : List Token} :
    ¬ Reads (.error e : Except SyntaxFault (α × { rest : List Token // p rest })) a rest := by
  rintro ⟨_, h⟩
  cases h

end

/-! ## Single tokens -/

/-- A token of a kind is read where it stands first. -/
theorem reads_kind {kind : TokenKind} {wanted : Wanted} {ts rest : List Token} {t : Token} :
    Reads (readKind kind wanted ts) t rest ↔ ts = t :: rest ∧ t.kind = kind := by
  cases ts with
  | nil => exact ⟨fun h => (reads_error h).elim, fun h => nomatch h.1⟩
  | cons u us =>
      simp only [readKind]
      by_cases hk : u.kind = kind
      · rw [if_pos hk]
        constructor
        · rintro ⟨_, h⟩
          cases h
          exact ⟨rfl, hk⟩
        · rintro ⟨h, -⟩
          cases h
          exact ⟨_, rfl⟩
      · rw [if_neg hk]
        constructor
        · exact fun h => (reads_error h).elim
        · rintro ⟨h, ht⟩
          cases h
          exact (hk ht).elim

/-- The first token tells what a list starts with. -/
theorem startsWith_cons {kind : TokenKind} {t : Token} {ts : List Token} :
    startsWith kind (t :: ts) = decide (t.kind = kind) := rfl

/-- A list that starts with a kind has a token of that kind in front. -/
theorem kind_of_startsWith {kind : TokenKind} {t : Token} {ts : List Token}
    (h : startsWith kind (t :: ts) = true) : t.kind = kind :=
  of_decide_eq_true h

/-- A list that does not start with a kind has a token of another one in front. -/
theorem kind_ne_of_startsWith {kind : TokenKind} {t : Token} {ts : List Token}
    (h : startsWith kind (t :: ts) = false) : t.kind ≠ kind :=
  of_decide_eq_false h

/-- What an infix operator is written as. -/
def InfixOp.Signs (op : InfixOp) (t : Token) : Prop :=
  match op with
  | assign => t.kind = .assign
  | binary op => t.IsOperator op.symbol

/-- A token is an infix operator exactly if it signs for it. -/
theorem ofToken?_eq_some {t : Token} {op : InfixOp} :
    InfixOp.ofToken? t = some op ↔ op.Signs t := by
  obtain ⟨kind, text, span⟩ := t
  constructor
  · intro h
    simp only [InfixOp.ofToken?] at h
    split at h
    · cases h
      rfl
    · repeat' split at h
      all_goals first | cases h; exact ⟨rfl, by assumption⟩ | cases h
    · cases h
  · intro h
    match op, h with
    | .assign, h =>
        cases h
        rfl
    | .binary op, h =>
        obtain ⟨rfl, rfl⟩ := h
        cases op <;> rfl

/-- A symbol is that of the unary operator it stands for. -/
theorem ofSymbol?_eq_some {symbol : String} {op : UnaryOp} :
    UnaryOp.ofSymbol? symbol = some op ↔ symbol = op.symbol := by
  constructor
  · intro h
    simp only [UnaryOp.ofSymbol?] at h
    repeat' split at h
    all_goals first | cases h; assumption | cases h
  · rintro rfl
    cases op <;> rfl

/-! ## Expressions -/

/-- An expression is its first operand and the operators behind it. -/
theorem reads_expression {least : Nat} {ts rest : List Token} {e : Expr} :
    Reads (readExpression least ts) e rest ↔
      ∃ left middle, Reads (readOperand ts) left middle ∧
        Reads (readInfixes least left middle) e rest := by
  rw [readExpression]
  simp only [reads_bind, reads_pure]
  constructor
  · rintro ⟨left, middle, -, ho, _, _, -, hi, rfl, rfl⟩
    exact ⟨left, middle, ho, hi⟩
  · rintro ⟨left, middle, ho, hi⟩
    exact ⟨left, middle, ho.left, ho, e, rest, hi.left, hi, rfl, rfl⟩

/-- An operator that binds strongly enough goes on with its right operand. -/
theorem reads_infixes_of_le {least : Nat} {t : Token} {ts rest : List Token} {l e : Expr}
    {op : InfixOp} (hop : op.Signs t) (hle : least ≤ op.leftPower) :
    Reads (readInfixes least l (t :: ts)) e rest ↔
      ∃ right middle, Reads (readExpression op.rightPower ts) right middle ∧
        Reads (readInfixes least (op.tree l right) middle) e rest := by
  rw [readInfixes, ofToken?_eq_some.2 hop]
  simp only [if_neg (Nat.not_lt.2 hle), reads_bind, reads_pure]
  constructor
  · rintro ⟨right, middle, -, hr, _, _, -, hi, rfl, rfl⟩
    exact ⟨right, middle, hr, hi⟩
  · rintro ⟨right, middle, hr, hi⟩
    exact ⟨right, middle, hr.left, hr, e, rest, hi.left, hi, rfl, rfl⟩

/-- No infix operator that binds as strongly as `power` stands in front. -/
def EndsInfixes (power : Nat) : List Token → Prop
  | [] => True
  | t :: _ => ∀ op : InfixOp, op.Signs t → op.leftPower < power

/-- Where they do not end, there is one that binds strongly enough. -/
theorem exists_signs_of_not_ends {power : Nat} {t : Token} {ts : List Token}
    (h : ¬ EndsInfixes power (t :: ts)) : ∃ op : InfixOp, op.Signs t ∧ power ≤ op.leftPower := by
  simpa [EndsInfixes] using h

/-- Where the operators end, the operand read so far is the whole. -/
theorem reads_infixes_of_ends {least : Nat} {ts rest : List Token} {l e : Expr}
    (h : EndsInfixes least ts) :
    Reads (readInfixes least l ts) e rest ↔ e = l ∧ rest = ts := by
  cases ts with
  | nil =>
      rw [readInfixes]
      exact reads_pure
  | cons t ts =>
      rw [readInfixes]
      split
      · exact reads_pure
      · next op hop =>
        rw [if_pos (h op (ofToken?_eq_some.1 hop))]
        exact reads_pure

/-- No operand is read at the end of the tokens. -/
theorem not_reads_operand_nil {e : Expr} {rest : List Token} : ¬ Reads (readOperand []) e rest := by
  rw [readOperand.eq_def]
  exact reads_error

/-- Behind a prefix operator stands its operand. -/
theorem reads_operand_of_operator {t : Token} {ts rest : List Token} {e : Expr}
    (hk : t.kind = .operator) :
    Reads (readOperand (t :: ts)) e rest ↔
      ∃ op operand, t.text = UnaryOp.symbol op ∧
        Reads (readExpression prefixPower ts) operand rest ∧
        e = .unary (.unchecked (t.span.through operand.span)) op operand := by
  rw [readOperand.eq_def]
  simp only [hk]
  cases hs : UnaryOp.ofSymbol? t.text with
  | none =>
      constructor
      · intro h
        exact (reads_error h).elim
      · intro h
        obtain ⟨op, _, ht, _⟩ := h
        rw [ofSymbol?_eq_some.2 ht] at hs
        cases hs
  | some op =>
      simp only [reads_bind, reads_pure]
      constructor
      · intro h
        obtain ⟨operand, _, _, hr, he, hrest⟩ := h
        subst hrest
        exact ⟨op, operand, ofSymbol?_eq_some.1 hs, hr, he⟩
      · intro h
        obtain ⟨op', operand, ht, hr, he⟩ := h
        rw [ofSymbol?_eq_some.2 ht] at hs
        cases hs
        exact ⟨operand, rest, hr.left, hr, he, rfl⟩

/-- Behind an opening parenthesis stands an expression and a closing one. -/
theorem reads_operand_of_paren {t : Token} {ts rest : List Token} {e : Expr}
    (hk : t.kind = .leftParen) :
    Reads (readOperand (t :: ts)) e rest ↔
      ∃ closing, Reads (readExpression 0 ts) e (closing :: rest) ∧ closing.kind = .rightParen := by
  rw [readOperand.eq_def]
  simp only [hk, reads_bind, reads_pure, reads_kind]
  constructor
  · intro h
    obtain ⟨_, _, _, hr, closing, _, _, ⟨rfl, hc⟩, rfl, rfl⟩ := h
    exact ⟨closing, hr, hc⟩
  · intro h
    obtain ⟨closing, hr, hc⟩ := h
    exact ⟨e, _, hr.left, hr, closing, rest, Nat.lt_succ_self _, ⟨rfl, hc⟩, rfl, rfl⟩

/-- Behind a name and an opening parenthesis stand the arguments of a call. -/
theorem reads_operand_of_call {t paren : Token} {ts rest : List Token} {e : Expr}
    (hk : t.kind = .identifier) (hp : paren.kind = .leftParen) :
    Reads (readOperand (t :: paren :: ts)) e rest ↔
      ∃ args close, Reads (readArguments ts) (args, close) rest ∧
        e = .call (.unchecked (t.span.through close)) t.text args := by
  rw [readOperand.eq_def]
  simp only [hk, if_pos hp, reads_bind, reads_pure]
  constructor
  · intro h
    obtain ⟨⟨args, close⟩, _, _, hr, he, hrest⟩ := h
    subst hrest
    exact ⟨args, close, hr, he⟩
  · intro h
    obtain ⟨args, close, hr, he⟩ := h
    exact ⟨(args, close), rest, hr.left, hr, he, rfl⟩

/-- Every other operand is a single token. -/
theorem reads_operand_of_atom {t : Token} {ts rest : List Token} {e : Expr}
    (ho : t.kind ≠ .operator) (hp : t.kind ≠ .leftParen)
    (hc : t.kind = .identifier → startsWith .leftParen ts = false) :
    Reads (readOperand (t :: ts)) e rest ↔ readAtom t = .ok e ∧ rest = ts := by
  have hatom : (∃ a, readAtom t = .ok a ∧ e = a ∧ rest = ts) ↔ readAtom t = .ok e ∧ rest = ts := by
    constructor
    · intro h
      obtain ⟨_, ha, rfl, hrest⟩ := h
      exact ⟨ha, hrest⟩
    · intro h
      exact ⟨e, h.1, rfl, h.2⟩
  rw [readOperand.eq_def]
  simp only
  split
  · next h => exact (ho h).elim
  · next h => exact (hp h).elim
  · next h =>
    cases ts with
    | nil =>
        simp only [reads_bind_value, reads_pure]
        exact hatom
    | cons paren args =>
        have hparen : paren.kind ≠ .leftParen := kind_ne_of_startsWith (hc h)
        simp only [if_neg hparen, reads_bind_value, reads_pure]
        exact hatom
  · simp only [reads_bind_value, reads_pure]
    exact hatom

/-! ## Arguments -/

/-- At a closing parenthesis no argument is left to read. -/
theorem reads_arguments_of_close {t : Token} {ts rest : List Token} {es : List Expr} {close : Span}
    (hk : t.kind = .rightParen) :
    Reads (readArguments (t :: ts)) (es, close) rest ↔ es = [] ∧ close = t.span ∧ rest = ts := by
  rw [readArguments, if_pos hk, reads_pure, Prod.mk.injEq, and_assoc]

/-- At any other token the first argument is read. -/
theorem reads_arguments_of_ne {ts rest : List Token} {r : List Expr × Span}
    (hk : startsWith .rightParen ts = false) :
    Reads (readArguments ts) r rest ↔ Reads (readMoreArguments ts) r rest := by
  cases ts with
  | nil => rw [readArguments]
  | cons t ts =>
      have hne : t.kind ≠ .rightParen := kind_ne_of_startsWith hk
      rw [readArguments, if_neg hne]

/-- An argument is followed by a comma and further arguments, or by the
parenthesis that closes them. -/
theorem reads_moreArguments {ts rest : List Token} {es : List Expr} {close : Span} :
    Reads (readMoreArguments ts) (es, close) rest ↔
      ∃ e t middle, Reads (readExpression 0 ts) e (t :: middle) ∧
        ((t.kind = .comma ∧ ∃ others, Reads (readMoreArguments middle) (others, close) rest ∧
            es = e :: others) ∨
          (t.kind = .rightParen ∧ es = [e] ∧ close = t.span ∧ rest = middle)) := by
  rw [readMoreArguments, reads_bind]
  constructor
  · intro h
    obtain ⟨e, middle, hm, he, h⟩ := h
    cases middle with
    | nil => exact (reads_error h).elim
    | cons t middle =>
        refine ⟨e, t, middle, he, ?_⟩
        by_cases ht : t.kind = .comma
        · simp only [if_pos ht, reads_bind, reads_pure] at h
          obtain ⟨⟨others, close'⟩, _, _, hr, heq, hrest⟩ := h
          cases heq
          subst hrest
          exact .inl ⟨ht, others, hr, rfl⟩
        · simp only [if_neg ht, reads_bind, reads_pure, reads_kind] at h
          obtain ⟨t', _, _, ⟨heq, hk⟩, heq', hrest⟩ := h
          cases heq
          cases heq'
          exact .inr ⟨hk, rfl, rfl, hrest⟩
  · intro h
    obtain ⟨e, t, middle, he, h⟩ := h
    refine ⟨e, t :: middle, he.left, he, ?_⟩
    rcases h with ⟨ht, others, hr, rfl⟩ | ⟨ht, rfl, rfl, rfl⟩
    · simp only [if_pos ht, reads_bind, reads_pure]
      exact ⟨(others, close), rest, hr.left, hr, rfl, rfl⟩
    · have hne : t.kind ≠ .comma := by
        rw [ht]
        decide
      simp only [if_neg hne, reads_bind, reads_pure, reads_kind]
      exact ⟨t, rest, Nat.lt_succ_self _, ⟨rfl, ht⟩, rfl, rfl⟩

end Slate
