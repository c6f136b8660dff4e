import Slate.Proofs.Grammar.Reads

/-!
# What the readers of statements and functions read

The equivalences of `Reads` for declarations, statements and function
definitions.  A statement is decided by its first token, so there is one
equivalence for every keyword, and one for a statement that starts with none of
them.
-/

namespace Slate

/-- A token is at most one keyword. -/
theorem isKeyword_eq_false {t : Token} {word other : String} (h : t.isKeyword word = true)
    (hne : word ≠ other) : t.isKeyword other = false := by
  simp only [Token.isKeyword, Bool.and_eq_true, decide_eq_true_eq] at h
  simp [Token.isKeyword, h.1, h.2, hne]

/-- A keyword is of the kind of keywords. -/
theorem kind_of_isKeyword {t : Token} {word : String} (h : t.isKeyword word = true) :
    t.kind = .keyword := by
  simp only [Token.isKeyword, Bool.and_eq_true, decide_eq_true_eq] at h
  exact h.1

/-! ## Declarations -/

/-- A type is read from a name with no bracket behind it. -/
theorem reads_type {ts rest : List Token} {type : Ty} {span : Span} :
    Reads (readType ts) (type, span) rest ↔
      ∃ name, ts = name :: rest ∧ name.kind = .identifier ∧ startsWith .leftBracket rest = false ∧
        type = .named name.text ∧ span = name.span := by
  simp only [readType, reads_bind, reads_kind]
  constructor
  · intro h
    obtain ⟨name, middle, _, ⟨rfl, hk⟩, h⟩ := h
    cases middle with
    | nil =>
        simp only [reads_pure, Prod.mk.injEq] at h
        obtain ⟨⟨rfl, rfl⟩, rfl⟩ := h
        exact ⟨name, rfl, hk, rfl, rfl, rfl⟩
    | cons t middle =>
        by_cases ht : t.kind = .leftBracket
        · simp only [if_pos ht] at h
          exact (reads_error h).elim
        · simp only [if_neg ht, reads_pure, Prod.mk.injEq] at h
          obtain ⟨⟨rfl, rfl⟩, rfl⟩ := h
          exact ⟨name, rfl, hk, by simp [startsWith_cons, ht], rfl, rfl⟩
  · intro h
    obtain ⟨name, rfl, hk, hb, rfl, rfl⟩ := h
    refine ⟨name, rest, Nat.lt_succ_self _, ⟨rfl, hk⟩, ?_⟩
    cases rest with
    | nil => exact reads_pure.2 ⟨rfl, rfl⟩
    | cons t middle =>
        have ht : t.kind ≠ .leftBracket := kind_ne_of_startsWith hb
        simp only [if_neg ht]
        exact reads_pure.2 ⟨rfl, rfl⟩

/-- A variable is read from a name, a colon and a type. -/
theorem reads_var {ts rest : List Token} {v : Var} {span : Span} :
    Reads (readVar ts) (v, span) rest ↔
      ∃ name colon middle typeSpan type, ts = name :: colon :: middle ∧ name.kind = .identifier ∧
        colon.kind = .typeIndicator ∧ Reads (readType middle) (type, typeSpan) rest ∧
        v = ⟨name.text, type⟩ ∧ span = name.span.through typeSpan := by
  simp only [readVar, reads_bind, reads_kind, reads_pure]
  constructor
  · intro h
    obtain ⟨name, _, _, ⟨rfl, hk⟩, colon, middle, _, ⟨rfl, hc⟩, ⟨type, typeSpan⟩, _, _, ht, h,
      hr⟩ := h
    cases h
    subst hr
    exact ⟨name, colon, middle, typeSpan, type, rfl, hk, hc, ht, rfl, rfl⟩
  · intro h
    obtain ⟨name, colon, middle, typeSpan, type, rfl, hk, hc, ht, rfl, rfl⟩ := h
    exact ⟨name, _, Nat.lt_succ_self _, ⟨rfl, hk⟩, colon, middle, Nat.lt_succ_self _, ⟨rfl, hc⟩,
      (type, typeSpan), rest, ht.left, ht, rfl, rfl⟩

/-- A condition is read from an expression in parentheses. -/
theorem reads_condition {ts rest : List Token} {e : Expr} :
    Reads (readCondition ts) e rest ↔
      ∃ opening middle closing, ts = opening :: middle ∧ opening.kind = .leftParen ∧
        Reads (readExpression 0 middle) e (closing :: rest) ∧ closing.kind = .rightParen := by
  simp only [readCondition, reads_bind, reads_kind, reads_pure]
  constructor
  · intro h
    obtain ⟨opening, middle, _, ⟨rfl, ho⟩, _, _, _, he, closing, _, _, ⟨rfl, hc⟩, rfl, rfl⟩ := h
    exact ⟨opening, middle, closing, rfl, ho, he, hc⟩
  · intro h
    obtain ⟨opening, middle, closing, rfl, ho, he, hc⟩ := h
    exact ⟨opening, middle, Nat.lt_succ_self _, ⟨rfl, ho⟩, e, _, he.left, he, closing, rest,
      Nat.lt_succ_self _, ⟨rfl, hc⟩, rfl, rfl⟩

/-- The end of a statement is read from a semicolon. -/
theorem reads_end {start span : Span} {ts rest : List Token} :
    Reads (readEnd start ts) span rest ↔
      ∃ semicolon, ts = semicolon :: rest ∧ semicolon.kind = .semicolon ∧
        span = start.through semicolon.span := by
  simp only [readEnd, reads_bind, reads_kind, reads_pure]
  constructor
  · intro h
    obtain ⟨semicolon, _, _, ⟨rfl, hk⟩, rfl, rfl⟩ := h
    exact ⟨semicolon, rfl, hk, rfl⟩
  · intro h
    obtain ⟨semicolon, rfl, hk, rfl⟩ := h
    exact ⟨semicolon, rest, Nat.lt_succ_self _, ⟨rfl, hk⟩, rfl, rfl⟩

/-- In front of a semicolon no value is read. -/
theorem reads_returnValue_of_semicolon {ts rest : List Token} {value : Option Expr}
    (h : startsWith .semicolon ts = true) :
    Reads (readReturnValue ts) value rest ↔ value = none ∧ rest = ts := by
  simp only [readReturnValue, if_pos h, reads_pure]

/-- In front of any other token a value is read. -/
theorem reads_returnValue_of_value {ts rest : List Token} {value : Option Expr}
    (h : startsWith .semicolon ts = false) :
    Reads (readReturnValue ts) value rest ↔
      ∃ e, Reads (readExpression 0 ts) e rest ∧ value = some e := by
  have hne : ¬ startsWith .semicolon ts = true := by
    rw [h]
    exact Bool.false_ne_true
  simp only [readReturnValue, if_neg hne, reads_bind, reads_pure]
  constructor
  · intro hr
    obtain ⟨e, _, _, he, rfl, rfl⟩ := hr
    exact ⟨e, he, rfl⟩
  · intro hr
    obtain ⟨e, he, rfl⟩ := hr
    exact ⟨e, rest, he.left, he, rfl, rfl⟩

/-- A declaration ends there, or goes on with the value that is assigned. -/
theorem reads_declaration {ts rest : List Token} {e : Expr} :
    Reads (readDeclaration ts) e rest ↔
      ∃ v span middle, Reads (readVar ts) (v, span) middle ∧
        ((startsWith .assign middle = false ∧ e = .declare (.unchecked span) v ∧ rest = middle) ∨
          ∃ t after value, middle = t :: after ∧ t.kind = .assign ∧
            Reads (readExpression 0 after) value rest ∧
            e = InfixOp.assign.tree (.declare (.unchecked span) v) value) := by
  rw [readDeclaration, reads_bind]
  constructor
  · intro h
    obtain ⟨⟨v, span⟩, middle, _, hv, h⟩ := h
    refine ⟨v, span, middle, hv, ?_⟩
    cases middle with
    | nil =>
        obtain ⟨rfl, rfl⟩ := reads_pure.1 h
        exact .inl ⟨rfl, rfl, rfl⟩
    | cons t after =>
        by_cases ht : t.kind = .assign
        · simp only [if_pos ht, reads_bind, reads_pure] at h
          obtain ⟨value, _, _, hr, rfl, rfl⟩ := h
          exact .inr ⟨t, after, value, rfl, ht, hr, rfl⟩
        · simp only [if_neg ht, reads_pure] at h
          obtain ⟨rfl, rfl⟩ := h
          exact .inl ⟨by simp [startsWith_cons, ht], rfl, rfl⟩
  · intro h
    obtain ⟨v, span, middle, hv, h⟩ := h
    refine ⟨(v, span), middle, hv.left, hv, ?_⟩
    rcases h with ⟨hs, rfl, rfl⟩ | ⟨t, after, value, rfl, ht, hr, rfl⟩
    · cases rest with
      | nil => exact reads_pure.2 ⟨rfl, rfl⟩
      | cons t after =>
          have ht : t.kind ≠ .assign := kind_ne_of_startsWith hs
          simp only [if_neg ht]
          exact reads_pure.2 ⟨rfl, rfl⟩
    · simp only [if_pos ht, reads_bind, reads_pure]
      exact ⟨value, rest, hr.left, hr, rfl, rfl⟩

/-! ## Statements -/

/-- No statement is read at the end of the tokens. -/
theorem not_reads_statement_nil {s : Stmt} {rest : List Token} :
    ¬ Reads (readStatement []) s rest := by
  rw [readStatement]
  exact reads_error

/-- A return statement is read from its word, its value and its end. -/
theorem reads_statement_of_return {t : Token} {ts rest : List Token} {s : Stmt}
    (h : t.isKeyword "return" = true) :
    Reads (readStatement (t :: ts)) s rest ↔
      ∃ value middle span, Reads (readReturnValue ts) value middle ∧
        Reads (readEnd t.span middle) span rest ∧ s = .ret span value := by
  simp only [readStatement, if_pos h, reads_bind, reads_pure]
  constructor
  · intro hr
    obtain ⟨value, middle, _, hv, span, _, _, he, rfl, rfl⟩ := hr
    exact ⟨value, middle, span, hv, he, rfl⟩
  · intro hr
    obtain ⟨value, middle, span, hv, he, rfl⟩ := hr
    exact ⟨value, middle, hv.left, hv, span, rest, he.left, he, rfl, rfl⟩

/-- A conditional is read behind its word. -/
theorem reads_statement_of_if {t : Token} {ts rest : List Token} {s : Stmt}
    (h : t.isKeyword "if" = true) :
    Reads (readStatement (t :: ts)) s rest ↔ Reads (readIf t.span ts) s rest := by
  have h₁ := isKeyword_eq_false h (show "if" ≠ "return" by decide)
  simp only [readStatement, h₁, Bool.false_eq_true, if_false, if_pos h, reads_bind, reads_pure]
  constructor
  · intro hr
    obtain ⟨_, _, _, hs, rfl, rfl⟩ := hr
    exact hs
  · intro hs
    exact ⟨s, rest, hs.left, hs, rfl, rfl⟩

/-- A loop is read from its word, its condition and its body. -/
theorem reads_statement_of_while {t : Token} {ts rest : List Token} {s : Stmt}
    (h : t.isKeyword "while" = true) :
    Reads (readStatement (t :: ts)) s rest ↔
      ∃ c middle body close, Reads (readCondition ts) c middle ∧
        Reads (readBlock middle) (body, close) rest ∧
        s = .loop (t.span.through close) c body := by
  have h₁ := isKeyword_eq_false h (show "while" ≠ "return" by decide)
  have h₂ := isKeyword_eq_false h (show "while" ≠ "if" by decide)
  simp only [readStatement, h₁, h₂, Bool.false_eq_true, if_false, if_pos h, reads_bind, reads_pure]
  constructor
  · intro hr
    obtain ⟨c, middle, _, hc, ⟨body, close⟩, _, _, hb, rfl, rfl⟩ := hr
    exact ⟨c, middle, body, close, hc, hb, rfl⟩
  · intro hr
    obtain ⟨c, middle, body, close, hc, hb, rfl⟩ := hr
    exact ⟨c, middle, hc.left, hc, (body, close), rest, hb.left, hb, rfl, rfl⟩

/-- A declaration is read from its word, its variable and its end. -/
theorem reads_statement_of_var {t : Token} {ts rest : List Token} {s : Stmt}
    (h : t.isKeyword "var" = true) :
    Reads (readStatement (t :: ts)) s rest ↔
      ∃ e middle span, Reads (readDeclaration ts) e middle ∧
        Reads (readEnd t.span middle) span rest ∧ s = .expression span e := by
  have h₁ := isKeyword_eq_false h (show "var" ≠ "return" by decide)
  have h₂ := isKeyword_eq_false h (show "var" ≠ "if" by decide)
  have h₃ := isKeyword_eq_false h (show "var" ≠ "while" by decide)
  simp only [readStatement, h₁, h₂, h₃, Bool.false_eq_true, if_false, if_pos h, reads_bind,
    reads_pure]
  constructor
  · intro hr
    obtain ⟨e, middle, _, hd, span, _, _, he, rfl, rfl⟩ := hr
    exact ⟨e, middle, span, hd, he, rfl⟩
  · intro hr
    obtain ⟨e, middle, span, hd, he, rfl⟩ := hr
    exact ⟨e, middle, hd.left, hd, span, rest, he.left, he, rfl, rfl⟩

/-- The keywords that decide what kind of statement they start. -/
def statementWords : List String := ["return", "if", "while", "var"]

/-- Where no word begins a statement, an expression and its end are read. -/
theorem reads_statement_of_expression {t : Token} {ts rest : List Token} {s : Stmt}
    (h : ∀ word ∈ statementWords, t.isKeyword word = false) :
    Reads (readStatement (t :: ts)) s rest ↔
      ∃ e middle span, Reads (readExpression 0 (t :: ts)) e middle ∧
        Reads (readEnd t.span middle) span rest ∧ s = .expression span e := by
  have h₁ := h "return" (by decide)
  have h₂ := h "if" (by decide)
  have h₃ := h "while" (by decide)
  have h₄ := h "var" (by decide)
  simp only [readStatement, h₁, h₂, h₃, h₄, Bool.false_eq_true, if_false, reads_bind, reads_pure]
  constructor
  · intro hr
    obtain ⟨e, middle, _, hv, span, _, _, he, rfl, rfl⟩ := hr
    exact ⟨e, middle, span, hv, he, rfl⟩
  · intro hr
    obtain ⟨e, middle, span, hv, he, rfl⟩ := hr
    exact ⟨e, middle, hv.left, hv, span, rest, he.left, he, rfl, rfl⟩

/-- Whether the tokens start with the given keyword. -/
def startsWithWord (word : String) : List Token → Bool
  | [] => false
  | t :: _ => t.isKeyword word

/-- A conditional ends behind its block, or goes on with `else`. -/
theorem reads_if {start : Span} {ts rest : List Token} {s : Stmt} :
    Reads (readIf start ts) s rest ↔
      ∃ c middle body close after, Reads (readCondition ts) c middle ∧
        Reads (readBlock middle) (body, close) after ∧
        ((startsWithWord "else" after = false ∧ s = .ifThen (start.through close) c body ∧
            rest = after) ∨
          ∃ t more other, after = t :: more ∧ t.isKeyword "else" = true ∧
            Reads (readElse t.span more) other rest ∧
            s = .ifElse (start.through other.span) c body other) := by
  rw [readIf]
  simp only [reads_bind]
  constructor
  · intro h
    obtain ⟨c, middle, _, hc, ⟨body, close⟩, after, _, hb, h⟩ := h
    refine ⟨c, middle, body, close, after, hc, hb, ?_⟩
    cases after with
    | nil =>
        obtain ⟨rfl, rfl⟩ := reads_pure.1 h
        exact .inl ⟨rfl, rfl, rfl⟩
    | cons t more =>
        by_cases ht : t.isKeyword "else" = true
        · simp only [if_pos ht, reads_bind, reads_pure] at h
          obtain ⟨other, _, _, ho, rfl, rfl⟩ := h
          exact .inr ⟨t, more, other, rfl, ht, ho, rfl⟩
        · simp only [if_neg ht, reads_pure] at h
          obtain ⟨rfl, rfl⟩ := h
          exact .inl ⟨Bool.eq_false_iff.2 ht, rfl, rfl⟩
  · intro h
    obtain ⟨c, middle, body, close, after, hc, hb, h⟩ := h
    refine ⟨c, middle, hc.left, hc, (body, close), after, hb.left, hb, ?_⟩
    rcases h with ⟨hs, rfl, rfl⟩ | ⟨t, more, other, rfl, ht, ho, rfl⟩
    · cases rest with
      | nil => exact reads_pure.2 ⟨rfl, rfl⟩
      | cons t more =>
          have ht : t.isKeyword "else" = false := hs
          simp only [ht, Bool.false_eq_true, if_false]
          exact reads_pure.2 ⟨rfl, rfl⟩
    · simp only [if_pos ht, reads_bind, reads_pure]
      exact ⟨other, rest, ho.left, ho, rfl, rfl⟩

/-- A conditional behind `else` is read into a block of its own. -/
theorem reads_else_of_if {start : Span} {t : Token} {ts rest : List Token} {s : Stmt}
    (h : t.isKeyword "if" = true) :
    Reads (readElse start (t :: ts)) s rest ↔
      ∃ nested, Reads (readIf t.span ts) nested rest ∧
        s = .block (start.through nested.span) [nested] := by
  simp only [readElse, if_pos h, reads_bind, reads_pure]
  constructor
  · intro hr
    obtain ⟨nested, _, _, hn, rfl, rfl⟩ := hr
    exact ⟨nested, hn, rfl⟩
  · intro hr
    obtain ⟨nested, hn, rfl⟩ := hr
    exact ⟨nested, rest, hn.left, hn, rfl, rfl⟩

/-- Any other alternative is a block. -/
theorem reads_else_of_block {start : Span} {t : Token} {ts rest : List Token} {s : Stmt}
    (h : t.isKeyword "if" = false) :
    Reads (readElse start (t :: ts)) s rest ↔
      ∃ body close, Reads (readBlock (t :: ts)) (body, close) rest ∧
        s = .block (start.through close) body := by
  simp only [readElse, h, Bool.false_eq_true, if_false, reads_bind, reads_pure]
  constructor
  · intro hr
    obtain ⟨⟨body, close⟩, _, _, hb, rfl, rfl⟩ := hr
    exact ⟨body, close, hb, rfl⟩
  · intro hr
    obtain ⟨body, close, hb, rfl⟩ := hr
    exact ⟨(body, close), rest, hb.left, hb, rfl, rfl⟩

/-- A block is read from an opening brace and the statements behind it. -/
theorem reads_block {ts rest : List Token} {r : List Stmt × Span} :
    Reads (readBlock ts) r rest ↔
      ∃ opening middle, ts = opening :: middle ∧ opening.kind = .leftBrace ∧
        Reads (readStatements middle) r rest := by
  rw [readBlock]
  simp only [reads_bind, reads_kind, reads_pure]
  constructor
  · intro h
    obtain ⟨opening, middle, _, ⟨rfl, hk⟩, _, _, _, hs, rfl, rfl⟩ := h
    exact ⟨opening, middle, rfl, hk, hs⟩
  · intro h
    obtain ⟨opening, middle, rfl, hk, hs⟩ := h
    exact ⟨opening, middle, Nat.lt_succ_self _, ⟨rfl, hk⟩, r, rest, hs.left, hs, rfl, rfl⟩

/-- No statements are read at the end of the tokens: a brace must close them. -/
theorem not_reads_statements_nil {r : List Stmt × Span} {rest : List Token} :
    ¬ Reads (readStatements []) r rest := by
  rw [readStatements]
  exact reads_error

/-- At a closing brace no statement is left to read. -/
theorem reads_statements_of_close {t : Token} {ts rest : List Token} {ss : List Stmt} {close : Span}
    (h : t.kind = .rightBrace) :
    Reads (readStatements (t :: ts)) (ss, close) rest ↔ ss = [] ∧ close = t.span ∧ rest = ts := by
  rw [readStatements, if_pos h, reads_pure, Prod.mk.injEq, and_assoc]

/-- At any other token, a statement and the others behind it are read. -/
theorem reads_statements_of_ne {t : Token} {ts rest : List Token} {ss : List Stmt} {close : Span}
    (h : t.kind ≠ .rightBrace) :
    Reads (readStatements (t :: ts)) (ss, close) rest ↔
      ∃ s middle others, Reads (readStatement (t :: ts)) s middle ∧
        Reads (readStatements middle) (others, close) rest ∧ ss = s :: others := by
  rw [readStatements, if_neg h]
  simp only [reads_bind, reads_pure]
  constructor
  · intro hr
    obtain ⟨s, middle, _, hs, ⟨others, close'⟩, _, _, hss, heq, rfl⟩ := hr
    cases heq
    exact ⟨s, middle, others, hs, hss, rfl⟩
  · intro hr
    obtain ⟨s, middle, others, hs, hss, rfl⟩ := hr
    exact ⟨s, middle, hs.left, hs, (others, close), rest, hss.left, hss, rfl, rfl⟩

end Slate
