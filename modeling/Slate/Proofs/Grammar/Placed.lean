import Mathlib.Data.List.NodupEquivFin
import Slate.Grammar.Program
import Slate.Proofs.Tree.Spans

/-!
# Where trees are placed

A tree that was read keeps spans, and these are spans of tokens: each runs from the start of
one token to the stop of the same or a later one (`Span.From`).

Which tokens these are, and how those of the parts of a tree lie to each other, is said by
one relation per kind of tree between tokens and trees.  The parts of a tree are placed among
tokens that follow each other, and that the tokens of the whole have around them.  Tokens
that a tree does not need, as commas and parentheses around an expression, may lie between
(`List.Sublist`).  So a tree that is placed among some tokens is placed among more of them as
well (`PlacedExpr.mono`).
-/

namespace Slate

open scoped List

/-- The span runs from a token of the sequence to the same or a later one. -/
def Span.From (ts : List Token) (s : Span) : Prop :=
  ∃ (i j : Nat) (t u : Token), i ≤ j ∧ ts[i]? = some t ∧ ts[j]? = some u ∧
    s = t.span.through u.span

namespace Span.From

variable {ts us vs : List Token} {s r : Span} {t u : Token}

/-- The span of a token is taken from any tokens with it. -/
theorem token (h : t ∈ ts) : t.span.From ts := by
  obtain ⟨i, hi⟩ := List.mem_iff_getElem?.1 h
  exact ⟨i, i, t, t, Nat.le_refl i, hi, hi, rfl⟩

/-- The tokens may be among others. -/
theorem mono (h : s.From us) (hsub : us <+ ts) : s.From ts := by
  obtain ⟨i, j, t, u, hij, ht, hu, hs⟩ := h
  obtain ⟨place, hplace⟩ := List.sublist_iff_exists_orderEmbedding_getElem?_eq.1 hsub
  exact ⟨place i, place j, t, u, place.monotone hij, hplace i ▸ ht, hplace j ▸ hu, hs⟩

/-- From where one span starts to where a later one stops. -/
theorem through (hs : s.From us) (hr : r.From vs) (hsub : us ++ vs <+ ts) :
    (s.through r).From ts := by
  obtain ⟨i, _, t, _, _, ht, _, rfl⟩ := hs
  obtain ⟨_, j, _, u, _, _, hu, rfl⟩ := hr
  have hi : i < us.length := (List.getElem?_eq_some_iff.1 ht).1
  have hlast : (us ++ vs)[us.length + j]? = some u := by
    rw [List.getElem?_append_right (Nat.le_add_right _ _), Nat.add_sub_cancel_left, hu]
  have hboth : (t.span.through u.span).From (us ++ vs) :=
    ⟨i, us.length + j, t, u, by omega, (List.getElem?_append_left hi).trans ht, hlast, rfl⟩
  exact hboth.mono hsub

/-- From one token to a later one. -/
theorem pair (hsub : [t, u] <+ ts) : (t.span.through u.span).From ts :=
  (token (List.mem_singleton.2 rfl)).through (token (List.mem_singleton.2 rfl)) hsub

end Span.From

/-! ## Placed expressions -/

mutual

/-- The expression is placed among the tokens. -/
inductive PlacedExpr : List Token → Expr → Prop
  | literal {ts : List Token} {t : Token} {value : Literal} (mem : t ∈ ts) :
      PlacedExpr ts (.literal (.unchecked t.span) value)
  | declare {ts : List Token} {first last : Token} {v : Var} (order : [first, last] <+ ts) :
      PlacedExpr ts (.declare (.unchecked (first.span.through last.span)) v)
  | var {ts : List Token} {t : Token} {name : String} (mem : t ∈ ts) :
      PlacedExpr ts (.var (.unchecked t.span) name)
  | assign {ts ls rs : List Token} {left right : Expr} (order : ls ++ rs <+ ts)
      (target : PlacedExpr ls left) (value : PlacedExpr rs right) :
      PlacedExpr ts (.assign (.unchecked (left.span.through right.span)) left right)
  | call {ts as : List Token} {first close : Token} {name : String} {args : List Expr}
      (order : first :: (as ++ [close]) <+ ts) (arguments : PlacedArguments as args) :
      PlacedExpr ts (.call (.unchecked (first.span.through close.span)) name args)
  | binary {ts ls rs : List Token} {op : BinaryOp} {left right : Expr} (order : ls ++ rs <+ ts)
      (first : PlacedExpr ls left) (second : PlacedExpr rs right) :
      PlacedExpr ts (.binary (.unchecked (left.span.through right.span)) op left right)
  | unary {ts os : List Token} {t : Token} {op : UnaryOp} {operand : Expr} (order : t :: os <+ ts)
      (value : PlacedExpr os operand) :
      PlacedExpr ts (.unary (.unchecked (t.span.through operand.span)) op operand)

/-- The arguments are placed among the tokens, one behind the other. -/
inductive PlacedArguments : List Token → List Expr → Prop
  | nil {ts : List Token} : PlacedArguments ts []
  | cons {ts us vs : List Token} {e : Expr} {es : List Expr} (order : us ++ vs <+ ts)
      (argument : PlacedExpr us e) (others : PlacedArguments vs es) :
      PlacedArguments ts (e :: es)

end

/-! ## Placed statements -/

mutual

/-- The statement is placed among the tokens. -/
inductive PlacedStmt : List Token → Stmt → Prop
  | expression {ts es : List Token} {first semicolon : Token} {e : Expr}
      (opens : es.head? = some first) (order : es ++ [semicolon] <+ ts) (value : PlacedExpr es e) :
      PlacedStmt ts (.expression (first.span.through semicolon.span) e)
  | ret {ts : List Token} {t semicolon : Token} (order : [t, semicolon] <+ ts) :
      PlacedStmt ts (.ret (t.span.through semicolon.span) none)
  | retValue {ts es : List Token} {t semicolon : Token} {e : Expr}
      (order : t :: (es ++ [semicolon]) <+ ts) (value : PlacedExpr es e) :
      PlacedStmt ts (.ret (t.span.through semicolon.span) (some e))
  | ifThen {ts cs bs : List Token} {t close : Token} {condition : Expr} {body : List Stmt}
      (order : t :: (cs ++ (bs ++ [close])) <+ ts) (test : PlacedExpr cs condition)
      (branch : PlacedStmts bs body) :
      PlacedStmt ts (.ifThen (t.span.through close.span) condition body)
  | ifElse {ts cs bs os : List Token} {t : Token} {condition : Expr} {body : List Stmt}
      {otherwise : Stmt} (order : t :: (cs ++ (bs ++ os)) <+ ts) (test : PlacedExpr cs condition)
      (branch : PlacedStmts bs body) (other : PlacedStmt os otherwise) :
      PlacedStmt ts (.ifElse (t.span.through otherwise.span) condition body otherwise)
  | loop {ts cs bs : List Token} {t close : Token} {condition : Expr} {body : List Stmt}
      (order : t :: (cs ++ (bs ++ [close])) <+ ts) (test : PlacedExpr cs condition)
      (rounds : PlacedStmts bs body) :
      PlacedStmt ts (.loop (t.span.through close.span) condition body)
  | block {ts bs : List Token} {t close : Token} {body : List Stmt}
      (order : t :: (bs ++ [close]) <+ ts) (inner : PlacedStmts bs body) :
      PlacedStmt ts (.block (t.span.through close.span) body)
  | nested {ts bs : List Token} {t : Token} {s : Stmt} (order : t :: bs <+ ts)
      (inner : PlacedStmt bs s) : PlacedStmt ts (.block (t.span.through s.span) [s])

/-- The statements are placed among the tokens, one behind the other. -/
inductive PlacedStmts : List Token → List Stmt → Prop
  | nil {ts : List Token} : PlacedStmts ts []
  | cons {ts us vs : List Token} {s : Stmt} {ss : List Stmt} (order : us ++ vs <+ ts)
      (first : PlacedStmt us s) (others : PlacedStmts vs ss) : PlacedStmts ts (s :: ss)

end

/-- The function is placed among the tokens: its span runs from its first token through the
one that closes its arguments, and its body is placed behind. -/
def PlacedFunction (ts : List Token) (f : Function) : Prop :=
  ∃ first as close bs, ts = first :: as ∧ first :: close :: bs <+ ts ∧
    f.span = first.span.through close.span ∧ PlacedStmts bs f.body

/-! ## Among more tokens -/

variable {ts us vs : List Token}

/-- An expression placed among some tokens is placed among more. -/
theorem PlacedExpr.mono {e : Expr} (h : PlacedExpr us e) (hsub : us <+ ts) : PlacedExpr ts e := by
  cases h with
  | literal mem => exact .literal (hsub.subset mem)
  | declare order => exact .declare (order.trans hsub)
  | var mem => exact .var (hsub.subset mem)
  | assign order target value => exact .assign (order.trans hsub) target value
  | call order arguments => exact .call (order.trans hsub) arguments
  | binary order first second => exact .binary (order.trans hsub) first second
  | unary order value => exact .unary (order.trans hsub) value

/-- The same for the arguments of a call. -/
theorem PlacedArguments.mono {es : List Expr} (h : PlacedArguments us es) (hsub : us <+ ts) :
    PlacedArguments ts es := by
  cases h with
  | nil => exact .nil
  | cons order argument others => exact .cons (order.trans hsub) argument others

/-- The same for a statement. -/
theorem PlacedStmt.mono {s : Stmt} (h : PlacedStmt us s) (hsub : us <+ ts) : PlacedStmt ts s := by
  cases h with
  | expression opens order value => exact .expression opens (order.trans hsub) value
  | ret order => exact .ret (order.trans hsub)
  | retValue order value => exact .retValue (order.trans hsub) value
  | ifThen order test branch => exact .ifThen (order.trans hsub) test branch
  | ifElse order test branch other => exact .ifElse (order.trans hsub) test branch other
  | loop order test rounds => exact .loop (order.trans hsub) test rounds
  | block order inner => exact .block (order.trans hsub) inner
  | nested order inner => exact .nested (order.trans hsub) inner

/-- The same for a list of statements. -/
theorem PlacedStmts.mono {ss : List Stmt} (h : PlacedStmts us ss) (hsub : us <+ ts) :
    PlacedStmts ts ss := by
  cases h with
  | nil => exact .nil
  | cons order first others => exact .cons (order.trans hsub) first others

/-! ## Spans of placed trees -/

/-- Spans from the tokens of a part are spans from the tokens of the whole. -/
theorem spans_mono {spans : List Span} (h : ∀ s ∈ spans, s.From us) (hsub : us <+ ts) :
    ∀ s ∈ spans, s.From ts :=
  fun s hs => (h s hs).mono hsub

/-- Spans of two parts, the tokens of the second behind those of the first. -/
theorem spans_append {first second : List Span} (hfirst : ∀ s ∈ first, s.From us)
    (hsecond : ∀ s ∈ second, s.From vs) (hsub : us ++ vs <+ ts) :
    ∀ s ∈ first ++ second, s.From ts :=
  List.forall_mem_append.2
    ⟨spans_mono hfirst ((List.sublist_append_left us vs).trans hsub),
      spans_mono hsecond ((List.sublist_append_right us vs).trans hsub)⟩

/-- A whole with its span. -/
theorem spans_cons {span : Span} {spans : List Span} (hspan : span.From ts)
    (hspans : ∀ s ∈ spans, s.From us) (hsub : us <+ ts) : ∀ s ∈ span :: spans, s.From ts :=
  List.forall_mem_cons.2 ⟨hspan, spans_mono hspans hsub⟩

section

variable {first last : Token} {ws : List Token}

/-- Between two tokens. -/
theorem sublist_between (h : first :: (us ++ [last]) <+ ts) : us <+ ts :=
  ((List.sublist_append_left us [last]).trans (List.sublist_cons_self _ _)).trans h

/-- The tokens around others. -/
theorem sublist_around (h : first :: (us ++ [last]) <+ ts) : [first, last] <+ ts :=
  ((List.sublist_append_right us [last]).cons_cons first).trans h

/-- A first token and the last of three parts behind it. -/
theorem sublist_ends (h : first :: (us ++ (vs ++ ws)) <+ ts) : first :: ws <+ ts :=
  (((List.sublist_append_right vs ws).trans (List.sublist_append_right us _)).cons_cons first).trans
    h

end

mutual

/-- **Spans of placed expressions are spans of tokens.** -/
theorem PlacedExpr.spans_from {ts : List Token} {e : Expr} :
    PlacedExpr ts e → ∀ s ∈ e.spans, s.From ts
  | .literal mem => List.forall_mem_singleton.2 (.token mem)
  | .declare order => List.forall_mem_singleton.2 (.pair order)
  | .var mem => List.forall_mem_singleton.2 (.token mem)
  | .assign order target value => by
      have hleft := target.spans_from
      have hright := value.spans_from
      have hspan := (hleft _ (Expr.span_mem_spans _)).through
        (hright _ (Expr.span_mem_spans _)) order
      exact spans_cons hspan (spans_append hleft hright order) (List.Sublist.refl _)
  | .call order arguments =>
      spans_cons (.pair (sublist_around order)) arguments.spans_from (sublist_between order)
  | .binary order first second => by
      have hleft := first.spans_from
      have hright := second.spans_from
      have hspan := (hleft _ (Expr.span_mem_spans _)).through
        (hright _ (Expr.span_mem_spans _)) order
      exact spans_cons hspan (spans_append hleft hright order) (List.Sublist.refl _)
  | .unary order value => by
      have hvalue := value.spans_from
      have hspan := (Span.From.token (List.mem_singleton.2 rfl)).through
        (hvalue _ (Expr.span_mem_spans _)) order
      exact spans_cons hspan hvalue ((List.sublist_cons_self _ _).trans order)

/-- The same for the arguments of a call. -/
theorem PlacedArguments.spans_from {ts : List Token} {es : List Expr} :
    PlacedArguments ts es → ∀ s ∈ argumentSpans es, s.From ts
  | .nil => List.forall_mem_nil _
  | .cons order argument others => spans_append argument.spans_from others.spans_from order

end

mutual

/-- **Spans of placed statements are spans of tokens.** -/
theorem PlacedStmt.spans_from {ts : List Token} {s : Stmt} :
    PlacedStmt ts s → ∀ x ∈ s.spans, x.From ts
  | .expression opens order value => by
      have hfirst := Span.From.token (List.mem_of_head? opens)
      have hspan := hfirst.through (Span.From.token (List.mem_singleton.2 rfl)) order
      exact spans_cons hspan value.spans_from ((List.sublist_append_left _ _).trans order)
  | .ret order => List.forall_mem_singleton.2 (.pair order)
  | .retValue order value =>
      spans_cons (.pair (sublist_around order)) value.spans_from (sublist_between order)
  | .ifThen order test branch => by
      rw [← List.append_assoc] at order
      have hparts := spans_append test.spans_from branch.spans_from (List.Sublist.refl _)
      exact spans_cons (.pair (sublist_around order)) hparts (sublist_between order)
  | .ifElse order test branch other => by
      have hother := other.spans_from
      have hrest := spans_append branch.spans_from hother (List.Sublist.refl _)
      have hparts := spans_append test.spans_from hrest (List.Sublist.refl _)
      have hspan := (Span.From.token (List.mem_singleton.2 rfl)).through
        (hother _ (Stmt.span_mem_spans _)) (sublist_ends order)
      exact spans_cons hspan hparts ((List.sublist_cons_self _ _).trans order)
  | .loop order test rounds => by
      rw [← List.append_assoc] at order
      have hparts := spans_append test.spans_from rounds.spans_from (List.Sublist.refl _)
      exact spans_cons (.pair (sublist_around order)) hparts (sublist_between order)
  | .block order inner =>
      spans_cons (.pair (sublist_around order)) inner.spans_from (sublist_between order)
  | .nested order inner => by
      have hinner := inner.spans_from
      have hspan := (Span.From.token (List.mem_singleton.2 rfl)).through
        (hinner _ (Stmt.span_mem_spans _)) order
      rw [Stmt.spans, bodySpans, bodySpans, List.append_nil]
      exact spans_cons hspan hinner ((List.sublist_cons_self _ _).trans order)

/-- The same for a list of statements. -/
theorem PlacedStmts.spans_from {ts : List Token} {ss : List Stmt} :
    PlacedStmts ts ss → ∀ x ∈ bodySpans ss, x.From ts
  | .nil => List.forall_mem_nil _
  | .cons order first others => spans_append first.spans_from others.spans_from order

end

/-- Spans of placed functions are spans of tokens. -/
theorem PlacedFunction.spans_from {f : Function} (h : PlacedFunction ts f) :
    ∀ s ∈ f.spans, s.From ts := by
  obtain ⟨first, as, close, bs, _, order, hspan, hbody⟩ := h
  have hpair : [first, close] <+ ts :=
    (((List.nil_sublist bs).cons_cons close).cons_cons first).trans order
  have hbs : bs <+ ts :=
    ((List.sublist_cons_self _ _).trans (List.sublist_cons_self _ _)).trans order
  exact spans_cons (hspan ▸ .pair hpair) hbody.spans_from hbs

end Slate
