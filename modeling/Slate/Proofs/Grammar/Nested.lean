import Slate.FrontEnd
import Slate.Proofs.Grammar.PlacedReads
import Slate.Proofs.Token.InLine
import Slate.Proofs.Tree.Nodes

/-!
# Spans nest

The spans of a tree that was read lie as the tree does: a node contains what is below it, and
its parts lie one behind the other, as they are written.

The argument is the same for every kind of node.  The span of a node runs from the first
through the last of some spans that stand in a line, and those of its parts are among them
(`Node.Outlined`).  The others are tokens of its own, such as the keyword in front and the
semicolon at the end.  The parentheses around an operand are not kept in the tree, so the
span of an operand can be shorter than what is written.  That of a statement is not: it
starts with the first token of the statement, be this a parenthesis.

* `Strung` — things that are placed one behind the other;
* `Node.Placed.outlined` — one step, from a node to its parts;
* `Node.Placed.nests` — nodes and everything below them;
* `spans_nest` — programs that are read from a source.
-/

namespace Slate

open scoped List

/-! ## Things in a row -/

/-- Each of the things is placed in a part of the tokens, one part behind the other. -/
inductive Strung {α : Type} (P : List Token → α → Prop) : List Token → List α → Prop
  | nil {ts : List Token} : Strung P ts []
  | cons {ts us vs : List Token} {a : α} {as : List α} (order : us ++ vs <+ ts) (first : P us a)
      (others : Strung P vs as) : Strung P ts (a :: as)

namespace Strung

variable {α β : Type} {P : List Token → α → Prop} {Q : List Token → β → Prop}
  {ts us vs : List Token} {as bs : List α}

/-- What is strung along some tokens is strung along all lists that have them in this order. -/
theorem mono (h : Strung P us as) (hsub : us <+ ts) : Strung P ts as := by
  cases h with
  | nil => exact .nil
  | cons order first others => exact .cons (order.trans hsub) first others

/-- One thing along its own tokens is strung. -/
theorem single {a : α} (h : P ts a) : Strung P ts [a] := by
  have horder : ts ++ [] <+ ts := by rw [List.append_nil]
  exact .cons horder h .nil

/-- Two strings along tokens behind each other are one. -/
theorem append (h : Strung P us as) (h' : Strung P vs bs) (order : us ++ vs <+ ts) :
    Strung P ts (as ++ bs) := by
  induction h generalizing ts with
  | nil => exact h'.mono ((List.sublist_append_right _ vs).trans order)
  | @cons us ws xs a as inner first others ih =>
      refine .cons ?_ first (ih (List.Sublist.refl _))
      rw [← List.append_assoc]
      exact (inner.append_right vs).trans order

/-- What is strung can be replaced, one by one. -/
theorem map (h : Strung P ts as) {f : α → β} (hf : ∀ us a, P us a → Q us (f a)) :
    Strung Q ts (as.map f) := by
  induction h with
  | nil => exact .nil
  | cons order first others ih => exact .cons order (hf _ _ first) ih

/-- Each of the things is placed among all the tokens, if more tokens are no harm. -/
theorem each (hmono : ∀ us ts a, P us a → us <+ ts → P ts a) (h : Strung P ts as) :
    ∀ a ∈ as, P ts a := by
  induction h with
  | nil => exact List.forall_mem_nil _
  | @cons ts us vs a as order first others ih =>
      have hfirst := hmono us ts a first ((List.sublist_append_left us vs).trans order)
      refine List.forall_mem_cons.2 ⟨hfirst, fun b hb => ?_⟩
      exact hmono vs ts b (ih b hb) ((List.sublist_append_right us vs).trans order)

end Strung

/-! ## Spans of tokens in a line -/

namespace Span.From

variable {ts us vs : List Token} {s r : Span} {t : Token}

/-- A span from a token to a later one goes forward. -/
theorem forward (h : s.From ts) (hline : InLine (ts.map Token.span)) : s.Forward := by
  obtain ⟨i, j, t, u, hij, ht, hu, rfl⟩ := h
  obtain ⟨hi, rfl⟩ := List.getElem?_eq_some_iff.1 ht
  obtain ⟨hj, rfl⟩ := List.getElem?_eq_some_iff.1 hu
  have hlast : ts[j].span.Forward :=
    hline.forward _ (List.mem_map_of_mem (List.getElem_mem hj))
  rcases Nat.lt_or_eq_of_le hij with hless | rfl
  · have hahead : ts[i].span.Ahead ts[j].span :=
      List.pairwise_iff_getElem.1 (List.pairwise_map.1 hline.apart) i j hi hj hless
    have hfirst : ts[i].span.Forward :=
      hline.forward _ (List.mem_map_of_mem (List.getElem_mem hi))
    exact (hahead.start hfirst).trans hlast
  · exact hlast

/-- A span from the tokens before is ahead of a span from the tokens behind. -/
theorem ahead (hs : s.From us) (hr : r.From vs) (hline : InLine ((us ++ vs).map Token.span)) :
    s.Ahead r := by
  obtain ⟨_, j, _, t, _, _, ht, rfl⟩ := hs
  obtain ⟨i, _, u, _, _, hu, _, rfl⟩ := hr
  have hapart := hline.apart
  rw [List.map_append, List.pairwise_append] at hapart
  exact hapart.2.2 t.span (List.mem_map_of_mem (List.mem_of_getElem? ht)) u.span
    (List.mem_map_of_mem (List.mem_of_getElem? hu))

/-- A span starts at the first token, or it is one of the others. -/
theorem start_or_tail (h : s.From (t :: us)) : s.start = t.span.start ∨ s.From us := by
  obtain ⟨i, j, v, w, hij, hv, hw, rfl⟩ := h
  cases i with
  | zero =>
      obtain rfl : t = v := Option.some.inj hv
      exact .inl rfl
  | succ i =>
      cases j with
      | zero => exact absurd hij (Nat.not_succ_le_zero i)
      | succ j => exact .inr ⟨i, j, v, w, Nat.le_of_succ_le_succ hij, hv, hw, rfl⟩

end Span.From

/-- A token is strung along itself. -/
theorem Strung.token (t : Token) : Strung Span.From [t] [t.span] :=
  .single (.token (List.mem_singleton.2 rfl))

/-- **Spans of tokens in a line stand in a line.** -/
theorem Strung.inLine {ts : List Token} {spans : List Span} (h : Strung Span.From ts spans)
    (hline : Span.InLine (ts.map Token.span)) : Span.InLine spans := by
  induction h with
  | nil => exact ⟨List.forall_mem_nil _, .nil⟩
  | @cons ts us vs s spans order first others ih =>
      have hboth := hline.sublist (order.map Token.span)
      obtain ⟨hforward, hapart⟩ :=
        ih (hboth.sublist ((List.sublist_append_right us vs).map Token.span))
      have hfirst := first.forward (hboth.sublist ((List.sublist_append_left us vs).map Token.span))
      have hahead : ∀ r ∈ spans, s.Ahead r := fun r hr =>
        first.ahead (others.each (fun _ _ _ h hsub => h.mono hsub) r hr) hboth
      exact ⟨List.forall_mem_cons.2 ⟨hfirst, hforward⟩, List.pairwise_cons.2 ⟨hahead, hapart⟩⟩

/-! ## Placed nodes -/

namespace Node

/-- The expression or the statement is placed among the tokens. -/
def Placed (ts : List Token) : Node → Prop
  | expr e => PlacedExpr ts e
  | stmt s => PlacedStmt ts s

/-- A node placed among some tokens is placed among more. -/
theorem Placed.mono {us ts : List Token} {n : Node} (h : n.Placed us) (hsub : us <+ ts) :
    n.Placed ts := by
  cases n with
  | expr e => exact PlacedExpr.mono h hsub
  | stmt s => exact PlacedStmt.mono h hsub

/-- The span of a placed node is taken from the tokens. -/
theorem Placed.span_from {ts : List Token} {n : Node} (h : n.Placed ts) : n.span.From ts := by
  cases n with
  | expr e => exact PlacedExpr.spans_from h e.span e.span_mem_spans
  | stmt s => exact PlacedStmt.spans_from h s.span s.span_mem_spans

end Node

/-- The arguments of a call are strung along their tokens. -/
theorem PlacedArguments.strung {ts : List Token} {es : List Expr} (h : PlacedArguments ts es) :
    Strung Node.Placed ts (es.map Node.expr) := by
  cases h with
  | nil => exact .nil
  | cons order argument others => exact .cons order argument others.strung

/-- So are the statements of a list. -/
theorem PlacedStmts.strung {ts : List Token} {ss : List Stmt} (h : PlacedStmts ts ss) :
    Strung Node.Placed ts (ss.map Node.stmt) := by
  cases h with
  | nil => exact .nil
  | cons order first others => exact .cons order first others.strung

/-- The spans of nodes strung along tokens are strung along them. -/
theorem Strung.spans {ts : List Token} {ns : List Node} (h : Strung Node.Placed ts ns) :
    Strung Span.From ts (ns.map Node.span) :=
  h.map fun _ _ hplaced => hplaced.span_from

namespace Node

/-- The parts of the node are placed among the tokens.  Its span runs from the first through
the last of some spans, one behind the other, and those of its parts are among these. -/
inductive Outlined (ts : List Token) (n : Node) : Prop
  | outline {spans : List Span} {first last : Span} (lined : Strung Span.From ts spans)
      (among : n.parts.map span <+ spans) (head : spans.head? = some first)
      (stop : spans.getLast? = some last) (span : n.span = first.through last)
      (placed : ∀ m ∈ n.parts, m.Placed ts)

namespace Outlined

variable {ts us : List Token} {n m : Node} {first last : Token}

/-- Parts that are placed one behind the other are placed among more tokens. -/
theorem placed_parts (inner : Strung Placed us n.parts) (hsub : us <+ ts) :
    ∀ m ∈ n.parts, m.Placed ts :=
  (inner.mono hsub).each fun _ _ _ h hsub => h.mono hsub

/-- A node that is a single token. -/
theorem token (hparts : n.parts = []) (hspan : n.span = first.span) (hmem : first ∈ ts) :
    n.Outlined ts := by
  have hspans : Strung Span.From ts [first.span] := .single (.token hmem)
  refine .outline hspans ?_ rfl rfl hspan ?_
  · rw [hparts]
    exact List.nil_sublist _
  · rw [hparts]
    exact List.forall_mem_nil _

/-- A node that consists of two parts, with nothing around them. -/
theorem pair {l r : Node} (hparts : n.parts = [l, r]) (hspan : n.span = l.span.through r.span)
    (inner : Strung Placed ts n.parts) : n.Outlined ts := by
  refine .outline inner.spans (List.Sublist.refl _) ?_ ?_ hspan
    (placed_parts inner (List.Sublist.refl ts))
  · rw [hparts]
    rfl
  · rw [hparts]
    rfl

/-- A node with a token in front of its parts and one behind them. -/
theorem between (hspan : n.span = first.span.through last.span) (inner : Strung Placed us n.parts)
    (order : first :: (us ++ [last]) <+ ts) : n.Outlined ts := by
  have hbehind := inner.spans.append (.token last) (List.Sublist.refl _)
  have hamong : n.parts.map span <+ first.span :: (n.parts.map span ++ [last.span]) :=
    (List.sublist_append_left _ _).trans (List.sublist_cons_self _ _)
  exact .outline ((Strung.token first).append hbehind order) hamong rfl
    (List.getLast?_concat (l := first.span :: n.parts.map span)) hspan
    (placed_parts inner (sublist_between order))

/-- A node with a token in front of its parts. -/
theorem behind (hspan : n.span = first.span.through m.span) (hlast : n.parts.getLast? = some m)
    (inner : Strung Placed us n.parts) (order : first :: us <+ ts) : n.Outlined ts := by
  have hstop : (first.span :: n.parts.map span).getLast? = some m.span := by
    obtain ⟨others, hothers⟩ := List.getLast?_eq_some_iff.1 hlast
    rw [hothers, List.map_append]
    exact List.getLast?_concat (l := first.span :: others.map span)
  exact .outline ((Strung.token first).append inner.spans order) (List.sublist_cons_self _ _) rfl
    hstop hspan (placed_parts inner ((List.sublist_cons_self first us).trans order))

/-- An expression statement starts with the first of its tokens.  That can be a parenthesis,
and then it is not a token of the expression. -/
theorem expression {es : List Token} {semicolon : Token} {e : Expr}
    (opens : es.head? = some first) (order : es ++ [semicolon] <+ ts) (value : PlacedExpr es e) :
    (stmt (.expression (first.span.through semicolon.span) e)).Outlined ts := by
  have hplaced : (expr e).Placed es := value
  have hpart : ∀ m ∈ [expr e], m.Placed ts :=
    List.forall_mem_singleton.2 (hplaced.mono ((List.sublist_append_left es _).trans order))
  have hend := Strung.token semicolon
  obtain ⟨us, rfl⟩ := List.head?_eq_some_iff.1 opens
  rcases hplaced.span_from.start_or_tail with hstart | htail
  · have hspan : first.span.through semicolon.span = e.span.through semicolon.span :=
      congrArg (fun start => Span.mk start semicolon.span.stop) hstart.symm
    exact .outline ((Strung.single hplaced.span_from).append hend order)
      ((List.nil_sublist _).cons_cons e.span) rfl rfl hspan hpart
  · have hbehind := (Strung.single htail).append hend (List.Sublist.refl _)
    exact .outline ((Strung.token first).append hbehind order)
      (((List.nil_sublist _).cons_cons e.span).cons first.span) rfl rfl rfl hpart

end Outlined

/-- A placed expression has its outline. -/
theorem outlined_expr {ts : List Token} {e : Expr} (h : PlacedExpr ts e) :
    (expr e).Outlined ts := by
  cases h with
  | literal mem => exact .token rfl rfl mem
  | declare order => exact .between rfl (Strung.nil : Strung Placed [] []) order
  | var mem => exact .token rfl rfl mem
  | assign order target value => exact .pair rfl rfl (.cons order target (.single value))
  | call order arguments => exact .between rfl arguments.strung order
  | binary order first second => exact .pair rfl rfl (.cons order first (.single second))
  | unary order value => exact .behind rfl rfl (.single value) order

/-- So has a placed statement. -/
theorem outlined_stmt {ts : List Token} {s : Stmt} (h : PlacedStmt ts s) :
    (stmt s).Outlined ts := by
  cases h with
  | expression opens order value => exact .expression opens order value
  | ret order => exact .between rfl (Strung.nil : Strung Placed [] []) order
  | retValue order value => exact .between rfl (.single value) order
  | ifThen order test branch =>
      rw [← List.append_assoc] at order
      exact .between rfl (.cons (List.Sublist.refl _) test branch.strung) order
  | @ifElse _ cs bs os t condition body otherwise order test branch other =>
      have hbranches : Strung Placed (bs ++ os) (body.map stmt ++ [stmt otherwise]) :=
        branch.strung.append (.single other) (List.Sublist.refl _)
      refine .behind (m := stmt otherwise) rfl ?_ (.cons (List.Sublist.refl _) test hbranches) order
      exact List.getLast?_concat (l := expr condition :: body.map stmt)
  | loop order test rounds =>
      rw [← List.append_assoc] at order
      exact .between rfl (.cons (List.Sublist.refl _) test rounds.strung) order
  | block order inner => exact .between rfl inner.strung order
  | nested order inner => exact .behind rfl rfl (.single inner) order

/-- **One step.**  A placed node is outlined, and its parts are placed. -/
theorem Placed.outlined {ts : List Token} {n : Node} (h : n.Placed ts) : n.Outlined ts := by
  cases n with
  | expr e => exact outlined_expr h
  | stmt s => exact outlined_stmt h

/-! ## Nested nodes -/

/-- What is to be said of the span of a node: it runs from a token through the same or a later
one, it is not empty, it contains the spans of all nodes below, and the parts of the node lie
one behind the other. -/
structure Nests (ts : List Token) (n : Node) : Prop where
  tokens : n.span.From ts
  forward : n.span.Forward
  contains : ∀ m, n.Above m → m.span.Within n.span
  ordered : n.parts.Pairwise fun m r => m.span.Ahead r.span

section

variable {ts : List Token} {n m : Node}

/-- A node with an outline has a span that goes forward. -/
theorem Outlined.forward (h : n.Outlined ts) (hline : Span.InLine (ts.map Token.span)) :
    n.span.Forward := by
  obtain ⟨lined, _, head, stop, hspan, _⟩ := h
  rw [hspan]
  exact (lined.inLine hline).forward_through head stop

/-- The spans of its parts are within its own. -/
theorem Outlined.within (h : n.Outlined ts) (hline : Span.InLine (ts.map Token.span))
    (hm : m ∈ n.parts) : m.span.Within n.span := by
  obtain ⟨lined, among, head, stop, hspan, _⟩ := h
  rw [hspan]
  exact (lined.inLine hline).within_through head stop (among.subset (List.mem_map_of_mem hm))

/-- They stand one behind the other. -/
theorem Outlined.ordered (h : n.Outlined ts) (hline : Span.InLine (ts.map Token.span)) :
    n.parts.Pairwise fun m r => m.span.Ahead r.span := by
  obtain ⟨lined, among, _⟩ := h
  exact List.pairwise_map.1 ((lined.inLine hline).apart.sublist among)

/-- The parts of a placed node are placed. -/
theorem Placed.part (h : n.Placed ts) : ∀ m ∈ n.parts, m.Placed ts := by
  obtain ⟨_, _, _, _, _, placed⟩ := h.outlined
  exact placed

/-- **Placed nodes nest**, by induction on how far below the one the other is. -/
theorem Placed.nests (h : n.Placed ts) (hline : Span.InLine (ts.map Token.span)) : n.Nests ts where
  tokens := h.span_from
  forward := h.outlined.forward hline
  contains m hm := by
    have hbelow : m.Placed ts ∧ m.span.Within n.span := by
      induction hm with
      | single hpart => exact ⟨h.part _ hpart, h.outlined.within hline hpart⟩
      | tail _ hpart ih =>
          obtain ⟨hplaced, hwithin⟩ := ih
          exact ⟨hplaced.part _ hpart, (hplaced.outlined.within hline hpart).trans hwithin⟩
    exact hbelow.2
  ordered := h.outlined.ordered hline

end

end Node

/-! ## Programs -/

section

variable {ts : List Token} {f : Function}

/-- The statements of a body are placed where the function stands, and lie one behind the
other. -/
theorem StandsFunction.body (h : StandsFunction ts f) (hline : Span.InLine (ts.map Token.span)) :
    (∀ s ∈ f.body, PlacedStmt ts s) ∧ f.body.Pairwise fun s r => s.span.Ahead r.span := by
  obtain ⟨_, _, _, bs, _, horder, _, hplaced⟩ := h.placed
  have hbs : bs <+ ts :=
    ((List.sublist_cons_self _ _).trans (List.sublist_cons_self _ _)).trans horder
  have hstrung := hplaced.strung.mono hbs
  have hapart := (hstrung.spans.inLine hline).apart
  rw [List.pairwise_map, List.pairwise_map] at hapart
  have heach := hstrung.each fun _ _ _ h hsub => h.mono hsub
  exact ⟨fun s hs => heach (.stmt s) (List.mem_map_of_mem hs), hapart⟩

/-- The span of a function ends before its body, from which it is kept by a brace. -/
theorem StandsFunction.span_before (h : StandsFunction ts f)
    (hline : Span.InLine (ts.map Token.span)) : ∀ s ∈ f.body, f.span.stop.Before s.span.start := by
  cases h with
  | @parts first name opening closing behind ms rs ps bs f body mark type kind named opens
      parameters closes ending unplaced starts span placed =>
      have hbehind : closing :: behind :: bs <+
          ms ++ (rs ++ name :: opening :: (ps ++ closing :: behind :: bs)) :=
        (((List.sublist_append_right ps _).trans (List.sublist_cons_self opening _)).trans
          (List.sublist_cons_self name _)).trans
          ((List.sublist_append_right rs _).trans (List.sublist_append_right ms _))
      have heach := placed.strung.each fun _ _ _ h hsub => h.mono hsub
      intro s hs
      have hfrom : s.span.From bs := (heach (.stmt s) (List.mem_map_of_mem hs)).span_from
      have hbody := (Strung.token behind).append (.single hfrom) (List.Sublist.refl _)
      have hspans : Span.InLine [closing.span, behind.span, s.span] :=
        ((Strung.token closing).append hbody hbehind).inLine hline
      obtain ⟨hclosing, hrest⟩ := List.pairwise_cons.1 hspans.apart
      obtain ⟨hopening, _⟩ := List.pairwise_cons.1 hrest
      rw [span]
      exact (hclosing behind.span List.mem_cons_self).apart
        (hspans.forward _ (List.mem_cons_of_mem _ List.mem_cons_self))
        (hopening s.span List.mem_cons_self)

end

/-- **Spans nest.**  Let a source be read as a program.  The functions stand in its tokens, each
with a span from its first token through the parenthesis that closes its arguments, which
ends before any statement starts.  The statements of a body lie one behind the other.  And
every node of a body, however deep it lies, has a span that runs from a token through the same
or a later one, starts before it stops, and contains the spans of all nodes below; its parts
lie one behind the other as they are written. -/
theorem spans_nest {source : String} {file : Option String} {p : Program}
    (h : Program.parse (tokensOf source) file = .ok p) :
    StandsFunctions (tokensOf source) p.functions ∧
    ∀ f ∈ p.functions,
      (∀ s ∈ f.body, f.span.stop.Before s.span.start) ∧
      (f.body.Pairwise fun s r => s.span.Ahead r.span) ∧
      ∀ s ∈ f.body, ∀ n, (Node.stmt s).Reaches n → n.Nests (tokensOf source) := by
  have hstand := functions_stand (parse_eq_ok.1 h).1
  have hline := tokens_inLine source
  refine ⟨hstand, fun f hf => ?_⟩
  obtain ⟨used, hused, hstands⟩ := hstand.each f hf
  have hpart := hline.sublist (hused.sublist.map Token.span)
  obtain ⟨hplaced, hordered⟩ := hstands.body hpart
  refine ⟨hstands.span_before hpart, hordered, fun s hs n hn => ?_⟩
  have hnode : n.Placed (tokensOf source) :=
    hn.inherits (fun _ h => h.part) ((hplaced s hs).mono hused.sublist)
  exact hnode.nests hline

/-- A product of which the first factor stands in parentheses. -/
def productSource : String := "void f(n: i32) \x7b (n + 1) * g(n, 2); \x7d"

/-- A product of which the first factor stands in parentheses: the statement starts at the
parenthesis, and the product at the factor. -/
theorem spans_nest_parentheses :
    ∃ p, Program.parse (tokensOf productSource) none = .ok p ∧
      ∃ f ∈ p.functions, f.span = ⟨⟨1, 1⟩, ⟨1, 15⟩⟩ ∧ ∃ s ∈ f.body, s.span = ⟨⟨1, 18⟩, ⟨1, 36⟩⟩ ∧
        (∃ n ∈ (Node.stmt s).parts, n.span = ⟨⟨1, 19⟩, ⟨1, 35⟩⟩) ∧
        (Node.stmt s).Nests (tokensOf productSource) := by
  have hcheck : (Program.parse (tokensOf productSource) none).toOption.any (fun p =>
      p.functions.any fun f =>
        f.span = ⟨⟨1, 1⟩, ⟨1, 15⟩⟩ && f.body.any fun s => s.span = ⟨⟨1, 18⟩, ⟨1, 36⟩⟩ &&
          (Node.stmt s).parts.any fun n => n.span = ⟨⟨1, 19⟩, ⟨1, 35⟩⟩) = true := by
    decide +kernel
  obtain ⟨p, hparse, hcheck⟩ := (Option.any_eq_true _ _).1 hcheck
  obtain ⟨f, hf, hcheck⟩ := List.any_eq_true.1 hcheck
  obtain ⟨hspan, hcheck⟩ := (Bool.and_eq_true _ _).mp hcheck
  obtain ⟨s, hs, hcheck⟩ := List.any_eq_true.1 hcheck
  obtain ⟨hstatement, hcheck⟩ := (Bool.and_eq_true _ _).mp hcheck
  obtain ⟨n, hn, hpart⟩ := List.any_eq_true.1 hcheck
  have hparse := toOption_eq_some.1 hparse
  obtain ⟨_, _, hnests⟩ := (spans_nest hparse).2 f hf
  exact ⟨p, hparse, f, hf, of_decide_eq_true hspan, s, hs, of_decide_eq_true hstatement,
    ⟨n, hn, of_decide_eq_true hpart⟩, hnests s hs _ .refl⟩

end Slate
