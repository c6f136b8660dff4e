import Slate.Proofs.Token.Order

/-!
# Spans in a line

Spans stand in a line when each of them starts before it stops, and stops no later than the
ones behind it start.  A part of a line is a line, and the span that runs from the first
through the last contains all of them.

* `Span.InLine.within_through` — what a line spans;
* `Laid.inLine`, `tokens_inLine` — the tokens of a source stand in a line.
-/

namespace Slate

open scoped List

/-- Of three positions, the first one is not before the last one, if it is not before the
second and that is not before the last. -/
theorem Position.not_before_trans {p q r : Position} (h : ¬ p.Before q) (h' : ¬ q.Before r) :
    ¬ p.Before r := by
  unfold Before at *
  omega

namespace Span

/-- The span starts before it stops. -/
def Forward (s : Span) : Prop := s.start.Before s.stop

/-- The span stops no later than the other one starts. -/
def Ahead (s r : Span) : Prop := ¬ r.start.Before s.stop

/-- The span starts no earlier than the other one, and stops no later. -/
def Within (s r : Span) : Prop := ¬ s.start.Before r.start ∧ ¬ r.stop.Before s.stop

variable {s r t : Span} {spans : List Span}

/-- What is within a span within another is within that one. -/
theorem Within.trans (h : s.Within r) (h' : r.Within t) : s.Within t :=
  ⟨Position.not_before_trans h.1 h'.1, Position.not_before_trans h'.2 h.2⟩

/-- A span ahead of another starts before it. -/
theorem Ahead.start (h : s.Ahead r) (hs : s.Forward) : s.start.Before r.start := by
  unfold Ahead Forward Position.Before at *
  omega

/-- It stops before it too. -/
theorem Ahead.stop (h : s.Ahead r) (hr : r.Forward) : s.stop.Before r.stop := by
  unfold Ahead Forward Position.Before at *
  omega

/-- With a span between them, two spans do not touch. -/
theorem Ahead.apart (h : s.Ahead r) (hr : r.Forward) (h' : r.Ahead t) :
    s.stop.Before t.start := by
  unfold Ahead Forward Position.Before at *
  omega

/-- The spans stand in a line. -/
structure InLine (spans : List Span) : Prop where
  forward : ∀ s ∈ spans, s.Forward
  apart : spans.Pairwise Ahead

namespace InLine

/-- A part of a line is a line. -/
theorem sublist {part : List Span} (h : InLine spans) (hsub : part <+ spans) : InLine part :=
  ⟨fun s hs => h.forward s (hsub.subset hs), h.apart.sublist hsub⟩

/-- No span of the line starts before the first one. -/
theorem head_start (h : InLine spans) (hhead : spans.head? = some s) (hr : r ∈ spans) :
    ¬ r.start.Before s.start := by
  obtain ⟨others, rfl⟩ := List.head?_eq_some_iff.1 hhead
  rcases List.mem_cons.1 hr with rfl | hr
  · exact Position.not_before_self _
  · have hfirst := h.forward s List.mem_cons_self
    exact (((List.pairwise_cons.1 h.apart).1 r hr).start hfirst).asymm

/-- No span of the line stops behind the last one. -/
theorem last_stop (h : InLine spans) (hlast : spans.getLast? = some s) (hr : r ∈ spans) :
    ¬ s.stop.Before r.stop := by
  obtain ⟨others, rfl⟩ := List.getLast?_eq_some_iff.1 hlast
  rcases List.mem_append.1 hr with hr | hr
  · have hmem := List.mem_singleton.2 (rfl : s = s)
    have hforward := h.forward s (List.mem_append_right others hmem)
    exact (((List.pairwise_append.1 h.apart).2.2 r hr s hmem).stop hforward).asymm
  · rw [List.mem_singleton.1 hr]
    exact Position.not_before_self _

/-- From the first through the last, every span of the line is contained. -/
theorem within_through (h : InLine spans) (hhead : spans.head? = some s)
    (hlast : spans.getLast? = some t) (hr : r ∈ spans) : r.Within (s.through t) := by
  have hstart := h.head_start hhead hr
  have hstop := h.last_stop hlast hr
  exact ⟨hstart, hstop⟩

/-- The span from the first to the last of a line of spans goes forward. -/
theorem forward_through (h : InLine spans) (hhead : spans.head? = some s)
    (hlast : spans.getLast? = some t) : (s.through t).Forward := by
  have hmem := List.mem_of_head? hhead
  have hforward := h.forward s hmem
  have hstop := h.last_stop hlast hmem
  show s.start.Before t.stop
  unfold Forward Position.Before at *
  omega

end InLine

end Span

/-- Laid tokens stand in a line. -/
theorem Laid.inLine {passed text : List Char} {ts : List Token} (h : Laid passed ts text) :
    Span.InLine (ts.map Token.span) := by
  have hforward : ∀ s ∈ ts.map Token.span, s.Forward :=
    List.forall_mem_map.2 h.inOrder.1.each
  refine ⟨hforward, ?_⟩
  clear hforward
  induction h with
  | finish _ => exact .nil
  | @token passed gap left t ts trivia visible stands others ih =>
      refine List.pairwise_cons.2 ⟨List.forall_mem_map.2 fun u hu => ?_, ih⟩
      have hbehind := others.inOrder.2 u hu
      have hstop : t.span.stop = .behind (passed ++ gap ++ t.written) := congrArg Span.stop stands
      rwa [← hstop] at hbehind

/-- The tokens of a source stand in a line. -/
theorem tokens_inLine (source : String) : Span.InLine ((tokensOf source).map Token.span) := by
  have hlaid : Laid [] (tokensOf source) source.toList := (Cursor.ofText source).laid_tokens rfl
  exact hlaid.inLine

end Slate
