import Slate.Proofs.Token.Tiling

/-!
# Tokens in order

The tokens of a source stand one behind the other.  None is empty, so each starts before it
stops, and the next one starts no earlier than there.  A place in a source is then also a
number: that of the tokens that start before it (`tokensBefore`).
-/

namespace Slate

namespace Position

/-- The position is on an earlier line, or on the same line in an earlier column. -/
def Before (p q : Position) : Prop :=
  p.line < q.line ∨ (p.line = q.line ∧ p.column < q.column)

instance (p q : Position) : Decidable (p.Before q) :=
  inferInstanceAs (Decidable (_ ∨ _))

variable {p q r : Position}

/-- Positions are ordered. -/
theorem Before.trans (h : p.Before q) (h' : q.Before r) : p.Before r := by
  unfold Before at *
  omega

/-- The order goes one way. -/
theorem Before.asymm (h : p.Before q) : ¬ q.Before p := by
  unfold Before at *
  omega

theorem not_before_self (p : Position) : ¬ p.Before p := by
  unfold Before
  omega

/-- A character moves the position on. -/
theorem before_after (p : Position) (c : Char) : p.Before (p.after c) := by
  unfold Before after
  split
  · exact .inl (Nat.lt_succ_self _)
  · exact .inr ⟨rfl, Nat.lt_succ_self _⟩

/-- Passing a text leads to a later position, unless there is no text. -/
theorem before_afterAll (p : Position) {cs : List Char} (h : cs ≠ []) :
    p.Before (p.afterAll cs) := by
  induction cs generalizing p with
  | nil => exact absurd rfl h
  | cons c cs ih =>
      rw [afterAll_cons]
      by_cases hcs : cs = []
      · subst hcs
        exact before_after p c
      · exact (before_after p c).trans (ih (p.after c) hcs)

/-- What is behind more characters is further on. -/
theorem behind_before (passed : List Char) {more : List Char} (h : more ≠ []) :
    (behind passed).Before (behind (passed ++ more)) := by
  rw [← afterAll_behind]
  exact before_afterAll _ h

end Position

/-- Each token starts before it stops and before all that follow it, and none of those
starts before it stops. -/
structure InOrder (ts : List Token) : Prop where
  each : ∀ t ∈ ts, t.span.start.Before t.span.stop
  apart : ts.Pairwise fun t u => t.span.start.Before u.span.start

/-- Laid tokens are in order, and none starts before the place where they are laid. -/
theorem Laid.inOrder {passed text : List Char} {ts : List Token} (h : Laid passed ts text) :
    InOrder ts ∧ ∀ t ∈ ts, ¬ t.span.start.Before (.behind passed) := by
  induction h with
  | finish _ => exact ⟨⟨List.forall_mem_nil _, .nil⟩, List.forall_mem_nil _⟩
  | @token passed gap left t ts trivia visible stands others ih =>
      obtain ⟨⟨heach, hapart⟩, hlater⟩ := ih
      have hstops : t.span.start.Before t.span.stop := by
        rw [show t.span = _ from stands]
        exact Position.behind_before _ visible
      have hstop : t.span.stop = .behind (passed ++ gap ++ t.written) :=
        congrArg Span.stop stands
      have hbehind : ∀ u ∈ ts, t.span.start.Before u.span.start := by
        intro u hu
        have hno := hlater u hu
        rw [← hstop] at hno
        unfold Position.Before at *
        omega
      refine ⟨⟨List.forall_mem_cons.2 ⟨hstops, heach⟩, List.pairwise_cons.2 ⟨hbehind, hapart⟩⟩, ?_⟩
      have hfirst : ¬ t.span.start.Before (.behind passed) := by
        rw [show t.span.start = _ from congrArg Span.start stands]
        by_cases hgap : gap = []
        · rw [hgap, List.append_nil]
          exact Position.not_before_self _
        · exact (Position.behind_before passed hgap).asymm
      refine List.forall_mem_cons.2 ⟨hfirst, ?_⟩
      exact fun u hu hbefore => hfirst ((hbehind u hu).trans hbefore)

/-- The tokens of a source are in order. -/
theorem tokens_inOrder (source : String) : InOrder (tokensOf source) := by
  have hlaid : Laid [] (tokensOf source) source.toList := (Cursor.ofText source).laid_tokens rfl
  exact hlaid.inOrder.1

/-- The number of tokens that start before a position. -/
def tokensBefore (ts : List Token) (p : Position) : Nat :=
  ts.countP fun t => t.span.start.Before p

/-- At the start of a token, that is the number of tokens before it. -/
theorem InOrder.tokensBefore_start {used more : List Token} {t : Token}
    (h : InOrder (used ++ t :: more)) :
    tokensBefore (used ++ t :: more) t.span.start = used.length := by
  obtain ⟨_, hrest, hcross⟩ := List.pairwise_append.1 h.apart
  obtain ⟨hlater, _⟩ := List.pairwise_cons.1 hrest
  unfold tokensBefore
  rw [List.countP_append, List.countP_eq_length.2, List.countP_eq_zero.2, Nat.add_zero]
  · refine List.forall_mem_cons.2 ⟨?_, ?_⟩
    · simpa using Position.not_before_self _
    · exact fun u hu => by simpa using (hlater u hu).asymm
  · exact fun u hu => by simpa using hcross u hu t List.mem_cons_self

/-- At the stop of the last token, that is the number of all tokens. -/
theorem InOrder.tokensBefore_stop {ts : List Token} {last : Token} (h : InOrder ts)
    (hlast : ts.getLast? = some last) : tokensBefore ts last.span.stop = ts.length := by
  obtain ⟨before, rfl⟩ := List.getLast?_eq_some_iff.1 hlast
  have hstop := h.each last (List.mem_append_right _ List.mem_cons_self)
  obtain ⟨_, _, hcross⟩ := List.pairwise_append.1 h.apart
  refine List.countP_eq_length.2 ?_
  intro t ht
  rcases List.mem_append.1 ht with ht | ht
  · simpa using (hcross t ht last List.mem_cons_self).trans hstop
  · rw [List.mem_singleton.1 ht]
    simpa using hstop

end Slate
