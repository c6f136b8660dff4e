import Slate.Proofs.Token.Tiling
import Slate.Text.Lines

/-!
# Lines and positions

Positions count the newlines before them, and know nothing of carriage returns.  Lines are
cut at newlines too, but a carriage return before a newline is not part of the line, and a
newline that ends the text opens no line.

`LineBetween` says where a line stands, by the characters around it.  Such a line is the one
with the number that positions in it have (`LineBetween.line?`), and the column of a position
is the number of characters of the line before it (`Position.behind_lineStart`).  There is
such a line around every stretch of text without newlines, unless the stretch ends between
the two characters of a line end (`exists_line_around`).
-/

namespace Slate

namespace Text

/-- The text behind a line: none, or it starts with what ends the line. -/
inductive EndsLine : List Char → List Char → Prop
  | atEnd {line : List Char} : EndsLine line []
  | newline {line more : List Char} (plain : line.getLast? ≠ some '\r') :
      EndsLine line ('\n' :: more)
  | carriageReturn {line more : List Char} : EndsLine line ('\r' :: '\n' :: more)

/-- A line can start behind the text. -/
def StartsLine (above : List Char) : Prop := above = [] ∨ above.getLast? = some '\n'

/-- The text has the line between what stands above and what stands below. -/
structure LineBetween (text above line below : List Char) : Prop where
  whole : text = above ++ line ++ below
  starts : StartsLine above
  oneLine : '\n' ∉ line
  ends : EndsLine line below

/-- A line starts behind fewer characters too. -/
theorem StartsLine.tail {c : Char} {above : List Char} (h : StartsLine (c :: above)) :
    StartsLine above := by
  rcases h with h | h
  · cases h
  · cases above with
    | nil => exact .inl rfl
    | cons d above => exact .inr (by rwa [List.getLast?_cons_cons] at h)

/-- A line goes on to the left, unless this makes its last character a carriage return. -/
theorem EndsLine.behind {front line below : List Char} (h : EndsLine line below)
    (hcut : line = [] → front.getLast? ≠ some '\r' ∨ ∀ more, below ≠ '\n' :: more) :
    EndsLine (front ++ line) below := by
  cases h with
  | atEnd => exact .atEnd
  | carriageReturn => exact .carriageReturn
  | newline plain =>
      refine .newline ?_
      cases line with
      | nil =>
          rw [List.append_nil]
          exact (hcut rfl).resolve_right fun hno => hno _ rfl
      | cons c line => simpa [List.getLast?_append, List.getLast?_cons] using plain

/-- The end of a line stays it behind fewer characters. -/
theorem EndsLine.tail {c : Char} {line below : List Char} (h : EndsLine (c :: line) below) :
    EndsLine line below := by
  cases h with
  | atEnd => exact .atEnd
  | carriageReturn => exact .carriageReturn
  | newline plain =>
      refine .newline ?_
      cases line with
      | nil => simp
      | cons d line => rwa [List.getLast?_cons_cons] at plain

/-! ## Lines by their number -/

/-- A character that ends no line belongs to the line that follows it. -/
theorem lines_cons_of_ne {c : Char} {rest : List Char} (hc : c ≠ '\n')
    (hr : c = '\r' → ∀ more, rest ≠ '\n' :: more) :
    lines (c :: rest) = consLine c (lines rest) := by
  rw [lines]
  · exact hc
  · exact fun more h heq => hr h more heq

/-- The first line of a text that is not empty. -/
theorem lines_head? {line below : List Char} (hone : '\n' ∉ line) (hends : EndsLine line below)
    (hne : line ++ below ≠ []) : (lines (line ++ below)).head? = some line := by
  induction line with
  | nil =>
      cases hends with
      | atEnd => exact absurd rfl hne
      | newline _ => simp
      | carriageReturn => simp [lines]
  | cons c line ih =>
      have hc : c ≠ '\n' := fun h => hone (h ▸ List.mem_cons_self)
      have hline : '\n' ∉ line := fun h => hone (List.mem_cons_of_mem c h)
      -- a carriage return in the line has no newline behind it
      have hcut : c = '\r' → ∀ more, line ++ below ≠ '\n' :: more := by
        rintro rfl more heq
        cases line with
        | nil =>
            cases hends with
            | atEnd => cases heq
            | newline plain => exact plain rfl
            | carriageReturn => cases heq
        | cons d line =>
            cases heq
            exact hline List.mem_cons_self
      rw [List.cons_append, lines_cons_of_ne hc hcut]
      by_cases hempty : line ++ below = []
      · obtain ⟨rfl, rfl⟩ := List.append_eq_nil_iff.1 hempty
        rfl
      · obtain ⟨others, hlines⟩ := List.head?_eq_some_iff.1 (ih hline hends.tail hempty)
        rw [hlines]
        rfl

/-- A character in front changes the first line only. -/
theorem consLine_getElem?_succ (c : Char) (ls : List (List Char)) (k : Nat) :
    (consLine c ls)[k + 1]? = ls[k + 1]? := by
  cases ls <;> rfl

/-- As many lines stand above a line as there are newlines. -/
theorem lines_getElem?_behind {above : List Char} (h : StartsLine above) (body : List Char)
    (k : Nat) : (lines (above ++ body))[above.count '\n' + k]? = (lines body)[k]? := by
  fun_induction lines above with
  | case1 => simp
  | case2 rest ih =>
      have hcount : ('\n' :: rest).count '\n' + k = rest.count '\n' + k + 1 := by
        rw [List.count_cons_self]
        omega
      rw [hcount, List.cons_append, lines_newline, List.getElem?_cons_succ, ih h.tail]
  | case3 rest ih =>
      have hcount : ('\r' :: '\n' :: rest).count '\n' + k = rest.count '\n' + k + 1 := by
        rw [List.count_cons_of_ne (by decide), List.count_cons_self]
        omega
      have hlines : lines ('\r' :: '\n' :: (rest ++ body)) = [] :: lines (rest ++ body) := by
        rw [lines]
      rw [hcount, List.cons_append, List.cons_append, hlines, List.getElem?_cons_succ,
        ih h.tail.tail]
  | case4 c rest hc hr ih =>
      -- the text above a line ends in a newline, which is behind this character
      have hrest : rest ≠ [] := by
        rintro rfl
        rcases h with h | h
        · cases h
        · exact hc (Option.some.inj h)
      have hnewline : '\n' ∈ rest := by
        rcases h.tail with h | h
        · exact absurd h hrest
        · exact List.mem_of_getLast? h
      have hcut : c = '\r' → ∀ more, rest ++ body ≠ '\n' :: more := by
        intro hcr more heq
        obtain ⟨d, ds, rfl⟩ := List.exists_cons_of_ne_nil hrest
        cases heq
        exact hr ds hcr rfl
      obtain ⟨n, hn⟩ := Nat.exists_eq_add_one.2 (List.count_pos_iff.2 hnewline)
      have hmore := ih h.tail
      rw [hn, Nat.add_right_comm] at hmore
      rw [List.cons_append, lines_cons_of_ne hc hcut, List.count_cons_of_ne hc, hn,
        Nat.add_right_comm, consLine_getElem?_succ, hmore]

/-- **A line is found by its number**, unless it is empty and stands at the end of the text. -/
theorem LineBetween.line? {text above line below : List Char}
    (h : LineBetween text above line below) (hne : line ++ below ≠ []) :
    (lines text)[above.count '\n']? = some line := by
  have hbehind := lines_getElem?_behind h.starts (line ++ below) 0
  rw [Nat.add_zero] at hbehind
  rw [h.whole, List.append_assoc, hbehind, ← List.head?_eq_getElem?,
    lines_head? h.oneLine h.ends hne]

/-! ## The line around a place -/

/-- Every place in a text is on a line that starts somewhere. -/
theorem exists_lineStart (passed : List Char) :
    ∃ above before, passed = above ++ before ∧ StartsLine above ∧ '\n' ∉ before := by
  induction passed with
  | nil => exact ⟨[], [], rfl, .inl rfl, List.not_mem_nil⟩
  | cons c passed ih =>
      obtain ⟨above, before, rfl, habove, hbefore⟩ := ih
      rcases habove with rfl | habove
      · by_cases hc : c = '\n'
        · exact ⟨[c], before, rfl, .inr (congrArg some hc), hbefore⟩
        · exact ⟨[], c :: before, rfl, .inl rfl, by simp [Ne.symm hc, hbefore]⟩
      · refine ⟨c :: above, before, rfl, .inr ?_, hbefore⟩
        rw [List.getLast?_cons, habove]
        rfl

/-- Every line ends somewhere. -/
theorem exists_lineEnd (left : List Char) :
    ∃ after below, left = after ++ below ∧ '\n' ∉ after ∧ EndsLine after below := by
  induction left with
  | nil => exact ⟨[], [], rfl, List.not_mem_nil, .atEnd⟩
  | cons c left ih =>
      by_cases hc : c = '\n'
      · subst hc
        exact ⟨[], _, rfl, List.not_mem_nil, .newline (by simp)⟩
      · obtain ⟨after, below, rfl, hafter, hends⟩ := ih
        by_cases hcut : c = '\r' ∧ after = [] ∧ ∃ more, below = '\n' :: more
        · obtain ⟨rfl, rfl, more, rfl⟩ := hcut
          exact ⟨[], _, rfl, List.not_mem_nil, .carriageReturn⟩
        · refine ⟨c :: after, below, rfl, by simp [Ne.symm hc, hafter], ?_⟩
          refine (hends.behind ?_ : EndsLine ([c] ++ after) below)
          intro hempty
          by_cases hcr : c = '\r'
          · exact .inr fun more heq => hcut ⟨hcr, hempty, more, heq⟩
          · exact .inl (by simpa using hcr)

/-- Around a stretch of text without newlines there is a line, unless the stretch ends
between the two characters of a line end. -/
theorem exists_line_around {passed inside left : List Char} (hone : '\n' ∉ inside)
    (hcut : (passed ++ inside).getLast? ≠ some '\r' ∨ ∀ more, left ≠ '\n' :: more) :
    ∃ above before after below, passed = above ++ before ∧ left = after ++ below ∧
      LineBetween (passed ++ inside ++ left) above (before ++ inside ++ after) below := by
  obtain ⟨above, before, rfl, habove, hbefore⟩ := exists_lineStart passed
  obtain ⟨after, below, rfl, hafter, hends⟩ := exists_lineEnd left
  refine ⟨above, before, after, below, rfl, rfl, by simp, habove, ?_, hends.behind ?_⟩
  · simp [hbefore, hone, hafter]
  · rintro rfl
    rcases hcut with hcut | hcut
    · left
      intro hlast
      rw [List.append_assoc, List.getLast?_append, hlast] at hcut
      exact hcut rfl
    · exact .inr hcut

end Text

/-- The line of a position is counted by the newlines above, and its column by the characters
of the line before it. -/
theorem Position.behind_lineStart {above before : List Char} (h : Text.StartsLine above)
    (hbefore : '\n' ∉ before) :
    behind (above ++ before) = ⟨1 + above.count '\n', 1 + before.length⟩ := by
  have hall : ∀ c ∈ before.reverse, decide (c ≠ '\n') = true := by
    intro c hc
    refine decide_eq_true ?_
    rintro rfl
    exact hbefore (List.mem_reverse.1 hc)
  have hnone : above.reverse.takeWhile (· ≠ '\n') = [] := by
    rcases h with rfl | h
    · rfl
    · obtain ⟨front, rfl⟩ := List.getLast?_eq_some_iff.1 h
      simp
  rw [behind, List.count_append, List.count_eq_zero.2 hbefore, List.reverse_append,
    List.takeWhile_append_of_pos hall, hnone, List.append_nil, List.length_reverse, Nat.add_zero]

end Slate
