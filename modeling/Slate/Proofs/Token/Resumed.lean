import Slate.Proofs.Token.Tiling

/-!
# Reading goes on anywhere

A cursor can be asked for the next token, and for the text up to a character, in any order
(`Cursor.Step`).  The second kind of step may stop in the middle of what would have been a
token, a string or a comment.  A cursor does not remember how it came to where it stands:
what it reads from there on are the tokens of the text that is left, as if that were a text
of its own, at positions counted from where it stands (`Cursor.tokens_moved`).

Positions move with the place where a text starts.  Those on its first line move along the
line as well, and those on later lines do not, so a newline inside a string or a comment ends
the shift of columns.

* `Cursor.serve_behind` — what one step passes;
* `reading_resumes` — any steps, one after the other, and what follows them.
-/

namespace Slate

/-! ## Moved positions -/

/-- The position of a place, when the text that it is counted in starts at `origin` of another
text. -/
def Position.moved (origin p : Position) : Position :=
  if p.line = 1 then ⟨origin.line, origin.column + p.column - 1⟩
  else ⟨origin.line + p.line - 1, p.column⟩

/-- The token at the place where it stands when its text starts at `origin`. -/
def Token.moved (origin : Position) (t : Token) : Token :=
  { t with span := ⟨origin.moved t.span.start, origin.moved t.span.stop⟩ }

namespace Position

/-- Lines and columns are counted from one. -/
def Counted (p : Position) : Prop := 1 ≤ p.line ∧ 1 ≤ p.column

variable {origin p : Position}

/-- A position stays counted behind a character. -/
theorem Counted.after (h : p.Counted) (c : Char) : (p.after c).Counted := by
  unfold Position.after
  split
  · exact ⟨Nat.le_add_left 1 _, Nat.le_refl 1⟩
  · exact ⟨h.1, Nat.le_add_left 1 _⟩

/-- So it does behind several. -/
theorem Counted.afterAll (h : p.Counted) (cs : List Char) : (p.afterAll cs).Counted := by
  induction cs generalizing p with
  | nil => exact h
  | cons c cs ih => exact ih (h.after c)

/-- The start of a text is moved to where the text starts. -/
theorem moved_first (origin : Position) : origin.moved .first = origin := by
  simp [moved, first]

/-- Moving a position and passing a character can be done in any order. -/
theorem moved_after (h : p.Counted) (c : Char) :
    origin.moved (p.after c) = (origin.moved p).after c := by
  obtain ⟨hline, hcolumn⟩ := h
  by_cases hc : c = '\n'
  · -- the next line is a later one, of which the columns do not move
    subst hc
    have hlater : p.line ≠ 0 := Nat.ne_of_gt hline
    by_cases hfirst : p.line = 1
    · simp [moved, Position.after, hfirst]
    · simp only [moved, Position.after, if_true, Nat.add_eq_right, hlater, hfirst, if_false,
        mk.injEq, and_true]
      omega
  · by_cases hfirst : p.line = 1
    · simp only [moved, Position.after, hc, hfirst, if_false, if_true, mk.injEq, true_and]
      omega
    · simp [moved, Position.after, hc, hfirst]

/-- Passing characters moves a position as it moves the moved one. -/
theorem moved_afterAll (h : p.Counted) (cs : List Char) :
    origin.moved (p.afterAll cs) = (origin.moved p).afterAll cs := by
  induction cs generalizing p with
  | nil => rfl
  | cons c cs ih => rw [afterAll_cons, ih (h.after c), moved_after h, afterAll_cons]

end Position

namespace Cursor

/-- The cursor at the same text, where the text starts at `origin`. -/
def moved (origin : Position) (here : Cursor) : Cursor := ⟨here.rest, origin.moved here.position⟩

variable {origin : Position} {here there : Cursor}

/-- The position behind a token is counted. -/
theorem next_position_counted (h : here.position.Counted) : here.next.2.position.Counted := by
  unfold next
  split
  · exact h.afterAll _
  · exact (h.afterAll _).afterAll _

/-- The next token is the same one at a moved place. -/
theorem next_moved (h : here.position.Counted) :
    (here.moved origin).next =
      (here.next.1.map (Token.moved origin), here.next.2.moved origin) := by
  rcases hsplit : splitTrivia false here.rest with ⟨trivia, _ | ⟨c, rest⟩⟩
  · simp [next, moved, hsplit, Position.moved_afterAll h]
  · simp [next, moved, Token.moved, hsplit, Position.moved_afterAll h,
      Position.moved_afterAll (h.afterAll trivia)]

/-- The tokens from a cursor on are the same ones at moved places. -/
theorem tokens_moved (here : Cursor) (h : here.position.Counted) :
    (here.moved origin).tokens = here.tokens.map (Token.moved origin) := by
  have hcounted := next_position_counted h
  rw [tokens_eq, tokens_eq, next_moved h]
  cases hnext : here.next with
  | mk t? there =>
      cases t? with
      | none => rfl
      | some t =>
          have hshorter := next_length_lt hnext
          rw [hnext] at hcounted
          exact congrArg (t.moved origin :: ·) (there.tokens_moved hcounted)
termination_by here.rest.length

/-- **Reading goes on anywhere.**  The tokens from a cursor on are those of the text that is
left, at positions counted from the cursor. -/
theorem tokens_eq_moved (here : Cursor) :
    here.tokens = (tokensOf (String.ofList here.rest)).map (Token.moved here.position) := by
  have hfirst : (ofText (String.ofList here.rest)).moved here.position = here := by
    simp [ofText, moved, Position.moved_first]
  rw [tokensOf, ← tokens_moved _ ⟨Nat.le_refl 1, Nat.le_refl 1⟩, hfirst]

/-! ## Steps -/

/-- What a cursor is asked for: the next token, or the text up to a character. -/
inductive Step where
  | token
  | upTo (target : Char)
deriving DecidableEq

/-- What a step answers with. -/
inductive Answer where
  | token (t : Token)
  | text (before : String)
deriving DecidableEq

/-- The answer of a step, if it has one, and where it leaves the cursor. -/
def serve (here : Cursor) : Step → Option Answer × Cursor
  | .token => (here.next.1.map .token, here.next.2)
  | .upTo target => ((here.takeUntil target).1.map .text, (here.takeUntil target).2)

/-- Where steps in a row leave the cursor. -/
def serveAll (here : Cursor) (steps : List Step) : Cursor :=
  steps.foldl (fun here step => (here.serve step).2) here

/-- There is no next token exactly if what is left is trivia. -/
theorem next_eq_none : here.next.1 = none ↔ Trivia true here.rest := by
  constructor
  · intro h
    exact trivia_of_next (Prod.ext h rfl : here.next = (none, here.next.2))
  · intro h
    rw [next_of_trivia h]

/-- The text before the first character of that kind is taken, and the character is passed. -/
theorem takeUntil_of_first {target : Char} {before left : List Char}
    (h : here.rest = before ++ target :: left) (hfirst : target ∉ before) :
    here.takeUntil target = (some (String.ofList before),
      ⟨left, here.position.afterAll (before ++ [target])⟩) := by
  unfold takeUntil
  rw [splitAtFirst_eq_some.2 ⟨h, hfirst⟩, Position.afterAll_append]
  rfl

/-- Without such a character everything is passed. -/
theorem takeUntil_of_none {target : Char} (h : target ∉ here.rest) :
    here.takeUntil target = (none, ⟨[], here.position.afterAll here.rest⟩) := by
  unfold takeUntil
  rw [splitAtFirst_eq_none.2 h]

/-- At the end of the text no step has an answer, and none goes on. -/
theorem serve_at_end (h : here.rest = []) (step : Step) :
    (here.serve step).1 = none ∧ (here.serve step).2.rest = [] := by
  cases step with
  | token =>
      have htrivia : Trivia true here.rest := h ▸ .nil
      rw [serve, next_of_trivia htrivia]
      exact ⟨rfl, rfl⟩
  | upTo target =>
      have hnone : target ∉ here.rest := h ▸ List.not_mem_nil
      rw [serve, takeUntil_of_none hnone]
      exact ⟨rfl, rfl⟩

/-- At the end of the source every step stays there. -/
theorem serveAll_at_end (h : here.rest = []) (steps : List Step) :
    (here.serveAll steps).rest = [] := by
  induction steps generalizing here with
  | nil => exact h
  | cons step steps ih => exact ih (serve_at_end h step).2

/-- **What a step passes** is a stretch of the text that was left, and the cursor then stands
behind it. -/
theorem serve_behind {passed : List Char} (hposition : here.position = .behind passed)
    (step : Step) :
    ∃ used, here.rest = used ++ (here.serve step).2.rest ∧
      (here.serve step).2.position = .behind (passed ++ used) := by
  have hall : here.position.afterAll here.rest = .behind (passed ++ here.rest) := by
    rw [hposition, Position.afterAll_behind]
  cases step with
  | token =>
      rw [serve]
      cases hnext : here.next with
      | mk t? there =>
          cases t? with
          | none =>
              rw [next_of_trivia (trivia_of_next hnext)] at hnext
              cases hnext
              exact ⟨here.rest, (List.append_nil _).symm, hall⟩
          | some t =>
              obtain ⟨gap, _, hrest, _, _, hthere⟩ := next_eq_some hnext hposition
              exact ⟨gap ++ t.written, hrest, by rw [hthere, List.append_assoc]⟩
  | upTo target =>
      rw [serve]
      by_cases hmem : target ∈ here.rest
      · obtain ⟨before, left, hrest, hfirst⟩ := List.eq_append_cons_of_mem hmem
        rw [takeUntil_of_first hrest hfirst]
        exact ⟨before ++ [target], by simp [hrest], by rw [hposition, Position.afterAll_behind]⟩
      · rw [takeUntil_of_none hmem]
        exact ⟨here.rest, (List.append_nil _).symm, hall⟩

/-- What all steps pass. -/
theorem serveAll_behind {passed : List Char} (hposition : here.position = .behind passed)
    (steps : List Step) :
    ∃ used, here.rest = used ++ (here.serveAll steps).rest ∧
      (here.serveAll steps).position = .behind (passed ++ used) := by
  induction steps generalizing here passed with
  | nil => exact ⟨[], rfl, by rw [List.append_nil]; exact hposition⟩
  | cons step steps ih =>
      obtain ⟨first, hfirst, hstep⟩ := serve_behind hposition step
      obtain ⟨rest, hrest, hsteps⟩ := ih hstep
      refine ⟨first ++ rest, ?_, ?_⟩
      · rw [hfirst, hrest, List.append_assoc]
        rfl
      · rw [← List.append_assoc]
        exact hsteps

/-- What can be read behind a text that has been passed. -/
structure Resumes (passed : List Char) (here : Cursor) : Prop where
  position : here.position = .behind passed
  tokens : here.tokens =
    (tokensOf (String.ofList here.rest)).map (Token.moved (.behind passed))
  ended : (here.serve .token).1 = none ↔ Trivia true here.rest
  stays : (here.serve .token).1 = none →
    ∀ more step, (((here.serve .token).2.serveAll more).serve step).1 = none
  found : ∀ target before left, here.rest = before ++ target :: left → target ∉ before →
    here.serve (.upTo target) =
      (some (.text (String.ofList before)), ⟨left, .behind (passed ++ before ++ [target])⟩)
  missing : ∀ target, target ∉ here.rest →
    here.serve (.upTo target) = (none, ⟨[], .behind (passed ++ here.rest)⟩)

/-- A cursor at a position of the source resumes reading it. -/
theorem resumes {passed : List Char} (hposition : here.position = .behind passed) :
    here.Resumes passed := by
  have hended : (here.serve .token).1 = none ↔ Trivia true here.rest := by
    rw [serve, Option.map_eq_none_iff]
    exact next_eq_none
  refine ⟨hposition, hposition ▸ here.tokens_eq_moved, hended, ?_, ?_, ?_⟩
  · intro hnone more step
    have hend : (here.serve .token).2.rest = [] := by
      rw [serve, next_of_trivia (hended.1 hnone)]
    exact (serve_at_end (serveAll_at_end hend more) step).1
  · intro target before left hrest hfirst
    rw [serve, takeUntil_of_first hrest hfirst, hposition, Position.afterAll_behind,
      List.append_assoc]
    rfl
  · intro target hnone
    rw [serve, takeUntil_of_none hnone, hposition, Position.afterAll_behind]
    rfl

end Cursor

/-- **Reading resumes after any steps.**  What they have passed is the front of the source.
From there on the tokens are those of the text that is left, at positions counted from there;
there is none exactly if only trivia is left, and then every later step is without an answer;
and the text up to a character is what stands before the first one of its kind. -/
theorem reading_resumes (source : String) (steps : List Cursor.Step) :
    ∃ passed, source.toList = passed ++ ((Cursor.ofText source).serveAll steps).rest ∧
      ((Cursor.ofText source).serveAll steps).Resumes passed := by
  have hstart : (Cursor.ofText source).position = .behind [] := rfl
  obtain ⟨passed, hrest, hposition⟩ := Cursor.serveAll_behind hstart steps
  exact ⟨passed, hrest, Cursor.resumes hposition⟩

/-- A step that stops inside a string leaves a word, and a quote that opens another string:
the columns of the first line are moved, and those of the second line are not. -/
example : ((Cursor.ofText "a \"b;c\nd\" e").serveAll [.token, .upTo ';']).tokens =
    [⟨.identifier, "c", ⟨⟨1, 6⟩, ⟨1, 7⟩⟩⟩, ⟨.identifier, "d", ⟨⟨2, 1⟩, ⟨2, 2⟩⟩⟩,
      ⟨.unknown, "\" e", ⟨⟨2, 2⟩, ⟨2, 5⟩⟩⟩] := by
  decide +kernel

end Slate
