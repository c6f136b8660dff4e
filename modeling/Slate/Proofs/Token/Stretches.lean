import Slate.Proofs.Token.Spelled
import Slate.Proofs.Token.Tiling

/-!
# The text from one token to another

A lexeme starts and ends with a visible character.  The exception is an opening quote without
a closing one: that lexeme runs to the end of the text, whatever stands there
(`Lexeme.cut_ends`).

So the text from one token to the same or a later one starts with a visible character, and it
ends with one or with the whole text (`Cursor.stretch`).  Where it starts and stops is what
the spans of the two tokens say.
-/

namespace Slate

/-! ## Visible characters -/

namespace Text

/-- The character is not blank. -/
def Visible (c : Char) : Prop := isBlank c = false

instance (c : Char) : Decidable (Visible c) := inferInstanceAs (Decidable (_ = _))

/-- A visible character ends no line. -/
theorem Visible.ne_newline {c : Char} (h : Visible c) : c ≠ '\n' := by
  rintro rfl
  revert h
  decide

/-- Nor does it come before such an end. -/
theorem Visible.ne_carriageReturn {c : Char} (h : Visible c) : c ≠ '\r' := by
  rintro rfl
  revert h
  decide

/-- The characters of words are visible. -/
theorem visible_of_isWordPart {c : Char} (h : Lexeme.isWordPart c = true) : Visible c := by
  rw [Lexeme.isWordPart_iff, Lexeme.isWordStart_iff, Lexeme.isDigit_iff] at h
  simp only [Visible, isBlank, Bool.or_eq_false_iff, Bool.and_eq_false_iff, decide_eq_false_iff_not,
    beq_eq_false_iff_ne, ne_eq]
  omega

/-- The last character is visible. -/
def EndsVisible (cs : List Char) : Prop := ∃ last, cs.getLast? = some last ∧ Visible last

/-- What ends visibly does so behind anything. -/
theorem EndsVisible.behind {cs : List Char} (h : EndsVisible cs) (front : List Char) :
    EndsVisible (front ++ cs) := by
  obtain ⟨last, hlast, hvisible⟩ := h
  exact ⟨last, by rw [List.getLast?_append, hlast]; rfl, hvisible⟩

/-- A visible character by itself ends visibly. -/
theorem endsVisible_singleton {c : Char} (h : Visible c) : EndsVisible [c] := ⟨c, rfl, h⟩

/-- A visible character and more of one kind, which are all visible. -/
theorem endsVisible_takeWhile {c : Char} (hc : Visible c) {p : Char → Bool}
    (hp : ∀ d, p d = true → Visible d) (rest : List Char) :
    EndsVisible (c :: rest.takeWhile p) := by
  have hall : ∀ d ∈ c :: rest.takeWhile p, Visible d :=
    List.forall_mem_cons.2 ⟨hc, fun d hd => hp d (List.all_eq_true.1 List.all_takeWhile d hd)⟩
  have hlast := List.getLast?_eq_some_getLast (List.cons_ne_nil c (rest.takeWhile p))
  exact ⟨_, hlast, hall _ (List.getLast_mem _)⟩

end Text

open Text

/-! ## Lexemes -/

/-- What is left behind trivia starts with a visible character. -/
theorem visible_of_splitTrivia {inComment : Bool} {cs : List Char} {c : Char} {rest : List Char}
    (h : (splitTrivia inComment cs).2 = c :: rest) : Visible c := by
  fun_induction splitTrivia inComment cs with
  | case1 => cases h
  | case2 d more trivia left heq ih =>
      rw [heq] at ih
      exact ih h
  | case3 more trivia left heq ih =>
      rw [heq] at ih
      exact ih h
  | case4 d more hslash hblank trivia left heq ih =>
      rw [heq] at ih
      exact ih h
  | case5 d more hslash hblank =>
      cases h
      exact Bool.eq_false_iff.2 hblank

/-- A lexeme ends with a visible character, or it is an opening quote and all the text behind
it. -/
theorem Lexeme.cut_ends {c : Char} (hc : Visible c) (rest : List Char) :
    EndsVisible (cut c rest).1.written ∨
      ((cut c rest).1.kind = .unknown ∧ (cut c rest).2 = []) := by
  have hsingle : EndsVisible [c] := endsVisible_singleton hc
  have hdigit : ∀ d : Char, d.isDigit = true → Visible d := fun d hd =>
    visible_of_isWordPart (isWordPart_iff.2 (.inr hd))
  unfold cut
  split
  · exact .inl hsingle
  · split
    · next heq =>
      subst heq
      split
      · exact .inl (hsingle.behind ['='])
      · exact .inl hsingle
    · split
      · split
        · exact .inl ((endsVisible_singleton (by decide)).behind ['!'])
        · exact .inl (endsVisible_singleton (by decide))
      · split
        · split
          · next body left _ =>
            exact .inl ((endsVisible_singleton (by decide)).behind ('"' :: body))
          · exact .inr ⟨rfl, rfl⟩
        · split
          · exact .inl (endsVisible_takeWhile hc hdigit rest)
          · split
            · exact .inl (endsVisible_takeWhile hc (fun d => visible_of_isWordPart) rest)
            · exact .inl hsingle

/-! ## From one token to another -/

/-- The stretch of text from the start of one token to the stop of another, with the text
before it and the text that is left. -/
structure Stretch (before inside left : List Char) (t u : Token) : Prop where
  start : t.span.start = .behind before
  stop : u.span.stop = .behind (before ++ inside)
  opens : ∃ c more, inside = c :: more ∧ Visible c
  closes : EndsVisible inside ∨ (u.kind = .unknown ∧ left = [])

/-- A token begins visibly, and ends so unless it is the rest of the source. -/
theorem Cursor.next_visible {here there : Cursor} {t : Token} (h : here.next = (some t, there)) :
    (∃ c more, t.written = c :: more ∧ Visible c) ∧
      (EndsVisible t.written ∨ (t.kind = .unknown ∧ there.rest = [])) := by
  unfold next at h
  split at h
  · cases h
  · next trivia c rest hsplit =>
    have hc : Visible c := visible_of_splitTrivia (congrArg Prod.snd hsplit)
    have hwritten := Lexeme.written_cut c rest
    have hhead := Lexeme.cut_written_head c rest
    have hends := Lexeme.cut_ends hc rest
    generalize Lexeme.cut c rest = pair at h hwritten hhead hends
    obtain ⟨lexeme, left⟩ := pair
    simp only [Prod.mk.injEq, Option.some.injEq] at h hwritten hhead hends
    obtain ⟨rfl, rfl⟩ := h
    obtain ⟨more, hmore⟩ := hhead
    simp only [Token.written, String.toList_ofList, ← hwritten]
    exact ⟨⟨c, more, hmore, hc⟩, hends⟩

/-- One token behind the gap before it. -/
theorem Cursor.stretch_of_next {here there : Cursor} {t : Token} {passed : List Char}
    (h : here.next = (some t, there)) (hposition : here.position = .behind passed) :
    ∃ gap, here.rest = gap ++ t.written ++ there.rest ∧
      there.position = .behind (passed ++ gap ++ t.written) ∧
      Stretch (passed ++ gap) t.written there.rest t t := by
  obtain ⟨gap, _, hrest, _, hstands, hthere⟩ := next_eq_some h hposition
  obtain ⟨hopens, hcloses⟩ := next_visible h
  have hspan : t.span = ⟨.behind (passed ++ gap), .behind (passed ++ gap ++ t.written)⟩ := hstands
  exact ⟨gap, hrest, hthere, by rw [hspan], by rw [hspan], hopens, hcloses⟩

/-- **The text from one token to the same or a later one** starts with a visible character,
and ends with one or with the whole text. -/
theorem Cursor.stretch (here : Cursor) {passed : List Char}
    (hposition : here.position = .behind passed) {i j : Nat} (hij : i ≤ j) {t u : Token}
    (ht : here.tokens[i]? = some t) (hu : here.tokens[j]? = some u) :
    ∃ before inside left, here.rest = before ++ inside ++ left ∧
      Stretch (passed ++ before) inside left t u := by
  rw [tokens_eq] at ht hu
  cases hnext : here.next with
  | mk v? there =>
      cases v? with
      | none =>
          rw [hnext] at ht
          cases ht
      | some v =>
          have hshorter := next_length_lt hnext
          obtain ⟨gap, hrest, hthere, hv⟩ := stretch_of_next hnext hposition
          rw [hnext] at ht hu
          cases j with
          | zero =>
              -- both are the next token
              obtain rfl := Nat.le_zero.1 hij
              cases ht
              cases hu
              exact ⟨gap, _, there.rest, hrest, hv⟩
          | succ j =>
              cases i with
              | zero =>
                  -- the other one is behind the next token, and the stretch ends where it does
                  cases ht
                  obtain ⟨before, inside, left, hbehind, hlast⟩ :=
                    there.stretch hthere (Nat.le_refl j) hu hu
                  refine ⟨gap, t.written ++ before ++ inside, left, ?_, hv.start, ?_, ?_, ?_⟩
                  · rw [hrest, hbehind]
                    simp
                  · rw [hlast.stop]
                    simp
                  · obtain ⟨c, more, hmore, hc⟩ := hv.opens
                    exact ⟨c, more ++ before ++ inside, by simp [hmore], hc⟩
                  · exact hlast.closes.imp_left fun h => h.behind _
              | succ i =>
                  -- both are behind the next token
                  obtain ⟨before, inside, left, hbehind, hstretch⟩ :=
                    there.stretch hthere (Nat.le_of_succ_le_succ hij) ht hu
                  refine ⟨gap ++ v.written ++ before, inside, left, ?_, ?_⟩
                  · rw [hrest, hbehind]
                    simp
                  · simpa using hstretch
termination_by here.rest.length

/-- The same of the tokens of a whole source. -/
theorem tokens_stretch {source : String} {i j : Nat} (hij : i ≤ j) {t u : Token}
    (ht : (tokensOf source)[i]? = some t) (hu : (tokensOf source)[j]? = some u) :
    ∃ before inside left, source.toList = before ++ inside ++ left ∧
      Stretch before inside left t u := by
  have hposition : (Cursor.ofText source).position = .behind [] := rfl
  exact (Cursor.ofText source).stretch hposition hij ht hu

end Slate
