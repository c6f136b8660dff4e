import Slate.Token.Cursor

/-!
# Lexemes written one after the other

Reading undoes writing: when lexemes are written one after the other, with a blank where
two of them would run together, the tokens of the text are these lexemes
(`tokensOf_spelled`).  Two lexemes run together when the first one would take the first
character of the second for its own: a word a letter, a digit or an underscore, a number
a digit, and `=` and `!` a further `=`.  Nothing else needs a blank.

Only lexemes that the language has are written (`Lexeme.Genuine`).  Text between quotes
can be anything without a quote, newlines and slashes included.
-/

namespace Slate

/-- What the grammar sees of the token. -/
def Token.face (t : Token) : TokenKind × String := (t.kind, t.text)

namespace Lexeme

/-- What the grammar sees of the lexeme. -/
def face (x : Lexeme) : TokenKind × String := (x.kind, String.ofList x.text)

/-- The lexemes of the language. -/
inductive Genuine : Lexeme → Prop
  | mark {c : Char} {kind : TokenKind} (known : markKind? c = some kind) :
      Genuine (whole kind [c])
  | assign : Genuine (whole .assign ['='])
  | equal : Genuine (whole .operator ['=', '='])
  | not : Genuine (whole .operator ['!'])
  | notEqual : Genuine (whole .operator ['!', '='])
  | string {body : List Char} (unquoted : '"' ∉ body) :
      Genuine ⟨.string, '"' :: body ++ ['"'], body⟩
  | number {c : Char} {more : List Char} (first : c.isDigit = true)
      (others : ∀ d ∈ more, d.isDigit = true) : Genuine (whole .number (c :: more))
  | word {c : Char} {more : List Char} (first : isWordStart c = true)
      (others : ∀ d ∈ more, isWordPart d = true) :
      Genuine (whole (wordKind (c :: more)) (c :: more))

/-- The character would be taken for a part of the lexeme that stands before it. -/
def runsInto (x : Lexeme) (c : Char) : Bool :=
  match x.kind with
  | .number => c.isDigit
  | .keyword => isWordPart c
  | .identifier => isWordPart c
  | .assign => c = '='
  | .operator => x.written = ['!'] && c = '='
  | _ => false

/-- The lexeme in front of a text, with a blank between them if they would run together. -/
def before (x : Lexeme) (text : List Char) : List Char :=
  if text.head?.any x.runsInto then x.written ++ ' ' :: text else x.written ++ text

/-- The lexemes one after the other. -/
def spelled : List Lexeme → List Char
  | [] => []
  | x :: xs => x.before (spelled xs)

/-! ## Characters of words -/

/-- Digits by their numbers. -/
theorem isDigit_iff {c : Char} : c.isDigit = true ↔ 48 ≤ c.toNat ∧ c.toNat ≤ 57 := by
  simp only [Char.isDigit, Bool.and_eq_true, decide_eq_true_eq, ge_iff_le, UInt32.le_iff_toNat_le]
  exact .rfl

/-- Letters and the underscore by their numbers. -/
theorem isWordStart_iff {c : Char} : isWordStart c = true ↔
    ((65 ≤ c.toNat ∧ c.toNat ≤ 90) ∨ (97 ≤ c.toNat ∧ c.toNat ≤ 122)) ∨ c.toNat = 95 := by
  have hunderscore : c = '_' ↔ c.toNat = 95 := by
    rw [← Char.toNat_inj]
    rfl
  have hupper : c.isUpper = true ↔ 65 ≤ c.toNat ∧ c.toNat ≤ 90 := by
    show decide (c.val ≥ 'A'.val ∧ c.val ≤ 'Z'.val) = true ↔ _
    simp only [decide_eq_true_eq, ge_iff_le, UInt32.le_iff_toNat_le]
    exact .rfl
  have hlower : c.isLower = true ↔ 97 ≤ c.toNat ∧ c.toNat ≤ 122 := by
    show (decide (c.val ≥ 'a'.val) && decide (c.val ≤ 'z'.val)) = true ↔ _
    simp only [Bool.and_eq_true, decide_eq_true_eq, ge_iff_le, UInt32.le_iff_toNat_le]
    exact .rfl
  show ((c.isUpper || c.isLower) || decide (c = '_')) = true ↔ _
  simp only [Bool.or_eq_true, decide_eq_true_eq, hupper, hlower, hunderscore]

/-- A word goes on with what starts one, and with digits. -/
theorem isWordPart_iff {c : Char} :
    isWordPart c = true ↔ isWordStart c = true ∨ c.isDigit = true := by
  simp only [isWordPart, isWordStart, Char.isAlphanum, Bool.or_eq_true]
  exact or_right_comm

/-! ## Cutting a lexeme off -/

/-- A blank is never taken for a part of a lexeme. -/
theorem runsInto_blank (x : Lexeme) : x.runsInto ' ' = false := by
  unfold runsInto
  split <;> first | decide | simp

/-- Characters of a class are taken up to the first one that is not of it. -/
theorem takeWhile_exact {p : Char → Bool} {more rest : List Char} (hmore : ∀ d ∈ more, p d = true)
    (hrest : rest.head?.any p = false) : (more ++ rest).takeWhile p = more := by
  rw [List.takeWhile_append_of_pos hmore]
  cases rest with
  | nil => simp
  | cons d rest => simp [show p d = false from hrest]

/-- What is left behind a longest run begins where the run ends. -/
theorem dropWhile_exact {p : Char → Bool} {more rest : List Char} (hmore : ∀ d ∈ more, p d = true)
    (hrest : rest.head?.any p = false) : (more ++ rest).dropWhile p = rest := by
  rw [List.dropWhile_append_of_pos hmore]
  cases rest with
  | nil => rfl
  | cons d rest => simp [show p d = false from hrest]

/-- A word runs into the parts of words. -/
theorem runsInto_word (word : List Char) : runsInto (whole (wordKind word) word) = isWordPart := by
  unfold wordKind
  split <;> rfl

/-- What a word consists of is no mark, sign or quote. -/
theorem cut_wordPart {c : Char} (h : isWordPart c = true) (rest : List Char) :
    cut c rest =
      if c.isDigit then
        (whole .number (c :: rest.takeWhile Char.isDigit), rest.dropWhile Char.isDigit)
      else if isWordStart c then
        (whole (wordKind (c :: rest.takeWhile isWordPart)) (c :: rest.takeWhile isWordPart),
          rest.dropWhile isWordPart)
      else (whole .unknown [c], rest) := by
  have hmark : markKind? c = none := by
    unfold markKind?
    split <;> first | rfl | exact absurd h (by decide)
  have hassign : c ≠ '=' := by
    rintro rfl
    exact absurd h (by decide)
  have hnot : c ≠ '!' := by
    rintro rfl
    exact absurd h (by decide)
  have hquote : c ≠ '"' := by
    rintro rfl
    exact absurd h (by decide)
  simp only [cut, hmark, hassign, hnot, hquote, if_false]

/-- A digit begins a number, with all digits behind it. -/
theorem cut_number {c : Char} (h : c.isDigit = true) (rest : List Char) :
    cut c rest =
      (whole .number (c :: rest.takeWhile Char.isDigit), rest.dropWhile Char.isDigit) := by
  rw [cut_wordPart (isWordPart_iff.2 (.inr h)), if_pos h]

/-- A letter begins a word, with all parts of words behind it. -/
theorem cut_word {c : Char} (h : isWordStart c = true) (rest : List Char) :
    cut c rest = (whole (wordKind (c :: rest.takeWhile isWordPart))
      (c :: rest.takeWhile isWordPart), rest.dropWhile isWordPart) := by
  have hdigit : ¬ c.isDigit = true := by
    have hstart := isWordStart_iff.1 h
    rw [isDigit_iff]
    omega
  rw [cut_wordPart (isWordPart_iff.2 (.inl h)), if_neg hdigit, if_pos h]

/-- A lexeme is cut off in front of a text that it does not run into. -/
theorem Genuine.cut_eq {x : Lexeme} (h : x.Genuine) {rest : List Char}
    (hrest : rest.head?.any x.runsInto = false) :
    ∃ c more, x.written = c :: more ∧ Lexeme.cut c (more ++ rest) = (x, rest) := by
  cases h with
  | mark known => exact ⟨_, [], rfl, by simp [cut, known]⟩
  | assign =>
      refine ⟨'=', [], rfl, ?_⟩
      cases rest with
      | nil => rfl
      | cons d rest =>
          have hne : d ≠ '=' := by
            simpa [runsInto, whole] using hrest
          simp [cut, markKind?, hne]
  | equal => exact ⟨'=', ['='], rfl, rfl⟩
  | not =>
      refine ⟨'!', [], rfl, ?_⟩
      cases rest with
      | nil => rfl
      | cons d rest =>
          have hne : d ≠ '=' := by
            simpa [runsInto, whole] using hrest
          simp [cut, markKind?, hne]
  | notEqual => exact ⟨'!', ['='], rfl, rfl⟩
  | @string body unquoted =>
      refine ⟨'"', body ++ ['"'], rfl, ?_⟩
      have hsplit : splitAtFirst '"' (body ++ '"' :: rest) = some (body, rest) :=
        splitAtFirst_eq_some.2 ⟨rfl, unquoted⟩
      simp [cut, markKind?, hsplit]
  | @number c more first others =>
      refine ⟨c, more, rfl, ?_⟩
      rw [cut_number first, takeWhile_exact others hrest, dropWhile_exact others hrest]
  | @word c more first others =>
      rw [runsInto_word] at hrest
      refine ⟨c, more, rfl, ?_⟩
      rw [cut_word first, takeWhile_exact others hrest, dropWhile_exact others hrest]

/-- Text is no trivia when it starts with a visible character that is no slash. -/
theorem splitTrivia_visible {c : Char} (hslash : c ≠ '/') (hblank : Text.isBlank c = false)
    (rest : List Char) : splitTrivia false (c :: rest) = ([], c :: rest) := by
  unfold splitTrivia
  split
  · next heq => cases heq
  · next heq _ => cases heq
  · next heq => exact (hslash (List.cons.inj heq).1).elim
  · next heq =>
    cases heq
    simp [hblank]

/-- No lexeme starts like trivia. -/
theorem Genuine.splitTrivia_eq {x : Lexeme} (h : x.Genuine) {c : Char} {more : List Char}
    (hwritten : x.written = c :: more) (rest : List Char) :
    splitTrivia false (c :: rest) = ([], c :: rest) := by
  have hword : ∀ d, isWordPart d = true → splitTrivia false (d :: rest) = ([], d :: rest) := by
    intro d hd
    refine splitTrivia_visible ?_ ?_ rest
    · rintro rfl
      exact absurd hd (by decide)
    · rw [isWordPart_iff, isWordStart_iff, isDigit_iff] at hd
      simp [Text.isBlank]
      omega
  cases h with
  | mark known =>
      cases hwritten
      unfold markKind? at known
      split at known
      all_goals first
        | exact splitTrivia_visible (by decide) (by decide) rest
        | cases known
  | number first _ =>
      cases hwritten
      exact hword _ (isWordPart_iff.2 (.inr first))
  | word first _ =>
      cases hwritten
      exact hword _ (isWordPart_iff.2 (.inl first))
  | _ =>
      cases hwritten
      exact splitTrivia_visible (by decide) (by decide) rest

end Lexeme

/-! ## Reading what was written -/

open Lexeme

namespace Cursor

/-- A lexeme is read in front of a text that it does not run into. -/
theorem tokens_written {x : Lexeme} (h : x.Genuine) {rest : List Char}
    (hrest : rest.head?.any x.runsInto = false) (p : Position) :
    tokens ⟨x.written ++ rest, p⟩ =
      ⟨x.kind, String.ofList x.text, ⟨p, p.afterAll x.written⟩⟩ ::
        tokens ⟨rest, p.afterAll x.written⟩ := by
  obtain ⟨c, more, hwritten, hcut⟩ := h.cut_eq hrest
  have htrivia := h.splitTrivia_eq hwritten (more ++ rest)
  rw [tokens_eq]
  simp [next, hwritten, htrivia, hcut]

/-- Blanks are passed. -/
theorem tokens_blank (rest : List Char) (p : Position) :
    tokens ⟨' ' :: rest, p⟩ = tokens ⟨rest, p.after ' '⟩ := by
  have hnext : next ⟨' ' :: rest, p⟩ = next ⟨rest, p.after ' '⟩ := by
    have htrivia : splitTrivia false (' ' :: rest) =
        (' ' :: (splitTrivia false rest).1, (splitTrivia false rest).2) := rfl
    unfold next
    rw [htrivia]
    rcases splitTrivia false rest with ⟨trivia, _ | ⟨c, left⟩⟩
    · rfl
    · rfl
  rw [tokens_eq, hnext, ← tokens_eq]

/-- Genuine lexemes with blanks between them are the tokens that are read. -/
theorem tokens_spelled {xs : List Lexeme} (h : ∀ x ∈ xs, x.Genuine) (p : Position) :
    (tokens ⟨spelled xs, p⟩).map Token.face = xs.map face := by
  induction xs generalizing p with
  | nil =>
      rw [spelled, tokens_eq]
      rfl
  | cons x xs ih =>
      obtain ⟨hx, hxs⟩ := List.forall_mem_cons.1 h
      rw [spelled, before]
      split
      · have hblank : (' ' :: spelled xs).head?.any x.runsInto = false := x.runsInto_blank
        rw [tokens_written hx hblank, tokens_blank, List.map_cons, ih hxs]
        rfl
      · next hruns =>
        rw [tokens_written hx (Bool.eq_false_iff.2 hruns), List.map_cons, ih hxs]
        rfl

end Cursor

/-- **Reading undoes writing.**  The tokens of lexemes written one after the other are these
lexemes. -/
theorem tokensOf_spelled {xs : List Lexeme} (h : ∀ x ∈ xs, x.Genuine) :
    (tokensOf (String.ofList (spelled xs))).map Token.face = xs.map Lexeme.face := by
  unfold tokensOf Cursor.ofText
  rw [String.toList_ofList]
  exact Cursor.tokens_spelled h .first

end Slate
