import Slate.Text.Characters
import Slate.Token.Basic

/-!
# Lexemes

A source text is a sequence of lexemes with trivia between them: blank
characters, and comments that start with two slashes and run through the next
newline.  This module cuts both off the front of a text.  Nothing here knows
about positions: what is cut depends on the characters alone.

* `splitTrivia_append`, `splitAtFirst_eq_some`, `cut_append` — no character is
  lost or moved: the pieces concatenate to the text they were cut from;
* `cut_length_lt` — a lexeme has at least one character.

A lexeme is as long as it can be: a word takes all letters, digits and
underscores that follow, a number all digits, `=` and `!` a following `=`.
A string runs to the next double quote, over newlines too, and knows no
escapes.  A character that starts no lexeme is an unknown lexeme of its own,
and an opening quote without a closing one makes the whole rest of the text
one unknown lexeme.
-/

namespace Slate

/-- Cuts the trivia off the front of a text; the flag says whether the text
starts inside a comment. -/
def splitTrivia : Bool → List Char → List Char × List Char
  | _, [] => ([], [])
  | true, c :: rest =>
    let (trivia, left) := splitTrivia (c ≠ '\n') rest
    (c :: trivia, left)
  | false, '/' :: '/' :: rest =>
    let (trivia, left) := splitTrivia true rest
    ('/' :: '/' :: trivia, left)
  | false, c :: rest =>
    if Text.isBlank c then
      let (trivia, left) := splitTrivia false rest
      (c :: trivia, left)
    else ([], c :: rest)

/-- Trivia and the text after it are the text they were cut from. -/
theorem splitTrivia_append (inComment : Bool) (cs : List Char) :
    (splitTrivia inComment cs).1 ++ (splitTrivia inComment cs).2 = cs := by
  fun_induction splitTrivia inComment cs <;> simp_all

/-- Cuts a text at the first `target`: the text before it and the text after
it, or nothing when there is none. -/
def splitAtFirst (target : Char) : List Char → Option (List Char × List Char)
  | [] => none
  | c :: rest =>
    if c = target then some ([], rest)
    else (splitAtFirst target rest).map fun (before, left) => (c :: before, left)

/-- A cut at `target` splits the text there, and there is no `target` before
the cut. -/
theorem splitAtFirst_eq_some {target : Char} {cs before left : List Char} :
    splitAtFirst target cs = some (before, left) ↔
      cs = before ++ target :: left ∧ target ∉ before := by
  induction cs generalizing before with
  | nil => simp [splitAtFirst]
  | cons c rest ih =>
    by_cases h : c = target
    · subst h
      cases before with
      | nil => simp [splitAtFirst, eq_comm]
      | cons b bs => simp +contextual [splitAtFirst]
    · cases before with
      | nil => simp [splitAtFirst, h]
      | cons b bs =>
        simp only [splitAtFirst, if_neg h, Option.map_eq_some_iff, Prod.mk.injEq, Prod.exists,
          List.cons.injEq, List.cons_append, List.mem_cons, not_or]
        constructor
        · rintro ⟨u, v, huv, ⟨rfl, rfl⟩, rfl⟩
          obtain ⟨hcs, hn⟩ := ih.1 huv
          exact ⟨⟨rfl, hcs⟩, fun e => h e.symm, hn⟩
        · rintro ⟨⟨rfl, hcs⟩, _, hn⟩
          exact ⟨bs, left, ih.2 ⟨hcs, hn⟩, ⟨rfl, rfl⟩, rfl⟩

/-- There is no cut exactly when there is no `target`. -/
theorem splitAtFirst_eq_none {target : Char} {cs : List Char} :
    splitAtFirst target cs = none ↔ target ∉ cs := by
  induction cs with
  | nil => simp [splitAtFirst]
  | cons c rest ih =>
    by_cases h : c = target
    · simp [splitAtFirst, h]
    · simp [splitAtFirst, h, ih, Ne.symm h]

/-- A lexeme as it is written in the source, and what a token keeps of it. -/
structure Lexeme where
  kind : TokenKind
  written : List Char
  text : List Char
deriving DecidableEq

namespace Lexeme

/-- A lexeme of which the token keeps everything. -/
def whole (kind : TokenKind) (written : List Char) : Lexeme :=
  ⟨kind, written, written⟩

/-- The characters that are a lexeme wherever they stand outside strings and
comments. -/
def markKind? : Char → Option TokenKind
  | ';' => some .semicolon
  | '(' => some .leftParen
  | ')' => some .rightParen
  | '[' => some .leftBracket
  | ']' => some .rightBracket
  | '{' => some .leftBrace
  | '}' => some .rightBrace
  | ':' => some .typeIndicator
  | ',' => some .comma
  | '+' => some .operator
  | '-' => some .operator
  | '*' => some .operator
  | '~' => some .operator
  | _ => none

/-- The characters that start a word: the ASCII letters and the underscore. -/
def isWordStart (c : Char) : Bool := c.isAlpha || c = '_'

/-- The characters that continue a word: those that start one, and the ASCII
digits. -/
def isWordPart (c : Char) : Bool := c.isAlphanum || c = '_'

/-- A word is a keyword or an identifier. -/
def wordKind (word : List Char) : TokenKind :=
  if String.ofList word ∈ Token.keywords then .keyword else .identifier

/-- Cuts the lexeme that starts with `c` off the text `c :: rest`. -/
def cut (c : Char) (rest : List Char) : Lexeme × List Char :=
  match markKind? c with
  | some kind => (whole kind [c], rest)
  | none =>
    if c = '=' then
      match rest with
      | '=' :: left => (whole .operator ['=', '='], left)
      | _ => (whole .assign ['='], rest)
    else if c = '!' then
      match rest with
      | '=' :: left => (whole .operator ['!', '='], left)
      | _ => (whole .operator ['!'], rest)
    else if c = '"' then
      match splitAtFirst '"' rest with
      | some (body, left) => (⟨.string, '"' :: body ++ ['"'], body⟩, left)
      | none => (whole .unknown ('"' :: rest), [])
    else if c.isDigit then
      (whole .number (c :: rest.takeWhile Char.isDigit), rest.dropWhile Char.isDigit)
    else if isWordStart c then
      let word := c :: rest.takeWhile isWordPart
      (whole (wordKind word) word, rest.dropWhile isWordPart)
    else (whole .unknown [c], rest)

/-- A lexeme and the text after it are the text they were cut from. -/
theorem cut_append (c : Char) (rest : List Char) :
    (cut c rest).1.written ++ (cut c rest).2 = c :: rest := by
  unfold cut
  split
  · simp [whole]
  · split
    · next h => subst h; split <;> simp [whole]
    · split
      · next h => subst h; split <;> simp [whole]
      · split
        · next h =>
          subst h
          split
          · next hs => simp [(splitAtFirst_eq_some.1 hs).1]
          · simp [whole]
        · split
          · simp [whole]
          · split <;> simp [whole]

/-- What is written of a lexeme starts with the character it was cut at. -/
theorem cut_written_head (c : Char) (rest : List Char) :
    ∃ more, (cut c rest).1.written = c :: more := by
  have whole' := cut_append c rest
  cases hw : (cut c rest).1.written with
  | cons d more =>
    rw [hw, List.cons_append, List.cons.injEq] at whole'
    exact ⟨more, by rw [whole'.1]⟩
  | nil =>
    exfalso
    revert hw
    unfold cut
    split
    · simp [whole]
    · split
      · split <;> simp [whole]
      · split
        · split <;> simp [whole]
        · split
          · split <;> simp [whole]
          · split
            · simp [whole]
            · split <;> simp [whole]

/-- A lexeme has at least one character, so less text is left after it. -/
theorem cut_length_lt (c : Char) (rest : List Char) :
    (cut c rest).2.length < rest.length + 1 := by
  obtain ⟨more, hw⟩ := cut_written_head c rest
  have total := congrArg List.length (cut_append c rest)
  simp [hw] at total
  omega

end Lexeme

end Slate
