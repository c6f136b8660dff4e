import Slate.Token.Lexeme

/-!
# Reading tokens

A cursor is a place in a source text: what is left to read and the position
of its first character.  Reading a token passes the trivia before it and the
lexeme itself, and both spans of positions come from the characters passed
(`Position.afterAll`).

* `next_length_lt` — a token that is read leaves less text behind;
* `tokens_eq` — the tokens of a text, one step at a time.
-/

namespace Slate

/-- A place in a source text. -/
structure Cursor where
  rest : List Char
  position : Position
deriving DecidableEq

namespace Cursor

/-- The start of a text. -/
def ofText (source : String) : Cursor := ⟨source.toList, .first⟩

/-- Reads the next token.  Without one, the trivia that is left is passed. -/
def next (here : Cursor) : Option Token × Cursor :=
  match splitTrivia false here.rest with
  | (trivia, []) => (none, ⟨[], here.position.afterAll trivia⟩)
  | (trivia, c :: rest) =>
    let (lexeme, left) := Lexeme.cut c rest
    let start := here.position.afterAll trivia
    let stop := start.afterAll lexeme.written
    (some ⟨lexeme.kind, String.ofList lexeme.text, ⟨start, stop⟩⟩, ⟨left, stop⟩)

/-- Reads text up to the next `target` and passes the target too.  Without
one, everything that is left is passed and there is no answer. -/
def takeUntil (here : Cursor) (target : Char) : Option String × Cursor :=
  match splitAtFirst target here.rest with
  | some (before, left) =>
    (some (String.ofList before), ⟨left, (here.position.afterAll before).after target⟩)
  | none => (none, ⟨[], here.position.afterAll here.rest⟩)

/-- A token that is read leaves less text behind. -/
theorem next_length_lt {here there : Cursor} {t : Token} (h : here.next = (some t, there)) :
    there.rest.length < here.rest.length := by
  unfold next at h
  have whole := splitTrivia_append false here.rest
  split at h
  · simp at h
  · next trivia c rest hs =>
    simp only [Prod.mk.injEq] at h
    obtain ⟨_, rfl⟩ := h
    rw [hs] at whole
    have := Lexeme.cut_length_lt c rest
    simp [← whole]
    omega

/-- All tokens from the cursor on. -/
def tokens (here : Cursor) : List Token :=
  match h : here.next with
  | (none, _) => []
  | (some t, there) =>
    have := next_length_lt h
    t :: there.tokens
termination_by here.rest.length

/-- The tokens from a cursor on are the next one and those after it. -/
theorem tokens_eq (here : Cursor) :
    here.tokens = match here.next with
      | (none, _) => []
      | (some t, there) => t :: there.tokens := by
  rw [tokens]
  split <;> simp_all

end Cursor

/-- The tokens of a source text. -/
def tokensOf (source : String) : List Token :=
  (Cursor.ofText source).tokens

end Slate
