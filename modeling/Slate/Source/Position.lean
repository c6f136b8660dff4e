/-!
# Positions in a source text

A position names a character of a source text by its line and its column,
both counted from one.  A position never has to be remembered while a text
is read: it is a fold over the characters already passed (`Position.afterAll`),
so the position after a stretch of text depends only on the position before
it and on the characters of the stretch.

* `afterAll_append` — passing `u` and then `v` is passing `u ++ v`.

A `Span` is the half-open range between two positions.
-/

namespace Slate

/-- A place in a source text.  The place `0:0` is before every text; it
marks tree nodes that were not read from one. -/
structure Position where
  line : Nat
  column : Nat
deriving DecidableEq, Inhabited

namespace Position

/-- The first character of a text stands on line 1 in column 1. -/
def first : Position := ⟨1, 1⟩

/-- The place of nodes that come from no text. -/
def nowhere : Position := ⟨0, 0⟩

/-- The position just past a character that stands at `p`: a newline opens
the next line, every other character takes one column. -/
def after (p : Position) (c : Char) : Position :=
  if c = '\n' then ⟨p.line + 1, 1⟩ else ⟨p.line, p.column + 1⟩

/-- The position just past a stretch of characters that starts at `p`. -/
def afterAll (p : Position) (cs : List Char) : Position :=
  cs.foldl after p

@[simp] theorem afterAll_nil (p : Position) : p.afterAll [] = p := rfl

@[simp] theorem afterAll_cons (p : Position) (c : Char) (cs : List Char) :
    p.afterAll (c :: cs) = (p.after c).afterAll cs := rfl

/-- Passing two stretches one after the other is passing their concatenation. -/
theorem afterAll_append (p : Position) (u v : List Char) :
    p.afterAll (u ++ v) = (p.afterAll u).afterAll v := by
  simp [afterAll]

end Position

/-- The half-open range of text between two positions. -/
structure Span where
  start : Position
  stop : Position
deriving DecidableEq, Inhabited

namespace Span

/-- The span of nodes that come from no text. -/
def nowhere : Span := ⟨.nowhere, .nowhere⟩

/-- The span from the start of one span to the stop of another. -/
def through (a b : Span) : Span := ⟨a.start, b.stop⟩

/-- The empty span at the stop of a span. -/
def atStop (a : Span) : Span := ⟨a.stop, a.stop⟩

/-- A span is written by its start, as `line:column`. -/
def text (a : Span) : String :=
  toString a.start.line ++ ":" ++ toString a.start.column

end Span

end Slate
