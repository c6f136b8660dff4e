import Slate.Source.Position
import Slate.Text.Lines

/-!
# Diagnostics

A diagnostic is what the front end says about a program that it rejects: a
message, the span of text it is about, and the file that text was read from.
It has two written forms.

* `text` is the message and, where the file is known, the place in it.
* `render` adds the line of the source that the span starts in, and under it
  carets.  Carets stand below the span when it ends in the line it starts in,
  behind its start; otherwise one caret marks the start.  A span that starts
  in no line of the source adds nothing.

Line 0 and column 0 are read as line 1 and column 1 here, so that a span from
nowhere is drawn at the start of the text.
-/

namespace Slate

/-- What the front end says about a program that it rejects. -/
structure Diagnostic where
  message : String
  span : Option Span
  file : Option String
deriving DecidableEq, Inhabited

namespace Diagnostic

/-- The message, and below it the place it is about. -/
def text (d : Diagnostic) : String :=
  "[error] " ++ d.message ++
    match d.file, d.span with
    | some file, some span => "\n  --> " ++ file ++ ":" ++ span.text
    | some file, none => "\n  --> " ++ file
    | none, _ => ""

/-- A text of one character, repeated. -/
def fill (n : Nat) (c : Char) : String := String.ofList (List.replicate n c)

/-- The column that a span is drawn at. -/
def caretColumn (span : Span) : Nat := max span.start.column 1

/-- The number of carets below a span. -/
def caretCount (span : Span) : Nat :=
  if span.stop.line = span.start.line && caretColumn span < span.stop.column then
    span.stop.column - caretColumn span
  else 1

/-- A source line with its number, and the carets under it. -/
def excerpt (span : Span) (line : List Char) : String :=
  let number := toString span.start.line
  "\n" ++ number ++ " | " ++ String.ofList line ++
    "\n" ++ fill number.length ' ' ++ " | " ++
    fill (caretColumn span - 1) ' ' ++ fill (caretCount span) '^'

/-- The source line that a span starts in. -/
def lineOf? (source : String) (span : Span) : Option (List Char) :=
  (Text.lines source.toList)[span.start.line - 1]?

/-- The diagnostic with the source line it is about. -/
def render (d : Diagnostic) (source : String) : String :=
  match d.span with
  | none => d.text
  | some span =>
    match lineOf? source span with
    | none => d.text
    | some line => d.text ++ excerpt span line

/-- A span that starts in a line of the source adds that line and its carets. -/
theorem render_of_line {d : Diagnostic} {source : String} {span : Span} {line : List Char}
    (hs : d.span = some span) (hl : lineOf? source span = some line) :
    d.render source = d.text ++ excerpt span line := by
  simp [render, hs, hl]

end Diagnostic

end Slate
