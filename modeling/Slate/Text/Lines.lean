/-!
# Lines of a text

A text is cut at its newlines.  A newline ends its line and is not part of
it, and a carriage return directly before a newline is part of the line end
too.  A text that ends in a newline has no further, empty line after it; so
the empty text has no line at all.

* `lines_append_newline` — a text without a newline is one line when a
  newline follows it, unless it ends in a carriage return.
-/

namespace Slate.Text

/-- Puts a character in front of the first line, which it opens if there is
none. -/
def consLine (c : Char) : List (List Char) → List (List Char)
  | [] => [[c]]
  | line :: rest => (c :: line) :: rest

/-- The lines of a text, without their line ends. -/
def lines : List Char → List (List Char)
  | [] => []
  | '\n' :: rest => [] :: lines rest
  | '\r' :: '\n' :: rest => [] :: lines rest
  | c :: rest => consLine c (lines rest)

@[simp] theorem lines_nil : lines [] = [] := by simp [lines]

@[simp] theorem lines_newline (rest : List Char) :
    lines ('\n' :: rest) = [] :: lines rest := by simp [lines]

/-- A character that is neither a newline nor the first half of a line end
belongs to the line that follows it. -/
theorem lines_cons {c : Char} {rest : List Char} (hn : c ≠ '\n') (hr : c ≠ '\r') :
    lines (c :: rest) = consLine c (lines rest) := by
  rw [lines]
  · exact fun h => absurd h hn
  · exact fun _ h => absurd h hr

/-- Text free of line end characters, then a newline: one line. -/
theorem lines_append_newline (line rest : List Char)
    (hn : '\n' ∉ line) (hr : '\r' ∉ line) :
    lines (line ++ '\n' :: rest) = line :: lines rest := by
  induction line with
  | nil => simp
  | cons c cs ih =>
    simp only [List.mem_cons, not_or] at hn hr
    rw [List.cons_append, lines_cons (Ne.symm hn.1) (Ne.symm hr.1), ih hn.2 hr.2]
    rfl

end Slate.Text
