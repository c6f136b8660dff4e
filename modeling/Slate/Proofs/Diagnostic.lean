import Slate.FrontEnd
import Slate.Proofs.Grammar.Known
import Slate.Proofs.Grammar.PlacedReads
import Slate.Proofs.Text.Lines
import Slate.Proofs.Token.Stretches
import Slate.Proofs.Typing.Faults

/-!
# Diagnostics point at the source

Where the front end refuses a source, its diagnostic has a span, and this is text of the
source: it runs from the start of a token to the stop of the same or a later one.  The one
exception is a source that ends too early; its diagnostic has the empty span behind the last
token.

The diagnostic is written with the line that its span starts in and with carets below
(`Diagnostic.Shows`).  The line is the whole line, without what ends it.  The carets stand
below the characters of the span when it has some and ends in that line; otherwise one caret
stands where it starts.

A span from one token to another starts in a line of the source since tokens start with a
visible character.  The place behind the last token is in one because, in a source that ends
too early, this is a token of the language and so ends with a visible character.  An opening
quote without a closing one would end behind the last newline of the text.
-/

namespace Slate

open Text

namespace Diagnostic

/-- The diagnostic with a span is written with the line of the source that the span starts
in.  In this line, `before` stands before the span, `under` is what is marked, and `after`
stands behind it. -/
structure Shows (d : Diagnostic) (source : String) (span : Span)
    (above before under after below : List Char) : Prop where
  line : LineBetween source.toList above (before ++ under ++ after) below
  start : span.start = .behind (above ++ before)
  within : span.stop.line = span.start.line → span.stop = .behind (above ++ before ++ under)
  beyond : span.stop.line ≠ span.start.line → under = []
  rendered : d.render source = d.text ++
    "\n" ++ toString span.start.line ++ " | " ++ String.ofList (before ++ under ++ after) ++
    "\n" ++ fill (toString span.start.line).length ' ' ++ " | " ++
      fill before.length ' ' ++ fill (max under.length 1) '^'

variable {d : Diagnostic} {source : String} {span : Span}

/-- The carets below a span that is marked in its line. -/
theorem caretCount_eq {above before under : List Char} (habove : StartsLine above)
    (hline : '\n' ∉ before ++ under) (hstart : span.start = .behind (above ++ before))
    (hwithin : span.stop.line = span.start.line → span.stop = .behind (above ++ before ++ under))
    (hbeyond : span.stop.line ≠ span.start.line → under = []) :
    caretColumn span = before.length + 1 ∧ caretCount span = max under.length 1 := by
  have hbefore : '\n' ∉ before := fun h => hline (List.mem_append_left under h)
  rw [Position.behind_lineStart habove hbefore] at hstart
  have hcolumn : caretColumn span = before.length + 1 := by
    simp [caretColumn, hstart]
    omega
  refine ⟨hcolumn, ?_⟩
  unfold caretCount
  rw [hcolumn]
  by_cases hsame : span.stop.line = span.start.line
  · have hstop := hwithin hsame
    rw [List.append_assoc, Position.behind_lineStart habove hline] at hstop
    simp only [hstop, hstart, List.length_append, decide_true, Bool.true_and, decide_eq_true_eq]
    split <;> omega
  · simp [hsame, hbeyond hsame]

/-- Around a stretch of text there is the line that is shown. -/
theorem shows_around {passed inside left : List Char} (hspan : d.span = some span)
    (hsource : source.toList = passed ++ inside ++ left) (hone : '\n' ∉ inside)
    (hcut : EndsVisible (passed ++ inside) ∨ ∀ more, left ≠ '\n' :: more)
    (hsome : inside ++ left = [] → EndsVisible passed)
    (hstart : span.start = .behind passed)
    (hwithin : span.stop.line = span.start.line → span.stop = .behind (passed ++ inside))
    (hbeyond : span.stop.line ≠ span.start.line → inside = []) :
    ∃ above before under after below, d.Shows source span above before under after below := by
  have hcut' : (passed ++ inside).getLast? ≠ some '\r' ∨ ∀ more, left ≠ '\n' :: more := by
    refine hcut.imp_left ?_
    rintro ⟨last, hlast, hvisible⟩ hreturn
    exact hvisible.ne_carriageReturn (Option.some.inj (hlast.symm.trans hreturn))
  obtain ⟨above, before, after, below, rfl, rfl, hline⟩ := exists_line_around hone hcut'
  rw [← hsource] at hline
  have hne : (before ++ inside ++ after) ++ below ≠ [] := by
    intro hnone
    simp only [List.append_eq_nil_iff] at hnone
    obtain ⟨⟨⟨rfl, rfl⟩, rfl⟩, rfl⟩ := hnone
    obtain ⟨last, hlast, hvisible⟩ := hsome rfl
    rw [List.append_nil] at hlast
    rcases hline.starts with rfl | hnewline
    · cases hlast
    · exact hvisible.ne_newline (Option.some.inj (hlast.symm.trans hnewline))
  have hmarked : '\n' ∉ before ++ inside := fun h => hline.oneLine (List.mem_append_left after h)
  have hbefore : '\n' ∉ before := fun h => hmarked (List.mem_append_left inside h)
  obtain ⟨hcolumn, hcount⟩ := caretCount_eq hline.starts hmarked hstart hwithin hbeyond
  have hnumber : span.start.line - 1 = above.count '\n' := by
    rw [hstart, Position.behind_lineStart hline.starts hbefore, Nat.add_sub_cancel_left]
  have hshown : lineOf? source span = some (before ++ inside ++ after) := by
    rw [lineOf?, hnumber, hline.line? hne]
  refine ⟨above, before, inside, after, below, hline, hstart, hwithin, hbeyond, ?_⟩
  rw [render_of_line hspan hshown, excerpt, hcolumn, hcount, Nat.add_sub_cancel]
  simp only [String.append_assoc]

/-- A span from one token of the source to the same or a later one is shown. -/
theorem shows_tokens (hspan : d.span = some span) (hfrom : span.From (tokensOf source)) :
    ∃ above before under after below, d.Shows source span above before under after below := by
  obtain ⟨i, j, t, u, hij, ht, hu, rfl⟩ := hfrom
  obtain ⟨passed, inside, left, hsource, hstretch⟩ := tokens_stretch hij ht hu
  obtain ⟨c, more, hinside, hc⟩ := hstretch.opens
  have hne : inside ++ left ≠ [] := by
    rw [hinside]
    exact List.cons_ne_nil c (more ++ left)
  have hlines : u.span.stop.line = t.span.start.line + inside.count '\n' := by
    rw [hstretch.start, hstretch.stop]
    simp [Position.behind, List.count_append]
    omega
  by_cases hone : '\n' ∈ inside
  · -- the span ends in a later line, and what is marked is no text
    have hmore : u.span.stop.line ≠ t.span.start.line := by
      have := List.count_pos_iff.2 hone
      omega
    have hempty : source.toList = passed ++ [] ++ (inside ++ left) := by simpa using hsource
    refine shows_around hspan hempty List.not_mem_nil (.inr ?_) (fun hnone => absurd hnone hne)
      hstretch.start (fun h => absurd h hmore) (fun _ => rfl)
    intro others heq
    rw [hinside] at heq
    exact hc.ne_newline (List.cons.inj heq).1
  · have hsame : u.span.stop.line = t.span.start.line := by
      rw [hlines, List.count_eq_zero.2 hone, Nat.add_zero]
    refine shows_around hspan hsource hone ?_ (fun hnone => absurd hnone hne) hstretch.start
      (fun _ => hstretch.stop) (fun h => absurd hsame h)
    rcases hstretch.closes with h | ⟨_, rfl⟩
    · exact .inl (h.behind passed)
    · right
      intro others heq
      cases heq

/-- The place behind the last token is shown, if this is a token of the language. -/
theorem shows_end {last : Token} (hspan : d.span = some last.span.atStop)
    (hlast : (tokensOf source).getLast? = some last) (hknown : Known (tokensOf source)) :
    ∃ above before under after below,
      d.Shows source last.span.atStop above before under after below := by
  have hat := hlast
  rw [List.getLast?_eq_getElem?] at hat
  obtain ⟨passed, inside, left, hsource, hstretch⟩ := tokens_stretch (Nat.le_refl _) hat hat
  have hends : EndsVisible (passed ++ inside) := by
    rcases hstretch.closes with h | ⟨hunknown, _⟩
    · exact h.behind passed
    · exact absurd hunknown (hknown last (List.mem_of_getLast? hlast))
  have hstart : last.span.atStop.start = .behind (passed ++ inside) := hstretch.stop
  have hempty : source.toList = (passed ++ inside) ++ [] ++ left := by simpa using hsource
  refine shows_around hspan hempty List.not_mem_nil (.inl ?_) (fun _ => hends) hstart
    (fun _ => ?_) (fun _ => rfl)
  · rwa [List.append_nil]
  · rwa [List.append_nil]

end Diagnostic

/-! ## The front end -/

/-- **Diagnostics point at the source.**  They name the file.  Their span is one from a token
to the same or a later one, or it is the place behind the last token when the source ends too
early.  They are written with the line that the span starts in and with carets below the
span. -/
theorem diagnostics_point_at_source {source : String} {file : Option String} {d : Diagnostic}
    (h : frontEnd source file = .error d) :
    d.file = file ∧ ∃ span, d.span = some span ∧
      (span.From (tokensOf source) ∨
        ((∃ wanted, d.message = (SyntaxCause.endOfInput wanted).message) ∧
          ∃ last, (tokensOf source).getLast? = some last ∧ span = last.span.atStop)) ∧
      ∃ above before under after below, d.Shows source span above before under after below := by
  unfold frontEnd at h
  rcases bind_eq_error.1 h with hparse | ⟨p, hparse, hcheck⟩
  · obtain ⟨hfile, ⟨span, hspan, hfrom⟩ | ⟨wanted, last, hknown, hmessage, hlast, hspan⟩⟩ :=
      parse_faults hparse
    · exact ⟨hfile, span, hspan, .inl hfrom, Diagnostic.shows_tokens hspan hfrom⟩
    · exact ⟨hfile, _, hspan, .inr ⟨⟨wanted, hmessage⟩, last, hlast, rfl⟩,
        Diagnostic.shows_end hspan hlast hknown⟩
  · obtain ⟨hfile, f, hf, span, hmem, hspan⟩ := Program.check_faults hcheck
    have hfrom := parse_spans_from hparse f hf span hmem
    exact ⟨hfile.trans (parse_eq_ok.1 hparse).2, span, hspan, .inl hfrom,
      Diagnostic.shows_tokens hspan hfrom⟩

/-- What the front end says of a source that it refuses. -/
def refusal? (source : String) (file : Option String) : Option Diagnostic :=
  match frontEnd source file with
  | .ok _ => none
  | .error d => some d

theorem refusal?_eq_some {source : String} {file : Option String} {d : Diagnostic} :
    refusal? source file = some d ↔ frontEnd source file = .error d := by
  unfold refusal?
  cases frontEnd source file <;> simp

/-- A fault behind a tabulator, in lines that end in a carriage return and a newline. -/
def sumSource : String := "i32 f()\x7b\r\n\treturn 1+true;\r\n\x7d"

/-- The operand that is no integer is marked, in the second line. -/
theorem diagnostics_point_at_source_sum :
    ∃ d span, frontEnd sumSource (some "f.sl") = .error d ∧
      d.span = some span ∧ span = ⟨⟨2, 9⟩, ⟨2, 15⟩⟩ ∧ d.file = some "f.sl" ∧
      ∃ above before under after below,
        d.Shows sumSource span above before under after below := by
  have hrefused :
      (refusal? sumSource (some "f.sl")).map (·.span) =
        some (some ⟨⟨2, 9⟩, ⟨2, 15⟩⟩) := by
    decide +kernel
  obtain ⟨d, hd, hspan⟩ := Option.map_eq_some_iff.1 hrefused
  have hd := refusal?_eq_some.1 hd
  obtain ⟨hfile, span, hspan', _, hshows⟩ := diagnostics_point_at_source hd
  have hvalue : span = ⟨⟨2, 9⟩, ⟨2, 15⟩⟩ := Option.some.inj (hspan'.symm.trans hspan)
  exact ⟨d, span, hd, hspan', hvalue, hfile, hshows⟩

/-- A string over two lines is marked where it starts, and not below its characters. -/
example : (refusal? "i32 f() \x7b\n  return \"a\nb\";\n\x7d" none).map
    (·.render "i32 f() \x7b\n  return \"a\nb\";\n\x7d") =
    some "[error] Type mismatch, expected i32 got string\n2 |   return \"a\n  |   ^" := by
  decide +kernel

end Slate
