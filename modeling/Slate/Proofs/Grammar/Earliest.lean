import Slate.Proofs.Grammar.Acceptance
import Slate.Proofs.Grammar.PromptFunctions
import Slate.Proofs.Token.Order

/-!
# Faults are found early

Where a source is refused, its diagnostic has a span, and by its start the span is a place
among the tokens: so many of them stand before it.  Up to there the tokens could have gone
on to a program.  With one more token they no longer can, whatever comes behind.  When all
tokens stand before the place, the tokens have run out, and the place is behind the last.

The exception are arguments whose names are repeated.  The name of an argument is compared
with those before it when its whole declaration has been read.  If there is a fault inside
that declaration, it is the one that is found, and the tokens before it could not have gone
on to a program: but those before the name could (`faults_are_early`).
`fault_behind_repetition` is a source of this kind.
-/

namespace Slate

/-- The tokens can be completed to what is read as a program. -/
def Viable (file : Option String) (us : List Token) : Prop :=
  ∃ more p, Program.parse (us ++ more) file = .ok p

/-- What opens a program by the grammar is completed to what is read. -/
theorem OpensPhrase.viable {us : List Token} (file : Option String)
    (h : OpensPhrase (DefinesAll []) us) : Viable file us := by
  obtain ⟨more, ds, ⟨hds, hnodup, heach⟩, hfit⟩ := h
  have hadmissible : Admissible ds := ⟨hnodup, fun d hd => (heach d hd).2.1⟩
  obtain ⟨p, hp⟩ := parse_of_derives file hds hadmissible (fun d hd => (heach d hd).2.2) hfit
  exact ⟨more, p, hp⟩

/-- A diagnostic of the parser is a fault of the reader that has been given a place. -/
theorem parse_eq_error {ts : List Token} {file : Option String} {d : Diagnostic}
    (h : Program.parse ts file = .error d) :
    ∃ f, readFunctions [] ts = .error f ∧ d = (f.placed ts).diagnostic file := by
  unfold Program.parse at h
  cases hread : readFunctions [] ts with
  | ok functions =>
      rw [hread] at h
      cases h
  | error f =>
      rw [hread] at h
      exact ⟨f, rfl, (Except.error.inj h).symm⟩

/-- A fault that has a span keeps it. -/
theorem SyntaxFault.span_placed {f : SyntaxFault} {span : Span} (h : f.span = some span)
    (ts : List Token) : (f.placed ts).span = some span := by
  simp [placed, h]

/-- A fault that has none is placed behind the last token. -/
theorem SyntaxFault.span_placed_behind (cause : SyntaxCause) {ts : List Token} {last : Token}
    (h : ts.getLast? = some last) :
    ((SyntaxFault.mk cause none).placed ts).span = some last.span.atStop := by
  simp [placed, h]

/-- Where reading fails there is a last token: no tokens at all are a program without
functions. -/
theorem readFunctions_last {taken : List String} {ts : List Token} {f : SyntaxFault}
    (h : readFunctions taken ts = .error f) : ∃ last, ts.getLast? = some last := by
  cases ts with
  | nil =>
      rw [readFunctions] at h
      cases h
  | cons t ts => exact ⟨_, List.getLast?_eq_some_getLast (List.cons_ne_nil t ts)⟩

/-- How a diagnostic of the parser divides the tokens: a program could have begun with those
before the fault, and none begins with one token more. -/
structure Diagnostic.Divides (d : Diagnostic) (file : Option String) (used rest : List Token) :
    Prop where
  early : OpensOrRepeats (Viable file) used
  late : ∀ t more, rest = t :: more → ¬ Viable file (used ++ [t])
  ended : rest = [] → (∃ wanted, d.message = (SyntaxCause.endOfInput wanted).message) ∧
    ∃ last, used.getLast? = some last ∧ d.span = some last.span.atStop

/-- The start of the span of a diagnostic divides the tokens where the fault is. -/
theorem parse_divides {source : String} {file : Option String} {d : Diagnostic}
    (h : Program.parse (tokensOf source) file = .error d) :
    ∃ span used rest, d.span = some span ∧ tokensOf source = used ++ rest ∧
      tokensBefore (tokensOf source) span.start = used.length ∧ d.Divides file used rest := by
  obtain ⟨f, hf, rfl⟩ := parse_eq_error h
  obtain ⟨used, rest, hts, hat, hused, hno⟩ := readFunctions_stops hf
  have hearly : OpensOrRepeats (Viable file) used :=
    hused.behind [] fun us hus => hus.viable file
  have hlate : ∀ t more, rest = t :: more → ¬ Viable file (used ++ [t]) := by
    rintro t more hrest ⟨others, p, hp⟩
    rw [List.append_assoc] at hp
    exact hno t more hrest others p.functions (parse_eq_ok.1 hp).1
  have hinOrder := tokens_inOrder source
  rw [hts] at hf hinOrder ⊢
  cases rest with
  | cons t more =>
      -- the fault has a span of its own, which starts where the token starts
      obtain ⟨u, _, hspan⟩ := hat
      have hplaced := SyntaxFault.span_placed hspan (used ++ t :: more)
      have hcount : tokensBefore (used ++ t :: more) (t.span.through u.span).start =
          used.length :=
        hinOrder.tokensBefore_start
      exact ⟨_, used, t :: more, hplaced, rfl, hcount, hearly, hlate, fun hnone => nomatch hnone⟩
  | nil =>
      -- the fault is placed behind the last token, and there is one
      obtain ⟨wanted, rfl⟩ := hat
      rw [List.append_nil] at hf hinOrder ⊢
      obtain ⟨last, hlast⟩ := readFunctions_last hf
      have hplaced := SyntaxFault.span_placed_behind (.endOfInput wanted) hlast
      refine ⟨_, used, [], hplaced, (List.append_nil used).symm, ?_, hearly, hlate, ?_⟩
      · exact hinOrder.tokensBefore_stop hlast
      · exact fun _ => ⟨⟨wanted, rfl⟩, _, hlast, hplaced⟩

/-- With the token at the fault behind them, the tokens before it do not go on to a program. -/
theorem not_viable_at_fault {source : String} {file : Option String} {d : Diagnostic} {span : Span}
    (h : Program.parse (tokensOf source) file = .error d) (hspan : d.span = some span)
    (hless : tokensBefore (tokensOf source) span.start < (tokensOf source).length) :
    ¬ Viable file ((tokensOf source).take (tokensBefore (tokensOf source) span.start + 1)) := by
  obtain ⟨span', used, rest, hspan', hts, hcount, hdivides⟩ := parse_divides h
  obtain rfl : span' = span := Option.some.inj (hspan'.symm.trans hspan)
  have hrest : rest ≠ [] := by
    rintro rfl
    rw [hcount, hts, List.append_nil] at hless
    exact Nat.lt_irrefl _ hless
  obtain ⟨t, more, rfl⟩ := List.exists_cons_of_ne_nil hrest
  have htake : (tokensOf source).take (used.length + 1) = used ++ [t] := by
    rw [hts, List.take_length_add_append]
    rfl
  rw [hcount, htake]
  exact hdivides.late t more rfl

/-- The number of tokens before the fault, in a source that is refused. -/
def faultPlace (source : String) (file : Option String) : Option Nat :=
  match Program.parse (tokensOf source) file with
  | .ok _ => none
  | .error d => d.span.map fun span => tokensBefore (tokensOf source) span.start

theorem faultPlace_eq_some {source : String} {file : Option String} {k : Nat} :
    faultPlace source file = some k ↔ ∃ d span,
      Program.parse (tokensOf source) file = .error d ∧ d.span = some span ∧
      tokensBefore (tokensOf source) span.start = k := by
  unfold faultPlace
  cases Program.parse (tokensOf source) file with
  | ok p => simp
  | error d => simp [Option.map_eq_some_iff]

/-- A declaration that repeats the name of an argument, and has no type behind it. -/
def repeatingSource : String := "builtin void f(a: i32, a);"

/-- Behind an argument whose name is repeated, the tokens do not go on to a program.  Still a
fault that stands there is the one that is found. -/
theorem fault_behind_repetition :
    ∃ d span, Program.parse (tokensOf repeatingSource) none = .error d ∧
      d.span = some span ∧ tokensBefore (tokensOf repeatingSource) span.start = 9 ∧
      ¬ Viable none ((tokensOf repeatingSource).take 9) := by
  have hplace : faultPlace repeatingSource none = some 9 := by
    decide +kernel
  obtain ⟨d, span, hd, hspan, hcount⟩ := faultPlace_eq_some.1 hplace
  refine ⟨d, span, hd, hspan, hcount, ?_⟩
  -- in a source that starts with the same tokens, the repeated name itself is the fault
  have hother : faultPlace "builtin void f(a: i32, a: i32);" none = some 8 := by
    decide +kernel
  have hsame : (tokensOf repeatingSource).take 9 =
      (tokensOf "builtin void f(a: i32, a: i32);").take 9 := by
    decide +kernel
  obtain ⟨d', span', hd', hspan', hcount'⟩ := faultPlace_eq_some.1 hother
  have hno := not_viable_at_fault hd' hspan' (by rw [hcount']; decide +kernel)
  rw [hcount'] at hno
  rw [hsame]
  exact hno

/-- **Faults are found at the earliest token**, but for repeated arguments.  The first `k`
tokens are those before the span of the diagnostic. -/
theorem faults_are_early {source : String} {file : Option String} {d : Diagnostic}
    (h : Program.parse (tokensOf source) file = .error d) :
    ∃ span k, d.span = some span ∧ k = tokensBefore (tokensOf source) span.start ∧
      OpensOrRepeats (Viable file) ((tokensOf source).take k) ∧
      (k < (tokensOf source).length → ¬ Viable file ((tokensOf source).take (k + 1))) ∧
      (k = (tokensOf source).length →
        (∃ wanted, d.message = (SyntaxCause.endOfInput wanted).message) ∧
        ∃ last, (tokensOf source).getLast? = some last ∧ span = last.span.atStop) := by
  obtain ⟨span, used, rest, hspan, hts, hcount, hdivides⟩ := parse_divides h
  refine ⟨span, _, hspan, rfl, ?_, not_viable_at_fault h hspan, ?_⟩
  · rw [hcount, hts, List.take_left]
    exact hdivides.early
  · intro hall
    have hrest : rest = [] := by
      rw [hcount, hts, List.length_append] at hall
      exact List.length_eq_zero_iff.1 (by omega)
    obtain ⟨hmessage, last, hlast, hstop⟩ := hdivides.ended hrest
    have hwhole : tokensOf source = used := by rw [hts, hrest, List.append_nil]
    exact ⟨hmessage, last, hwhole ▸ hlast, Option.some.inj (hspan.symm.trans hstop)⟩

/-- A source that ends where the type of a second argument should stand. -/
def endedSource : String := "builtin void f(a: i32, b:"

/-- A source that ends where the type of a second argument should stand.  Its name is
another one, so there can be more behind it. -/
theorem faults_are_early_ended :
    ∃ d span, Program.parse (tokensOf endedSource) none = .error d ∧
      d.span = some span ∧ tokensBefore (tokensOf endedSource) span.start = 10 ∧
      OpensOrRepeats (Viable none) (tokensOf endedSource) ∧
      ∃ last, (tokensOf endedSource).getLast? = some last ∧
        span = last.span.atStop := by
  have hplace : faultPlace endedSource none = some 10 := by
    decide +kernel
  have hlength : (tokensOf endedSource).length = 10 := by
    decide +kernel
  obtain ⟨d, span, hd, hspan, hcount⟩ := faultPlace_eq_some.1 hplace
  obtain ⟨span', k, hspan', rfl, hopens, _, hended⟩ := faults_are_early hd
  obtain rfl : span' = span := Option.some.inj (hspan'.symm.trans hspan)
  obtain ⟨_, hlast⟩ := hended (hcount.trans hlength.symm)
  rw [hcount, ← hlength, List.take_length] at hopens
  exact ⟨d, span', hd, hspan, hcount, hopens, hlast⟩

end Slate
