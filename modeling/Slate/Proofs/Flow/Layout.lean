import Slate.FrontEnd
import Slate.Proofs.Compile.Spanless
import Slate.Proofs.Eval.Related
import Slate.Proofs.Grammar.RelocatedPrograms
import Slate.Proofs.Token.Spelled
import Slate.Proofs.Typing.Spanless

/-!
# Layout has no meaning

Blanks, line breaks and comments separate tokens and have no other use.  They decide where
the tokens stand, so they decide the spans in trees and diagnostics; and nothing that is
done with a tree asks for a span (`parse_spanless`, `ChecksStmt.spanless`,
`Program.compile_spanless`, `Setting.run_spanless`).  Two sources with the same tokens are
therefore told apart by spans alone: `layout_has_no_meaning`.

Tokens without their spans are tokens moved to where no text is, and so is what is read from
them (`readFunctions_spanless`).  Two runs on tokens that differ in their spans alone are
compared through the run on the tokens that both of them become.
-/

namespace Slate

/-! ## Reading -/

/-- The token without its span. -/
def Token.spanless (t : Token) : Token := { t with span := .nowhere }

/-- Leaving out spans is one way of moving. -/
theorem readFunctions_spanless (taken : List String) (ts : List Token) :
    readFunctions taken (ts.map Token.spanless) =
      resultRelocated (fun _ => .nowhere) (List.map Function.spanless)
        (readFunctions taken ts) := by
  have htokens : Token.spanless = Token.relocated fun _ => .nowhere := rfl
  rw [funext Function.spanless_eq, htokens]
  exact readFunctions_relocated taken ts

/-- What the front end answers with, without the spans. -/
def verdictSpanless : Except Diagnostic Program → Except (String × Option String) Program
  | .ok p => .ok p.spanless
  | .error d => .error (d.message, d.file)

/-- **Parsing does not look at spans.**  What the parser says of tokens that differ in their
spans alone differs in spans alone. -/
theorem parse_spanless {ts us : List Token}
    (h : ts.map Token.spanless = us.map Token.spanless) (file : Option String) :
    verdictSpanless (Program.parse ts file) = verdictSpanless (Program.parse us file) := by
  have hread :
      resultRelocated (fun _ => .nowhere) (List.map Function.spanless) (readFunctions [] ts) =
        resultRelocated (fun _ => .nowhere) (List.map Function.spanless) (readFunctions [] us) := by
    rw [← readFunctions_spanless, ← readFunctions_spanless, h]
  unfold Program.parse
  cases hts : readFunctions [] ts with
  | ok fs =>
      rw [hts] at hread
      cases hus : readFunctions [] us with
      | ok gs =>
          rw [hus] at hread
          have hfunctions : fs.map Function.spanless = gs.map Function.spanless :=
            Except.ok.inj hread
          exact congrArg (fun functions => Except.ok (Program.mk functions file)) hfunctions
      | error f =>
          rw [hus] at hread
          cases hread
  | error f =>
      rw [hts] at hread
      cases hus : readFunctions [] us with
      | ok gs =>
          rw [hus] at hread
          cases hread
      | error g =>
          rw [hus] at hread
          have hfault : f.relocated _ = g.relocated _ := Except.error.inj hread
          have hcause : (f.relocated _).cause = (g.relocated _).cause :=
            congrArg SyntaxFault.cause hfault
          exact congrArg (fun cause => Except.error (SyntaxCause.message cause, file)) hcause

/-- Tokens look the same to the grammar exactly if they are the same without their spans. -/
theorem spanless_eq_of_faces {ts us : List Token} (h : ts.map Token.face = us.map Token.face) :
    ts.map Token.spanless = us.map Token.spanless := by
  have hface : ∀ ts : List Token, ts.map Token.spanless =
      (ts.map Token.face).map fun face => ⟨face.1, face.2, .nowhere⟩ := by
    intro ts
    rw [List.map_map]
    rfl
  rw [hface, hface, h]

/-! ## Checking, compiling and running -/

/-- Programs that differ in their spans alone are checked alike. -/
theorem check_spanless {p q : Program} (h : p.spanless = q.spanless) :
    verdictSpanless p.check = verdictSpanless q.check := by
  have hfunctions : p.functions.map Function.spanless = q.functions.map Function.spanless :=
    congrArg Program.functions h
  have hfile : p.spanless.file = q.spanless.file := congrArg Program.file h
  have hsignatures : p.signatures = q.signatures := by
    rw [← p.signatures_spanless, h, q.signatures_spanless]
  have hchecked : ∀ r : Program, verdictSpanless r.check =
      ((checkFunctions r.signatures (r.functions.map Function.spanless)).map
        (Program.mk · r.file)).mapError fun f => (f.cause.message, r.file) := by
    intro r
    rw [checkFunctions_spanless]
    unfold Program.check
    cases checkFunctions r.signatures r.functions <;> rfl
  rw [hchecked, hchecked, hfunctions, hsignatures, show p.file = q.file from hfile]

/-- **The front end does not look at layout.**  It says the same of sources with the same
tokens, but for spans. -/
theorem frontEnd_spanless {a b : String}
    (h : (tokensOf a).map Token.face = (tokensOf b).map Token.face) (file : Option String) :
    verdictSpanless (frontEnd a file) = verdictSpanless (frontEnd b file) := by
  have hparse := parse_spanless (spanless_eq_of_faces h) file
  unfold frontEnd
  cases ha : Program.parse (tokensOf a) file with
  | error d =>
      rw [ha] at hparse
      cases hb : Program.parse (tokensOf b) file with
      | error e =>
          rw [hb] at hparse
          exact hparse
      | ok q =>
          rw [hb] at hparse
          cases hparse
  | ok p =>
      rw [ha] at hparse
      cases hb : Program.parse (tokensOf b) file with
      | error e =>
          rw [hb] at hparse
          cases hparse
      | ok q =>
          rw [hb] at hparse
          exact check_spanless (Except.ok.inj hparse)

/-- Programs that differ in their spans alone do the same. -/
theorem same_of_spanless {p q : Program} (h : p.spanless = q.spanless) :
    p.assemblyText = q.assemblyText ∧ ∀ (σ : Type) (host : Host σ) (rounds : Nat),
      (Setting.mk p host rounds).run = (Setting.mk q host rounds).run := by
  refine ⟨?_, ?_⟩
  · unfold Program.assemblyText
    rw [← p.compile_spanless, h, q.compile_spanless]
  · intro σ host rounds
    have hp : (Setting.mk p.spanless host rounds).run = (Setting.mk p host rounds).run :=
      Setting.run_spanless ⟨p, host, rounds⟩
    have hq : (Setting.mk q.spanless host rounds).run = (Setting.mk q host rounds).run :=
      Setting.run_spanless ⟨q, host, rounds⟩
    rw [← hp, h, hq]

/-- **Layout has no meaning.**  Of two sources whose tokens agree in kind and text, read
under the same file name, the front end accepts both or neither.  If it accepts both, the
programs are equal up to spans, they have the same assembly or fail to compile with the same
error, and on every host they run alike: to the same status or error with the same output,
or without an end.  If it accepts neither, it gives the same reason. -/
theorem layout_has_no_meaning {a b : String}
    (h : (tokensOf a).map Token.face = (tokensOf b).map Token.face) (file : Option String) :
    match frontEnd a file, frontEnd b file with
    | .ok p, .ok q => p.spanless = q.spanless ∧ p.assemblyText = q.assemblyText ∧
        ∀ (σ : Type) (host : Host σ) (rounds : Nat),
          (Setting.mk p host rounds).run = (Setting.mk q host rounds).run
    | .error d, .error e => d.message = e.message ∧ d.file = e.file
    | _, _ => False := by
  have hverdict := frontEnd_spanless h file
  cases ha : frontEnd a file with
  | ok p =>
      rw [ha] at hverdict
      cases hb : frontEnd b file with
      | ok q =>
          rw [hb] at hverdict
          have hspanless : p.spanless = q.spanless := Except.ok.inj hverdict
          obtain ⟨htext, hrun⟩ := same_of_spanless hspanless
          exact ⟨hspanless, htext, hrun⟩
      | error e =>
          rw [hb] at hverdict
          cases hverdict
  | error d =>
      rw [ha] at hverdict
      cases hb : frontEnd b file with
      | ok q =>
          rw [hb] at hverdict
          cases hverdict
      | error e =>
          rw [hb] at hverdict
          have hreason : (d.message, d.file) = (e.message, e.file) := Except.error.inj hverdict
          exact ⟨congrArg Prod.fst hreason, congrArg Prod.snd hreason⟩

/-- A program with no more layout than it needs. -/
def denseSource : String := "i32 main(){return 1-2;}"

/-- The same program with spaces, line breaks and comments. -/
def spreadSource : String := "// below zero\ni32 main() \x7b\n  return 1 - 2; // the result\n\x7d\n"

/-- A program in one line, and the same program with comments and further lines: the spans
differ, and nothing else. -/
theorem layout_has_no_meaning_spread :
    (tokensOf denseSource).map Token.face = (tokensOf spreadSource).map Token.face ∧
      ∃ p q, frontEnd denseSource none = .ok p ∧ frontEnd spreadSource none = .ok q ∧
        p.functions.map Function.span ≠ q.functions.map Function.span ∧
        p.spanless = q.spanless ∧ p.assemblyText = q.assemblyText := by
  have hfaces : (tokensOf denseSource).map Token.face = (tokensOf spreadSource).map Token.face := by
    decide +kernel
  have hcheck : (frontEnd denseSource none).toOption.any (fun p =>
      (frontEnd spreadSource none).toOption.any fun q =>
          decide (p.functions.map Function.span ≠ q.functions.map Function.span)) = true := by
    decide +kernel
  obtain ⟨p, haccepted, hcheck⟩ := (Option.any_eq_true _ _).1 hcheck
  obtain ⟨q, haccepted', hspans⟩ := (Option.any_eq_true _ _).1 hcheck
  have haccepted := toOption_eq_some.1 haccepted
  have haccepted' := toOption_eq_some.1 haccepted'
  have hsame := layout_has_no_meaning hfaces none
  rw [haccepted, haccepted'] at hsame
  exact ⟨hfaces, p, q, haccepted, haccepted', of_decide_eq_true hspans, hsame.1, hsame.2.1⟩

end Slate
