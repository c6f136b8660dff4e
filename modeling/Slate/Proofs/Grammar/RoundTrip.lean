import Slate.Proofs.Grammar.Acceptance
import Slate.Proofs.Grammar.Parentheses
import Slate.Proofs.Grammar.WrittenDerived

/-!
# Reading what was written

A program that can be written is read again from its text: the tokens of the text are the
lexemes that were written, they are derived as the definitions of the program, and nothing
else is derived from them.  Only the spans are new.

The text has no parentheses without need: no other token sequence that is read as the same
program has fewer.
-/

namespace Slate

open Lexeme

variable {p : Program}

/-- The tokens of what is written are derived as the definitions of the program. -/
theorem derives_written (h : p.Writable) :
    DerivesProgram (tokensOf p.written) (p.functions.map Function.definition) :=
  derives_functions h.each (tokensOf_written h)

/-- The definitions of a program that can be written satisfy the side conditions. -/
theorem Program.Writable.admissible (h : p.Writable) :
    Admissible (p.functions.map Function.definition) := by
  refine ⟨?_, ?_⟩
  · rw [List.map_map]
    exact h.distinct
  · intro d hd
    obtain ⟨f, hf, rfl⟩ := List.mem_map.1 hd
    exact ⟨(h.each f hf).free, (h.each f hf).distinct⟩

theorem Function.definition_closed (f : Function) : f.definition.Closed := by
  unfold Definition.Closed Function.definition
  cases f.builtin <;> rfl

theorem Program.Writable.spanless_definitions (h : p.Writable) :
    (p.functions.map Function.definition).map Definition.function =
      p.functions.map Function.spanless := by
  rw [List.map_map]
  exact List.map_congr_left fun f hf => Function.function_definition (h.each f hf)

/-- **A program is read again from its text.** -/
theorem parse_of_written (h : p.Writable) :
    ∃ q, Program.parse (tokensOf p.written) p.file = .ok q ∧ q.spanless = p.spanless := by
  have hderives := derives_written h
  have hclosed : ∀ d ∈ p.functions.map Function.definition, d.Closed :=
    List.forall_mem_map.2 fun f _ => f.definition_closed
  obtain ⟨q, hq⟩ :=
    parse_of_derives p.file hderives h.admissible hclosed (numbersFit_written h)
  refine ⟨q, hq, ?_⟩
  -- The definitions that were read are those that were written, as there is one derivation only.
  obtain ⟨ds, hds, hmap, _, _, hfit⟩ := parse_derivable hq
  have hfunctions : q.functions.map Function.spanless = p.functions.map Function.spanless := by
    rw [← hmap, hds.unique hderives hfit, h.spanless_definitions]
  have hfile : q.file = p.file := (parse_eq_ok.1 hq).2
  unfold Program.spanless
  rw [hfunctions, hfile]

/-! ## Parentheses -/

/-- Tokens have the parentheses of their lexemes. -/
theorem openings_of_spell {ts : List Token} {xs : List Lexeme} (h : Spell ts xs) :
    openings ts = pairs xs := by
  have hts : openings ts = (ts.map Token.face).countP fun face => face.1 = .leftParen := by
    rw [List.countP_map]
    rfl
  have hxs : pairs xs = (xs.map Lexeme.face).countP fun face => face.1 = .leftParen := by
    rw [List.countP_map]
    rfl
  rw [hts, hxs, show ts.map Token.face = xs.map Lexeme.face from h]

/-- What is read as a program has the parentheses that the program is written with, or
more. -/
theorem pairs_le_of_parse {ts : List Token} {file : Option String} {q : Program}
    (hq : Program.parse ts file = .ok q) : pairs q.lexemes ≤ openings ts := by
  obtain ⟨ds, hds, hmap, _⟩ := parse_derivable hq
  have hlexemes : ds.flatMap (fun d => d.function.lexemes) = q.lexemes := by
    rw [← q.lexemes_spanless, Program.lexemes, Program.spanless, ← hmap, List.flatMap_map]
  rw [← hlexemes]
  exact hds.openings_le

/-- **Writing and reading back.**  A program that can be written is read from its text as it
was, but for the spans; and no token sequence that is read as the same program has fewer
parentheses. -/
theorem parse_written (h : p.Writable) :
    (∃ q, Program.parse (tokensOf p.written) p.file = .ok q ∧ q.spanless = p.spanless) ∧
      ∀ ts q, Program.parse ts p.file = .ok q → q.spanless = p.spanless →
        openings (tokensOf p.written) ≤ openings ts := by
  refine ⟨parse_of_written h, fun ts q hq hsame => ?_⟩
  rw [openings_of_spell (tokensOf_written h), ← p.lexemes_spanless, ← hsame, q.lexemes_spanless]
  exact pairs_le_of_parse hq

/-- A program with operands that need parentheses, and a conditional behind `else`. -/
def bracketedProgram : Program where
  functions := [
    ⟨"print", .void, [⟨"x", .int⟩], [], true, .nowhere, []⟩,
    ⟨"main", .int, [], [], false, .nowhere, [
      .expression .nowhere (.assign .bare (.declare .bare ⟨"n", .int⟩)
        (.binary .bare .times
          (.binary .bare .plus (.literal .bare (.int 1)) (.literal .bare (.int 2)))
          (.unary .bare .negate (.literal .bare (.int 3))))),
      .ifElse .nowhere (.binary .bare .equal (.var .bare "n") (.literal .bare (.int 1)))
        [.expression .nowhere (.call .bare "print" [.var .bare "n"])]
        (.block .nowhere [.ifThen .nowhere
          (.unary .bare .not (.binary .bare .notEqual (.var .bare "n") (.literal .bare (.int 2))))
          [.ret .nowhere (some (.var .bare "n"))]]),
      .ret .nowhere (some (.literal .bare (.int 0)))]⟩]
  file := none

/-- The program is read from its text, which has no parentheses around the product, the
negation and the inner conditional. -/
theorem parse_written_bracketed :
    bracketedProgram.written = "builtin void print(x:i32);" ++
      "i32 main(){var n:i32=(1+2)*-3;if(n==1){print(n);}else if(!(n!=2)){return n;}return 0;}" ∧
    bracketedProgram.Writable ∧
    ∃ q, Program.parse (tokensOf bracketedProgram.written) none = .ok q ∧
      q.spanless = bracketedProgram.spanless := by
  have hwritable : bracketedProgram.Writable := by
    refine ⟨by decide, List.forall_mem_cons.2 ⟨?_, List.forall_mem_singleton.2 ?_⟩⟩
    · exact ⟨by decide, by decide, ⟨by decide, rfl⟩,
        List.forall_mem_singleton.2 ⟨by decide, by decide, rfl⟩, by decide, rfl, fun _ => rfl,
        trivial⟩
    · refine ⟨by decide, by decide, ⟨by decide, rfl⟩, List.forall_mem_nil _, by decide, rfl,
        nofun, ?_⟩
      simp only [BodyWritable, Stmt.Writable, Stmt.BranchWritable, Expr.StatementWritable,
        Expr.Declares, Expr.Writable, ArgumentsWritable, Literal.Writable, Var.Writable,
        Ty.Writable, or_false, false_or]
      decide
  exact ⟨by decide +kernel, hwritable, (parse_written hwritable).1⟩

end Slate
