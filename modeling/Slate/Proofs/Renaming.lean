import Slate.Proofs.Compile.Renamed
import Slate.Proofs.Eval.Renamed

/-!
# Names of variables do not matter

The checker keeps variables in a list of the locals met, the compiler in offsets by name, the
evaluator in named cells.  Each of them is asked for a variable by its name, and each finds
the same one under an injective renaming.

A renaming is only asked to keep apart the names of the variables of one function.  The names
that occur in an accepted function are those, so it may as well be injective (`Program.spread`).
-/

namespace Slate

variable {ts : List Token} {file : Option String} {p q : Program} {f : Function}
  {ρ : String → String → String}

/-- Renamings that are injective if the given ones keep the variables of each function apart,
and that do the same to these variables. -/
def Program.spread (q : Program) (ρ : String → String → String) (name : String) :
    String → String :=
  match q.function? name with
  | some f => spreadFrom (ρ name) f.variableNames
  | none => ρ name

/-- In a typed program each function is spread by its own renaming. -/
theorem TypedProgram.spread_eq (hq : TypedProgram q) (hf : f ∈ q.functions) :
    q.spread ρ f.name = spreadFrom (ρ f.name) f.variableNames := by
  unfold Program.spread
  rw [hq.function?_of_mem hf]

/-- So its variables get the names they were to get. -/
theorem TypedProgram.spread_of_mem (hq : TypedProgram q) (hf : f ∈ q.functions) {x : String}
    (hx : x ∈ f.variableNames) : q.spread ρ f.name x = ρ f.name x := by
  rw [hq.spread_eq hf, spreadFrom_of_mem hx]

/-- Renamings that agree on the variables of each function rename an accepted program alike. -/
theorem renamed_eq_of_checked (hp : Program.parse ts file = .ok p) (hcheck : p.check = .ok q)
    {ρ' : String → String → String}
    (hsame : ∀ f ∈ q.functions, ∀ x ∈ f.variableNames, ρ f.name x = ρ' f.name x) :
    q.renamed ρ = q.renamed ρ' ∧ p.renamed ρ = p.renamed ρ' := by
  have hq := checked_typed hp hcheck
  have herased := checked_erased hp hcheck
  have hbuiltin : ∀ f ∈ q.functions, f.builtin = true → f.body = [] := by
    intro f hf hblock
    have hmem : f.erased ∈ p.functions := by
      rw [← herased]
      exact List.mem_map.2 ⟨f, hf, rfl⟩
    have hnone : erasedBody f.body = [] := parse_builtin hp f.erased hmem hblock
    cases hbody : f.body with
    | nil => rfl
    | cons s ss =>
        rw [hbody] at hnone
        cases hnone
  have hchecked : q.renamed ρ = q.renamed ρ' := by
    unfold Program.renamed
    congr 1
    exact List.map_congr_left fun f hf => (hq.each f hf).renamed_eq (hbuiltin f hf) (hsame f hf)
  refine ⟨hchecked, ?_⟩
  rw [← herased, ← q.erased_renamed, ← q.erased_renamed, hchecked]

/-- **Names of variables do not matter.**  Let an accepted program have other names for its
variables, chosen for each function so that they stay apart.  It is accepted under these names,
and elaborated to the same program under these names; its assembly is the same text, or fails
to be made with the same error; and calls on it end alike, with the same answer and the same
output, or with the same error, in which a missing variable has its other name. -/
theorem names_do_not_matter (hp : Program.parse ts file = .ok p) (hcheck : p.check = .ok q)
    (hapart : ∀ f ∈ q.functions, KeepsApart (ρ f.name) f.variableNames) :
    (p.renamed ρ).check = .ok (q.renamed ρ) ∧
      (q.renamed ρ).assemblyText = q.assemblyText ∧
      ∀ (σ : Type) (host : Host σ) (rounds : Nat) (name : String) (args : List Value),
        Run.Matches (q.TurnsInto ρ) id ((Setting.mk q host rounds).call name args)
          ((Setting.mk (q.renamed ρ) host rounds).call name args) := by
  have hq := checked_typed hp hcheck
  have hinjective : ∀ f ∈ q.functions, Function.Injective (q.spread ρ f.name) := by
    intro f hf
    rw [hq.spread_eq hf]
    exact spreadFrom_injective (hapart f hf)
  have hinjective' : ∀ f ∈ p.functions, Function.Injective (q.spread ρ f.name) := by
    intro f hf
    rw [← checked_erased hp hcheck] at hf
    obtain ⟨f', hf', rfl⟩ := List.mem_map.1 hf
    exact hinjective f' hf'
  have hsame : ∀ f ∈ q.functions, ∀ x ∈ f.variableNames, ρ f.name x = q.spread ρ f.name x :=
    fun f hf x hx => (hq.spread_of_mem hf hx).symm
  obtain ⟨hrenamed, hrenamed'⟩ := renamed_eq_of_checked hp hcheck hsame
  rw [hrenamed, hrenamed']
  refine ⟨Program.check_renamed hinjective' hcheck, hq.assemblyText_renamed hinjective, ?_⟩
  intro σ host rounds name args
  refine (call_matches hq hinjective host rounds name args).mono fun e e' he => ?_
  cases he with
  | missing hf hx =>
      rw [hq.spread_of_mem hf hx]
      exact .missing hf hx
  | other he => exact .other he

/-- A program with an argument that is called like its function, with a declaration that is
run in every round, and with a variable that its `main` misses. -/
def shufflableSource : String :=
  "i32 sum(sum: i32, n: i32) \x7b while (n != 0) \x7b var main: i32 = sum + n; sum = main; " ++
    "n = n - 1; \x7d return sum; \x7d i32 main() \x7b if (sum(0, 2) == 4) \x7b " ++
    "var rest: i32 = 1; \x7d return rest; \x7d"

/-- In `sum` the names of the variables go around; in `main` the variable is called like the
function. -/
def shuffled (name x : String) : String :=
  if name = "main" then "main"
  else if x = "sum" then "n"
  else if x = "n" then "main"
  else "sum"

theorem names_do_not_matter_shuffled :
    ∃ p q, Program.parse (tokensOf shufflableSource) none = .ok p ∧ p.check = .ok q ∧
      (p.renamed shuffled).check = .ok (q.renamed shuffled) ∧
      (q.renamed shuffled).assemblyText = q.assemblyText ∧
      (Setting.mk q (.ofSink .collect) 3).call "main" [] .empty =
        .failed (.unknownVariable "rest") .empty ∧
      (Setting.mk (q.renamed shuffled) (.ofSink .collect) 3).call "main" [] .empty =
        .failed (.unknownVariable "main") .empty := by
  have hsource : (Program.parse (tokensOf shufflableSource) none).toOption.any (fun p =>
      p.check.toOption.any fun q =>
        decide (∀ f ∈ q.functions, KeepsApart (shuffled f.name) f.variableNames) &&
          decide (∀ f ∈ q.functions, "rest" ∈ f.variableNames → f.name = "main") &&
          decide ((Setting.mk q (.ofSink .collect) 3).call "main" [] .empty =
            .failed (.unknownVariable "rest") .empty)) = true := by
    decide +kernel
  simp only [Option.any_eq_true, toOption_eq_some, Bool.and_eq_true, decide_eq_true_eq] at hsource
  obtain ⟨p, hp, q, hq, ⟨hapart, honly⟩, hrun⟩ := hsource
  obtain ⟨hcheck, htext, hcalls⟩ := names_do_not_matter hp hq hapart
  have hfailed := hcalls ByteArray (.ofSink .collect) 3 "main" [] .empty
  rw [hrun] at hfailed
  obtain ⟨e, he, hother⟩ := hfailed
  have hname : e = .unknownVariable "main" := by
    cases he with
    | @missing f _ hf hx =>
        rw [honly f hf hx]
        rfl
    | other he => exact (he "rest" rfl).elim
  exact ⟨p, q, hp, hq, hcheck, htext, hrun, hname ▸ hother⟩

end Slate
