import Slate.Proofs.Compile.Routines
import Slate.Proofs.Compile.Written

/-!
# Compiled programs conform to evaluated ones

A process that starts at the entry stub calls `main` and exits with its result.  When the
evaluator runs the program to a status, after having printed some bytes, the process ends
with the same status, after having written the same bytes (`AssemblyOf.exits`).

The compiler hands out a text, and the process is made of what an assembler reads there.  That is
the assembly of the program but for what an assembler has no use for, so the same is true of the
text (`compiled_run_conforms`).

Nothing is said about the other runs: one that fails has no status to agree on, and one
that nests calls too deep for the evaluator may go on in the process.  What is assumed of
the process is that its stack does not overflow; how much of it is needed depends on the
program and on how it runs.
-/

namespace Slate

variable {p : Program} {a : Assembly} {loading : Loading a.listing} {m : Machine}

/-- A process that exits has not overflowed its stack on the way. -/
theorem Loading.run_ne_overflow {a : Listing} {loading : Loading a} {steps : Nat} {status : Word}
    {output : ByteArray}
    (h : loading.run steps m = .exits status output) : ∀ n, loading.run n m ≠ .overflow := by
  induction steps generalizing m with
  | zero => cases h
  | succ steps ih =>
      intro n
      rw [Loading.run] at h
      cases n with
      | zero => simp [Loading.run]
      | succ n =>
          rw [Loading.run]
          cases hstep : loading.step m with
          | next after =>
              rw [hstep] at h
              exact ih h n
          | exits status output => simp [Effect.andThen]
          | overflow =>
              rw [hstep] at h
              cases h
          | stuck => simp [Effect.andThen]

/-- The word for the result of `main` is the status that it counts as. -/
theorem Encodes.status {result : Value} {status : Int32} {w : Word}
    (h : Encodes loading result.data w) (hstatus : Setting.status result = .ok status) :
    w = status.toBitVec := by
  obtain ⟨type, data⟩ := result
  cases data with
  | int i =>
      cases hstatus
      exact h.int_eq
  | bool b =>
      cases hstatus
      rw [h.bool_eq]
      cases b <;> rfl
  | _ => cases hstatus

/-- **The entry stub.**  The process follows the call of `main`. -/
theorem Loading.Starts.follows (hstarts : loading.Starts m) (hp : TypedProgram p)
    (ha : AssemblyOf p a) (hunambiguous : a.listing.Unambiguous)
    (hbuiltins : ∀ f ∈ p.functions, f.builtin = true → f.DeclaresPrint) (rounds : Nat)
    {f : Function} (hmain : p.function? "main" = some f) (harguments : f.arguments = []) :
    loading.step m = .next m.advance ∧ Stands a.listing.lines m.advance.line entryStub ∧
      loading.Follows m.advance (Returned loading m.advance loading.top)
        ((Setting.mk p (.ofSink .collect) rounds).call "main" [] .empty) := by
  have hentry : a.hasEntry = true := by
    rw [ha.entry]
    unfold Program.hasMain
    rw [hmain]
    rfl
  have hstub := Assembly.stands_entry hentry
  have hline : m.line = 0 := by
    have hline := hstarts.line
    rw [hunambiguous.target?_eq hstub.1] at hline
    exact (Option.some.inj hline).symm
  rw [← hline] at hstub
  obtain ⟨hf, hname⟩ := function?_eq_some hmain
  have hknown : p.signatures.lookup "main" = some f.signature := by
    rw [← hname]
    exact hp.lookup_signature hf
  have hfits : ValuesFit [] f.signature.arguments := by
    show ValuesFit [] (f.arguments.map Var.type)
    rw [harguments]
    exact .nil
  have hready : Ready loading m.advance [] loading.top :=
    ⟨hstarts.stack, Nat.le_refl _, trivial, hstarts.loaded⟩
  refine ⟨Loading.step_label hstub, hstub.2, ?_⟩
  rw [← hstarts.output]
  exact (call_compiled hp hunambiguous ha hbuiltins rounds).function "main" f.signature []
    (by decide) hknown hfits m.advance loading.top _ hstub.2 hready

/-- A run of a whole program that ends with a status has called a `main` without
arguments, which has returned the status or has exited with it. -/
theorem run_eq_done {rounds : Nat} {status : Int32} {out : ByteArray}
    (h : (Setting.mk p (.ofSink .collect) rounds).run .empty = .done status out) :
    ∃ f, p.function? "main" = some f ∧ f.arguments = [] ∧
      ((∃ result,
          (Setting.mk p (.ofSink .collect) rounds).call "main" [] .empty = .done result out ∧
          Setting.status result = .ok status) ∨
        (Setting.mk p (.ofSink .collect) rounds).call "main" [] .empty =
          .failed (.exit status) out) := by
  unfold Setting.run Setting.runBy at h
  cases hmain : p.function? "main" with
  | none =>
      simp only [hmain] at h
      cases h
  | some f =>
      simp only [hmain] at h
      refine ⟨f, rfl, ?_, ?_⟩
      · refine Decidable.byContradiction fun hsome => ?_
        have hlength : f.arguments.length ≠ ([] : List Value).length :=
          fun hnone => hsome (List.length_eq_zero_iff.1 hnone)
        have hfailed : (Setting.mk p (.ofSink .collect) rounds).call "main" [] .empty =
            .failed (.argumentCount "main" f.arguments.length 0) .empty := by
          unfold Setting.call Setting.dispatch
          rw [if_neg (by decide)]
          simp only [hmain]
          rw [if_pos hlength]
          rfl
        rw [hfailed] at h
        cases h
      · cases hcall : (Setting.mk p (.ofSink .collect) rounds).call "main" [] .empty with
        | unfinished state =>
            rw [hcall] at h
            cases h
        | done result state =>
            rw [hcall] at h
            have hstatus : Run.ofExcept (Setting.status result) state = .done status out := h
            cases hcode : Setting.status result with
            | ok code =>
                rw [hcode] at hstatus
                cases hstatus
                exact .inl ⟨result, rfl, hcode⟩
            | error e =>
                rw [hcode] at hstatus
                cases hstatus
        | failed e state =>
            rw [hcall] at h
            cases e with
            | exit code =>
                cases h
                exact .inr rfl
            | _ => cases h

/-- The process exits with the status of the run, after it has written what was printed. -/
theorem AssemblyOf.exits (ha : AssemblyOf p a) (hp : TypedProgram p) (hnames : p.NamesApart a)
    (hbuiltins : ∀ f ∈ p.functions, f.builtin = true → f.DeclaresPrint)
    {rounds : Nat} {status : Int32} {out : ByteArray}
    (hrun : (Setting.mk p (.ofSink .collect) rounds).run .empty = .done status out)
    (hstarts : loading.Starts m) (hspace : ∀ n, loading.run n m ≠ .overflow) :
    ∃ n, loading.run n m = .exits status.toBitVec out := by
  obtain ⟨f, hmain, harguments, hcases⟩ := run_eq_done hrun
  obtain ⟨hstep, hstub, hfollows⟩ := hstarts.follows hp ha
    (ha.unambiguous hnames hp.distinct) hbuiltins rounds hmain harguments
  have hexits : loading.Leads (fun _ => False)
      (fun code written => code = status.toBitVec ∧ written = out) m.advance := by
    rcases hcases with ⟨result, hcall, hstatus⟩ | hcall
    · rw [hcall] at hfollows
      have hreaches : loading.Reaches (fun m₁ => m₁.output = out ∧
          Returned loading m.advance loading.top result m₁) m.advance := hfollows
      refine .after hreaches fun m₁ hm₁ => ?_
      obtain ⟨houtput, hreturned⟩ := hm₁
      have hrest : Stands a.listing.lines m₁.line (entryStub.drop 1) := by
        rw [hreturned.line]
        exact hstub.2
      refine .instr hrest rfl (.instr hrest.2 rfl ?_)
      refine .exits ((Loading.step_instr hrest.2.2).trans (Loading.execute_exit rfl)) ?_
      exact ⟨hreturned.result.status hstatus, houtput⟩
    · rw [hcall] at hfollows
      exact hfollows
  obtain ⟨n, hoverflow | ⟨code, written, hexit, rfl, rfl⟩⟩ := (Loading.Leads.next hstep hexits).run
  · exact (hspace n hoverflow).elim
  · exact ⟨n, hexit⟩

/-- **Conformance.**  When an accepted program whose builtins are all `print` is run to a
status by the evaluator, it compiles to a text.  This text is read by an assembler, and the
process that is made of it exits with this status after it has written what the evaluator has
printed, provided that no function has the name of a label that the compiler makes up or a name
that is a reserved word, and that the stack does not overflow. -/
theorem compiled_run_conforms {source : String} {file : Option String}
    (haccepted : frontEnd source file = .ok p)
    (hbuiltins : ∀ f ∈ p.functions, f.builtin = true → f.DeclaresPrint)
    {rounds : Nat} {status : Int32} {out : ByteArray}
    (hrun : (Setting.mk p (.ofSink .collect) rounds).run .empty = .done status out) :
    ∃ a text, p.compile = .ok a ∧ p.assemblyText = .ok text ∧
      (p.NamesApart a → (∀ f ∈ p.functions, isReserved f.name.toList = false) →
        ∃ listing, readListing? text = some listing ∧
          ∀ (loading : Loading listing) (m : Machine), loading.Starts m →
            (∀ n, loading.run n m ≠ .overflow) →
              ∃ n, loading.run n m = .exits status.toBitVec out) := by
  have hp := frontEnd_typed haccepted
  obtain ⟨a, hcompiled, ha⟩ := hp.compile_ok fun f hf hbuiltin => (hbuiltins f hf hbuiltin).name
  have htext := Program.assemblyText_of_compile hcompiled
  refine ⟨a, a.text, hcompiled, htext, fun hnames hfree => ⟨a.listing.plain, ?_, ?_⟩⟩
  · exact ha.read_text hp (frontEnd_names haccepted) hfree
  · intro loading m hstarts hspace
    simp only [loading.run_plain] at hspace ⊢
    exact ha.exits hp hnames hbuiltins hrun hstarts.ofPlain hspace

/-- A program without data in a small memory: every line has its number as its address,
and the stack is the second page. -/
def Listing.paged (a : Listing) (hlines : a.lines.length < addressSpace) (hdata : a.data = []) :
    Loading a where
  code n := BitVec.ofNat 32 n
  locate w := some w.toNat
  data _ := 0
  low := 4096
  top := 8192
  locate_code := by
    intro n hn
    unfold addressSpace at hlines
    rw [BitVec.toNat_ofNat, Nat.mod_eq_of_lt (by omega)]
  low_le_top := by decide
  top_lt := by decide
  aside := by
    intro i line hline
    rw [hdata] at hline
    cases hline

/-- The state in which a process starts there. -/
def Machine.paged : Machine :=
  ⟨0, fun r => if r = .esp then 8192 else 0, none, fun _ => 0, .empty⟩

/-- Whether a process has exited. -/
def Effect.exited : Effect → Bool
  | exits _ _ => true
  | _ => false

theorem Effect.exited_eq_true {e : Effect} :
    e.exited = true ↔ ∃ status output, e = .exits status output := by
  cases e <;> simp [exited]

/-- A program with a call, a local and negative output. -/
def twiceSource : String :=
  "builtin void print(x: i32); i32 twice(n: i32) { var m: i32 = n; return m + n; } " ++
    "i32 main() { print(twice(-6)); return 3; }"

/-- What it compiles to is read and run. -/
theorem compiled_run_conforms_twice :
    ∃ p text listing, frontEnd twiceSource none = .ok p ∧ p.assemblyText = .ok text ∧
      readListing? text = some listing ∧ ∃ (loading : Loading listing) (m : Machine),
        loading.Starts m ∧ ∃ n, loading.run n m = .exits (3 : Int32).toBitVec "-12\n".toUTF8 := by
  have hcheck : (frontEnd twiceSource none).toOption.any (fun p =>
      decide ((∀ f ∈ p.functions, (f.builtin = true → f.DeclaresPrint) ∧ '_' ∉ f.name.toList ∧
          isReserved f.name.toList = false) ∧
        (Setting.mk p (.ofSink .collect) 0).run .empty = .done 3 "-12\n".toUTF8) &&
      p.compile.toOption.any fun a =>
        decide (∃ hsmall : a.lines.length < addressSpace ∧ a.listing.data = [],
          a.listing.target? .entry = some 0 ∧
            ((a.listing.paged hsmall.1 hsmall.2).run 150 .paged).exited = true)) = true := by
    decide +kernel
  obtain ⟨p, haccepted, hcheck⟩ := (Option.any_eq_true _ _).1 hcheck
  rw [Bool.and_eq_true, decide_eq_true_eq, Option.any_eq_true] at hcheck
  obtain ⟨⟨hfunctions, hdone⟩, a, hcompiled, hcode⟩ := hcheck
  obtain ⟨hsmall, hentry, hexited⟩ := of_decide_eq_true hcode
  have haccepted := toOption_eq_some.1 haccepted
  have hcompiled := toOption_eq_some.1 hcompiled
  have hp := frontEnd_typed haccepted
  have hfree : ∀ f ∈ p.functions, isReserved f.name.toList = false :=
    fun f hf => (hfunctions f hf).2.2
  obtain ⟨code, written, hexit⟩ := Effect.exited_eq_true.1 hexited
  obtain ⟨a', text, hcompiled', htext, hconforms⟩ :=
    compiled_run_conforms haccepted (fun f hf => (hfunctions f hf).1) hdone
  obtain rfl : a = a' := Except.ok.inj (hcompiled.symm.trans hcompiled')
  obtain ⟨listing, hread, hruns⟩ := hconforms
    (Program.namesApart_of_plain fun f hf => (hfunctions f hf).2.1) hfree
  -- what is read is known without reading it
  have htext' := Program.assemblyText_of_compile hcompiled
  have hplain := (hp.assemblyOf hcompiled).read_text hp (frontEnd_names haccepted) hfree
  rw [← Except.ok.inj (htext.symm.trans htext')] at hplain
  obtain rfl : listing = a.listing.plain := Option.some.inj (hread.symm.trans hplain)
  have hlines : a.listing.plain.lines.length < addressSpace := by
    rw [Listing.plain, List.length_map]
    exact hsmall.1
  have hstarts : (a.listing.plain.paged hlines hsmall.2).Starts .paged := by
    refine ⟨?_, rfl, ?_, rfl⟩
    · exact (a.listing.target?_entry_plain).trans hentry
    · intro i line hline
      rw [show a.listing.plain.data = [] from hsmall.2] at hline
      cases hline
  have hexit' : (a.listing.plain.paged hlines hsmall.2).run 150 .paged = .exits code written :=
    (Loading.run_plain _ 150 _).trans hexit
  exact ⟨p, text, _, haccepted, htext, hread, _, _, hstarts,
    hruns _ _ hstarts (Loading.run_ne_overflow hexit')⟩

end Slate
