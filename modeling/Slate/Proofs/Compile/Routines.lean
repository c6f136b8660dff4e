import Slate.Proofs.Compile.Frames
import Slate.Proofs.Compile.Printing

/-!
# Routines follow functions

A routine does what the evaluator does when it enters the function.  Functions call each
other, so this is shown for all of them together, by induction on how deep calls may
still nest: the body of a function is followed if the calls in it are
(`body_follows`), and calls are followed if functions can be entered one level deeper
(`dispatch_compiled`).

A body that goes on behind its last statement returns from a void function, and from no
other one.  The compiler leaves the epilogue out behind a `return`, which never goes on.
-/

namespace Slate

variable {p : Program} {a : Assembly} {loading : Loading a.listing} {f : Function} {l : Layout}
  {frame : Frame} {calls : Calls ByteArray} {m m₁ m₂ : Machine} {values : List Value} {top : Nat}

/-- The declaration of the builtin that there is a routine for. -/
structure Function.DeclaresPrint (f : Function) : Prop where
  name : f.name = "print"
  result : f.result = .void
  arguments : f.arguments.map Var.type = [.int]

instance (f : Function) : Decidable f.DeclaresPrint :=
  decidable_of_iff (f.name = "print" ∧ f.result = .void ∧ f.arguments.map Var.type = [.int])
    ⟨fun h => ⟨h.1, h.2.1, h.2.2⟩, fun h => ⟨h.name, h.result, h.arguments⟩⟩

/-- Statements that end in a `return` do not go on. -/
theorem execStmts_stops {σ : Type} {calls : Calls σ} {rounds : Nat} {stmts : List Stmt}
    (hends : endsInReturn stmts = true) :
    ∀ {frame : Frame} {state : σ} {r : Stop × Frame} {final : σ},
      execStmts calls rounds stmts frame state = .done r final → r.1 ≠ none := by
  induction stmts with
  | nil => cases hends
  | cons s ss ih =>
      intro frame state r final hrun
      rw [execStmts] at hrun
      obtain ⟨⟨stop, after⟩, middle, hfirst, hrest⟩ := Run.bind_eq_done.1 hrun
      cases stop with
      | some v =>
          cases hrest
          exact Option.some_ne_none v
      | none =>
          cases ss with
          | cons t ts =>
              refine ih ?_ hrest
              unfold endsInReturn at hends ⊢
              rw [List.getLast?_cons_cons] at hends
              exact hends
          | nil =>
              -- The last statement is the `return`.
              cases s with
              | ret span value =>
                  cases value with
                  | none =>
                      rw [execStmt] at hfirst
                      cases hfirst
                  | some e =>
                      rw [execStmt] at hfirst
                      obtain ⟨_, _, _, hvalue⟩ := Run.bind_eq_done.1 hfirst
                      obtain ⟨_, _, _, hstop⟩ := Run.bind_eq_done.1 hvalue
                      cases hstop
              | _ => cases hends

/-- **Returning.**  A function returns from wherever its body leads to the epilogue. -/
theorem Entered.returns (h : Entered loading f m₁ l m₂) (hcalled : Called loading m values top m₁)
    (hlength : values.length = f.arguments.length) {m' : Machine} {v : Value}
    (hholds : Holds loading l frame m') (hstack : m'.registers .esp = m₂.registers .esp)
    (hkeeps : Keeps loading (m₂.registers .esp).toNat l.Own m₂.memory m'.memory)
    (hresult : Encodes loading v.data (m'.registers .eax))
    (hstands : Stands a.listing.lines m'.line (codeLines f.epilogue)) :
    loading.Reaches (fun m₃ => m₃.output = m'.output ∧ Returned loading m top v m₃) m' := by
  have hcaller := hcalled.stack
  have hcount := hcalled.count
  have hhigh := hcalled.high
  have hfloor := h.floor
  have hstack₂ := h.stack
  have hroom : (m₁.registers .esp).toNat + 4 + 4 * f.arguments.length ≤ loading.top := by
    omega
  have hown : ∀ q, l.Own q → loading.low ≤ q ∧ q < top := by
    intro q hq
    have hbounds := (h.own hroom hq).2
    omega
  refine .after (h.leaves hroom hholds hstack hkeeps hstands) fun m₃ hm₃ => ?_
  obtain ⟨hret, hsame, hbase, heax, hmemory, houtput⟩ := hm₃
  rw [← houtput]
  refine hcalled.returns hret hsame hbase ?_ (heax ▸ hresult) ?_
  · rw [hmemory, hkeeps.word (by omega), h.keeps.word (Nat.le_refl _) fun _ _ _ hno => hno]
    intro q hfrom hto hq
    have hbounds := (h.own hroom hq).1
    omega
  · rw [hmemory]
    exact (h.keeps.mono (by omega) fun _ hno => hno).trans (hkeeps.within (by omega) hown)

section

variable (hp : TypedProgram p) (hunambiguous : a.listing.Unambiguous)
include hp hunambiguous

/-- **Bodies.**  The routine of a function follows the body, if calls are followed. -/
theorem body_follows (rounds : Nat) (hf : f ∈ p.functions) (hblock : f.builtin = false)
    (hsafe : calls.Safe p.signatures) (hcompiled : calls.Compiled loading p.signatures)
    {r : Routine} (hroutine : RoutineOf a.literals f r) (hcalled : Called loading m values top m₁)
    (hvalues : ValuesFit values (f.arguments.map Var.type))
    (hstands : Stands a.listing.lines m₁.line r.lines) :
    loading.Follows m₁ (Returned loading m top)
      ((Setting.mk p (.ofSink .collect) rounds).body calls f values m₁.output) := by
  have hfunction := hp.each f hf
  have hdistinct := hfunction.env_distinct hblock
  have hlength : values.length = f.arguments.length := by
    rw [hvalues.length_eq, List.length_map]
  have hcaller := hcalled.stack
  have hcount := hcalled.count
  have hhigh := hcalled.high
  have hroom : (m₁.registers .esp).toNat + 4 + 4 * f.arguments.length ≤ loading.top := by
    omega
  have htop : (m₁.registers .esp).toNat + 4 + 4 * f.arguments.length = top := by
    omega
  cases hroutine with
  | builtin builtin name =>
      rw [hblock] at builtin
      cases builtin
  | @block before body s block tracked compiled numbered known =>
      rw [stands_append, stands_append] at hstands
      obtain ⟨⟨hprologue, hbody⟩, hending⟩ := hstands
      refine .after (reaches_entered hcalled.low hprologue) fun m₂ hm₂ => ?_
      obtain ⟨l, hentered⟩ := hm₂
      have hin : InBody loading l (f.typingEnv p.signatures) f.locals calls :=
        ⟨hentered.sound hroom hdistinct, hentered.offsets, hdistinct, hunambiguous, hsafe,
          hcompiled⟩
      have hholds : Holds loading l (Frame.ofArguments f.arguments values .empty) m₂ :=
        hentered.holds hroom hdistinct hlength (htop ▸ hcalled.pushed) hcalled.loaded
      have hstart : (CompileState.start f before).Tracks f.arguments [] := ⟨rfl, rfl⟩
      rw [length_codeLines, ← hentered.line] at hbody
      rw [← hentered.output]
      unfold Setting.body
      refine (execStmts_follows hin hfunction.value f rounds (hfunction.body hblock)
        List.prefix_rfl hstart compiled known (hfunction.frame_fits hblock hvalues) hholds
        hbody).bind fun q m₃ hrun h₃ => ?_
      obtain ⟨stop, after⟩ := q
      cases stop with
      | some v =>
          obtain ⟨hresult, hepilogue⟩ := h₃.returns v rfl
          exact hentered.returns hcalled hlength h₃.holds h₃.stack h₃.keeps hresult hepilogue
      | none =>
          by_cases hvoid : f.result.isVoid = true
          · simp only [hvoid, if_true]
            have hepilogue : Stands a.listing.lines m₃.line (codeLines f.epilogue) := by
              cases hends : endsInReturn f.body with
              | true => exact (execStmts_stops hends hrun rfl).elim
              | false =>
                  rw [hends, List.length_append, length_codeLines, ← Nat.add_assoc, ← hentered.line,
                    ← h₃.goesOn rfl] at hending
                  exact hending
            have hresult : Encodes loading Value.void.data (m₃.registers .eax) := .void _
            exact hentered.returns hcalled hlength h₃.holds h₃.stack h₃.keeps hresult hepilogue
          · simp only [hvoid, Bool.false_eq_true, if_false]
            exact .fail (by simp)

variable (ha : AssemblyOf p a)
  (hbuiltins : ∀ f ∈ p.functions, f.builtin = true → f.DeclaresPrint)
include ha hbuiltins

/-- **Calls of routines.**  Calls are followed when functions with a body are. -/
theorem dispatch_compiled (rounds : Nat) {enter : Function → List Value → Run ByteArray Value}
    (henter : ∀ f ∈ p.functions, f.builtin = false → ∀ (r : Routine), RoutineOf a.literals f r →
      ∀ values, ValuesFit values (f.arguments.map Var.type) → ∀ (m m₁ : Machine) (top : Nat),
        Called loading m values top m₁ → Stands a.listing.lines m₁.line r.lines →
          loading.Follows m₁ (Returned loading m top) (enter f values m₁.output)) :
    ((Setting.mk p (.ofSink .collect) rounds).dispatch enter).Compiled loading p.signatures := by
  refine ⟨?_, ?_⟩
  · intro values
    unfold Setting.dispatch
    rw [if_pos rfl]
  · intro name signature values hname hknown hvalues m top rest hstands hready
    obtain ⟨f, hfunction, rfl⟩ := hp.function?_of_signature hknown
    obtain ⟨hf, rfl⟩ := function?_eq_some hfunction
    obtain ⟨r, hr, hroutine⟩ := ha.routine f hf
    obtain ⟨n, hstandsRoutine⟩ := Assembly.stands_routine hr
    rw [hroutine.name_eq] at hstandsRoutine
    have hlength : f.arguments.length = values.length := by
      rw [hvalues.length_eq]
      exact (List.length_map Var.type).symm
    unfold Setting.dispatch
    rw [if_neg hname]
    simp only [hfunction]
    rw [if_neg (fun hne => hne hlength)]
    refine .after (reaches_routine hstands hready hunambiguous hstandsRoutine) fun m₁ hm₁ => ?_
    obtain ⟨hline, hcalled⟩ := hm₁
    have hcode : Stands a.listing.lines m₁.line r.lines := hline ▸ hstandsRoutine.2
    rw [← hcalled.output]
    by_cases hbuiltin : f.builtin = true
    · rw [if_pos hbuiltin]
      have hprint := hbuiltins f hf hbuiltin
      have htypes : ValuesFit values [.int] := hprint.arguments ▸ hvalues
      cases htypes with
      | cons first others =>
          cases others
          cases hroutine with
          | builtin _ name => exact print_follows hcalled name first hunambiguous hcode
          | block block _ _ _ _ =>
              rw [hbuiltin] at block
              cases block
    · rw [if_neg hbuiltin]
      exact henter f hf (Bool.eq_false_iff.2 hbuiltin) r hroutine values hvalues m m₁ top hcalled
        hcode

/-- **Functions.**  A function is followed, however deep calls may still nest. -/
theorem enter_follows (rounds allowed : Nat) :
    ∀ f ∈ p.functions, f.builtin = false → ∀ (r : Routine), RoutineOf a.literals f r →
      ∀ values, ValuesFit values (f.arguments.map Var.type) → ∀ (m m₁ : Machine) (top : Nat),
        Called loading m values top m₁ → Stands a.listing.lines m₁.line r.lines →
          loading.Follows m₁ (Returned loading m top)
            ((Setting.mk p (.ofSink .collect) rounds).enter allowed f values m₁.output) := by
  have hvoid : ∀ f ∈ p.functions, f.builtin = true → f.result = .void :=
    fun f hf hbuiltin => (hbuiltins f hf hbuiltin).result
  induction allowed with
  | zero =>
      intro f _ _ r _ values _ m m₁ top _ _
      rw [Setting.enter]
      exact .fail (by simp)
  | succ allowed ih =>
      intro f hf hblock r hroutine values hvalues m m₁ top hcalled hstands
      rw [Setting.enter]
      have hsafe := dispatch_safe hp hvoid
        (@enter_safe _ (Setting.mk p (.ofSink .collect) rounds) hp hvoid allowed)
      exact body_follows hp hunambiguous rounds hf hblock hsafe
        (dispatch_compiled hp hunambiguous ha hbuiltins rounds ih) hroutine hcalled hvalues hstands

/-- **Calls.**  The machine follows every call of a function. -/
theorem call_compiled (rounds : Nat) :
    ((Setting.mk p (.ofSink .collect) rounds).call).Compiled loading p.signatures :=
  dispatch_compiled hp hunambiguous ha hbuiltins rounds
    (enter_follows hp hunambiguous ha hbuiltins rounds maxCallDepth)

end

end Slate
