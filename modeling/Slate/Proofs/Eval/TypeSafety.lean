import Slate.Proofs.Eval.Passes

/-!
# Type safety

A call of a function of an accepted program, with arguments that fit, ends with a
value that fits the result of the function, or with one of the expected errors.

Here every builtin is declared void, so builtins keep to what they are declared with.  There
is never nothing in place of a value, and what is known of runs of typed trees is read with
`False` for that: to pass for a type is to fit it.  A missing variable is among the expected
errors, because a branch or a loop body that declares it may not have run.
-/

namespace Slate

variable {σ : Type} {env : Env} {locals final : List Var} {calls : Calls σ} {frame : Frame}

/-- The errors that a run of a checked program can end with. -/
def EvalError.IsExpected : EvalError → Prop
  | noReturn _ | unknownVariable _ | unknownBuiltin _ | unsupportedSyscall _
  | unsupportedDescriptor _ | syscallArguments | writeOutOfBounds _ _ | callDepth | exit _
  | output _ => True
  | _ => False

/-- Errors of the host are expected. -/
theorem EvalError.IsHostError.isExpected {e : EvalError} (h : e.IsHostError) : e.IsExpected := by
  cases e <;> trivial

/-- The expected errors are permitted where there is always a value. -/
theorem permits_expected : Permits False EvalError.IsExpected :=
  ⟨fun _ => trivial, fun h => h.elim⟩

/-! ## Places -/

/-- What is given in a frame that fits is denoted there. -/
theorem Frame.Fits.gives_iff (h : frame.Fits env locals) {v : Value} {t : Ty} :
    frame.Gives False env locals v t ↔ frame.Denotes v t := by
  constructor
  · intro hgives
    cases hgives with
    | value passes => exact .value passes.fits
    | place reference cell known type =>
        have hheld := (Frame.passes_iff_fits.2 h).held cell known
        refine .place reference cell ?_
        rw [← type, Ty.value_eq_self hheld.plain]
        exact hheld.fits.1
  · intro hdenotes
    cases hdenotes with
    | value fits => exact .value fits.passes
    | @place name held _ _ reference cell type =>
        obtain ⟨w, known, hheld⟩ := h (name, held) (List.mem_of_getElem? cell)
        refine .place reference cell known ?_
        rw [← type, hheld.1, Ty.value_eq_self hheld.2.isReference]

/-- Assigning a value that fits to a place succeeds. -/
theorem Frame.assign_eq_ok (h : frame.Fits env locals) {l r : Value} {t : Ty}
    (hl : frame.Denotes l t) (href : t.isReference = true) (hr : r.Fits t.value) :
    ∃ after, frame.assign l r = .ok after ∧ after.Fits env locals ∧ after.Denotes l t := by
  obtain ⟨after, hassign, hafter, hgives⟩ :=
    (Frame.passes_iff_fits.2 h).assign (h.gives_iff.2 hl) href hr.passes
  have hfits := Frame.passes_iff_fits.1 hafter
  exact ⟨after, hassign, hfits, hfits.gives_iff.1 hgives⟩

/-- A cast reads a place. -/
theorem Frame.cast_eq_ok (h : frame.Fits env locals) {v : Value} {t : Ty}
    (hv : frame.Denotes v t) (href : t.isReference = true) :
    ∃ w, frame.cast t.value v = .ok w ∧ w.Fits t.value := by
  obtain ⟨w, hw, hpasses⟩ := (Frame.passes_iff_fits.2 h).cast (h.gives_iff.2 hv) href
  exact ⟨w, hw, hpasses.fits⟩

/-- Fitting arguments are a fitting frame for the body of their function. -/
theorem TypedFunction.frame_fits {signatures : Signatures} {f : Function}
    (hf : TypedFunction signatures f) (hblock : f.builtin = false) {args : List Value}
    (hargs : ValuesFit args (f.arguments.map Var.type)) :
    (Frame.ofArguments f.arguments args .empty).Fits (f.typingEnv signatures) f.locals :=
  Frame.passes_iff_fits.1 (hf.frame_passes hblock hargs.pass)

/-! ## Trees -/

/-- Calls answer with values that fit, or fail with an expected error. -/
structure Calls.Safe (calls : Calls σ) (signatures : Signatures) : Prop where
  syscall : ∀ args, (calls syscallName args).Meets (fun v => v.Fits .int) EvalError.IsExpected
  function : ∀ name signature args, name ≠ syscallName →
    signatures.lookup name = some signature → ValuesFit args signature.arguments →
    (calls name args).Meets (fun v => v.Fits signature.result) EvalError.IsExpected

/-- Calls that are safe answer with what passes, when that is what fits. -/
theorem Calls.safe_iff_pass {signatures : Signatures} :
    calls.Safe signatures ↔ calls.Pass False EvalError.IsExpected signatures := by
  constructor
  · intro h
    refine ⟨h.syscall, fun name signature args hname hknown hargs => ?_⟩
    exact (h.function name signature args hname hknown hargs.fit).imp
      fun _ hv => hv.passes
  · intro h
    refine ⟨h.syscall, fun name signature args hname hknown hargs => ?_⟩
    exact (h.function name signature args hname hknown hargs.pass).imp
      fun _ hv => hv.fits

/-- **Expressions are safe.**  In a frame that fits, a typed expression evaluates to
what its type says and leaves a frame that fits. -/
theorem evalExpr_safe (hcalls : calls.Safe env.signatures) {before after : List Var} {e : Expr}
    {t : Ty} (h : TypedExpr env before e t after) (hgrows : Grows env after final)
    (frame : Frame) (hframe : frame.Fits env final) :
    (evalExpr calls e frame).Meets (fun r => r.2.Fits env final ∧ r.2.Denotes r.1 t)
      EvalError.IsExpected := by
  refine (evalExpr_passes permits_expected (Calls.safe_iff_pass.1 hcalls) h hgrows frame
    (Frame.passes_iff_fits.2 hframe)).imp ?_
  rintro r ⟨hpasses, hgives⟩
  have hfits := Frame.passes_iff_fits.1 hpasses
  exact ⟨hfits, hfits.gives_iff.1 hgives⟩

/-- Arguments evaluate to values that fit their types. -/
theorem evalArguments_safe (hcalls : calls.Safe env.signatures) {before after : List Var}
    {es : List Expr} {ts : List Ty} (h : TypedArguments env before es ts after)
    (hgrows : Grows env after final) (frame : Frame) (hframe : frame.Fits env final) :
    (evalArguments calls es frame).Meets (fun r => r.2.Fits env final ∧ ValuesFit r.1 ts)
      EvalError.IsExpected := by
  refine (evalArguments_passes permits_expected (Calls.safe_iff_pass.1 hcalls) h hgrows frame
    (Frame.passes_iff_fits.2 hframe)).imp ?_
  exact fun r hr => ⟨Frame.passes_iff_fits.1 hr.1, hr.2.fit⟩

/-- The same for a condition. -/
theorem evalCondition_safe (hcalls : calls.Safe env.signatures) {before after : List Var}
    {e : Expr} (h : TypedExpr env before e .bool after) (hgrows : Grows env after final)
    (frame : Frame) (hframe : frame.Fits env final) :
    (evalCondition calls e frame).Meets (fun r => r.2.Fits env final) EvalError.IsExpected :=
  (evalCondition_passes permits_expected (Calls.safe_iff_pass.1 hcalls) h hgrows frame
    (Frame.passes_iff_fits.2 hframe)).imp fun _ => Frame.passes_iff_fits.1

/-- What a statement hands on: nothing, or a returned value that fits. -/
def Stop.Fits (stop : Stop) (t : Ty) : Prop :=
  ∀ v, stop = some v → v.Fits t

/-- What statements leave: a frame that fits, and a returned value that fits. -/
def Settled (env : Env) (final : List Var) (r : Stop × Frame) : Prop :=
  r.2.Fits env final ∧ r.1.Fits env.result

/-- Statements that pass are settled. -/
theorem Passing.settled {r : Stop × Frame} (h : Passing False env final r) : Settled env final r :=
  ⟨Frame.passes_iff_fits.1 h.1, fun v hv => (h.2 v hv).fits⟩

/-- **Statements are safe.** -/
theorem execStmt_safe (hcalls : calls.Safe env.signatures)
    (hresult : env.result.isReference = false) (rounds : Nat) {before after : List Var}
    {s : Stmt} (h : TypedStmt env before s after) (hgrows : Grows env after final)
    (frame : Frame) (hframe : frame.Fits env final) :
    (execStmt calls rounds s frame).Meets (Settled env final) EvalError.IsExpected :=
  (execStmt_passes permits_expected (Calls.safe_iff_pass.1 hcalls) hresult rounds h hgrows frame
    (Frame.passes_iff_fits.2 hframe)).imp fun _ => Passing.settled

/-- The same for a list of statements. -/
theorem execStmts_safe (hcalls : calls.Safe env.signatures)
    (hresult : env.result.isReference = false) (rounds : Nat) {before after : List Var}
    {ss : List Stmt} (h : TypedStmts env before ss after) (hgrows : Grows env after final)
    (frame : Frame) (hframe : frame.Fits env final) :
    (execStmts calls rounds ss frame).Meets (Settled env final) EvalError.IsExpected :=
  (execStmts_passes permits_expected (Calls.safe_iff_pass.1 hcalls) hresult rounds h hgrows frame
    (Frame.passes_iff_fits.2 hframe)).imp fun _ => Passing.settled

/-! ## Calls -/

section

variable {setting : Setting σ}

/-- When every builtin is declared void, the expected errors are all there are. -/
theorem Setting.permits_expected
    (hbuiltins : ∀ f ∈ setting.program.functions, f.builtin = true → f.result = .void) :
    setting.Permits False EvalError.IsExpected where
  toPermits := Slate.permits_expected
  noReturn := fun _ => trivial
  callDepth := trivial
  syscall := fun _ he => he.isHostError.isExpected
  builtin := by
    intro f hf hbuiltin args _
    rw [hbuiltins f hf hbuiltin]
    exact (meets_callBuiltin f args).mono (fun _ hv => hv.passes) fun _ he => he.isExpected

variable (hp : TypedProgram setting.program)
  (hbuiltins : ∀ f ∈ setting.program.functions, f.builtin = true → f.result = .void)
include hp hbuiltins

/-- Calls are safe when functions with a body are entered safely. -/
theorem dispatch_safe {enter : Function → List Value → Run σ Value}
    (henter : ∀ f ∈ setting.program.functions, f.builtin = false → ∀ args,
      ValuesFit args (f.arguments.map Var.type) →
        (enter f args).Meets (fun v => v.Fits f.result) EvalError.IsExpected) :
    (setting.dispatch enter).Safe setting.program.signatures := by
  refine Calls.safe_iff_pass.2 (dispatch_passes (Setting.permits_expected hbuiltins) hp ?_)
  intro f hf hblock args hargs
  exact (henter f hf hblock args hargs.fit).imp fun _ hv => hv.passes

/-- Functions are entered safely, however deep calls may still nest. -/
theorem enter_safe (allowed : Nat) :
    ∀ f ∈ setting.program.functions, f.builtin = false → ∀ args,
      ValuesFit args (f.arguments.map Var.type) →
        (setting.enter allowed f args).Meets (fun v => v.Fits f.result) EvalError.IsExpected := by
  intro f hf hblock args hargs
  exact (enter_passes (Setting.permits_expected hbuiltins) hp allowed f hf hblock args
    hargs.pass).imp fun _ hv => hv.fits

/-- So every call of a program is safe. -/
theorem call_safe : (setting.call).Safe setting.program.signatures :=
  dispatch_safe hp hbuiltins (enter_safe hp hbuiltins maxCallDepth)

end

/-- **Accepted programs are type safe.**  When every builtin of an accepted program is
declared void, a call of a declared function with one fitting value for every argument
ends with a value that fits the declared result, or with an expected error, if it
ends. -/
theorem accepted_call_fits {source : String} {file : Option String} {p : Program}
    (haccepted : frontEnd source file = .ok p)
    (hbuiltins : ∀ f ∈ p.functions, f.builtin = true → f.result = .void)
    (host : Host σ) (rounds : Nat) {f : Function} (hf : f ∈ p.functions) {args : List Value}
    (hargs : ValuesFit args (f.arguments.map Var.type)) :
    ((Setting.mk p host rounds).call f.name args).Meets (fun v => v.Fits f.result)
      EvalError.IsExpected := by
  have hp := frontEnd_typed haccepted
  have hsafe : (Setting.mk p host rounds).call.Safe p.signatures :=
    @call_safe σ ⟨p, host, rounds⟩ hp hbuiltins
  exact hsafe.function f.name f.signature args (hp.free f hf) (hp.lookup_signature hf) hargs

/-- A function that declares, loops and assigns. -/
def doublingSource : String :=
  "i32 double(n: i32) { var m: i32 = n; while (m != 0) { m = m - 1; n = n + 1; } return n; }"

/-- The theorem applies to the function. -/
theorem accepted_call_fits_double :
    ∃ p f, frontEnd doublingSource none = .ok p ∧ f ∈ p.functions ∧
      ((Setting.mk p (.ofSink .collect) 4).call f.name [.int 3]).Meets (fun v => v.Fits f.result)
        EvalError.IsExpected := by
  have hcheck : (frontEnd doublingSource none).toOption.any (fun p =>
        p.functions.all (fun f => !f.builtin) &&
          p.functions.any fun f => decide (f.arguments.map Var.type = [.int])) = true := by
    decide +kernel
  obtain ⟨p, haccepted, hcheck⟩ := (Option.any_eq_true _ _).1 hcheck
  rw [Bool.and_eq_true, List.all_eq_true, List.any_eq_true] at hcheck
  obtain ⟨hblocks, f, hf, htypes⟩ := hcheck
  have haccepted := toOption_eq_some.1 haccepted
  refine ⟨p, f, haccepted, hf, accepted_call_fits haccepted ?_ (.ofSink .collect) 4 hf ?_⟩
  · intro g hg hbuiltin
    have hblock := hblocks g hg
    rw [hbuiltin] at hblock
    cases hblock
  · rw [of_decide_eq_true htypes]
    exact .cons ⟨rfl, .int 3⟩ .nil

end Slate
