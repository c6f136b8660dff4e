import Mathlib.Data.List.Forall2
import Slate.Proofs.Eval.HostCalls
import Slate.Proofs.Typing.Accepted

/-!
# Runs of typed trees

A run of a typed tree is followed here, by induction on the typing derivation.  The frame
is not known to have all the variables that the text has declared so far, because a branch
or a loop body may not have run; it is only known that what it has is of the declared type.
The locals of the whole function decide what a name means: those of a derivation grow
towards them (`Grows`).  Calls come in as an assumption on `Calls`, which is discharged by
induction on how deep calls may still nest.

What is of a type is not always a value of it.  A builtin may be declared with any result,
and the checker takes the declaration for true; but builtins return nothing.  So nothing can
turn up where a value should be, and be handed on through variables, arguments and results.
It stops at operators and conditions, which are not defined on it.  Whether this is reckoned
with is a parameter, `lax`; when it is `False`, to pass for a type is to fit it, and no
operator fails.  The other parameter is what errors there may be.
-/

namespace Slate

variable {σ : Type} {lax : Prop} {E : EvalError → Prop} {env : Env} {locals final : List Var}
  {calls : Calls σ} {frame : Frame}

/-! ## Values -/

/-- The value passes for one of the type: it is one, or it is nothing in place of one.  If
there can be nothing in place of a value, the type that values carry is not looked at, for a
variable keeps the type of what it held first. -/
structure Value.Passes (lax : Prop) (v : Value) (t : Ty) : Prop where
  plain : t.isReference = false
  type : lax ∨ v.type = t
  data : v.data.Fits t ∨ lax ∧ v.data = .void

/-- There is one value for every type, and it passes for it. -/
abbrev ValuesPass (lax : Prop) : List Value → List Ty → Prop :=
  List.Forall₂ (Value.Passes lax)

/-- A value that fits passes. -/
theorem Value.Fits.passes {v : Value} {t : Ty} (h : v.Fits t) : v.Passes lax t :=
  ⟨h.2.isReference, .inr h.1, .inl h.2⟩

/-- Unless there can be nothing in place of a value, what passes fits. -/
theorem Value.Passes.lax_or_fits {v : Value} {t : Ty} (h : v.Passes lax t) : lax ∨ v.Fits t := by
  rcases h.type with hlax | htype
  · exact .inl hlax
  · exact h.data.symm.imp And.left fun hdata => ⟨htype, hdata⟩

/-- Where there is always a value, what passes fits. -/
theorem Value.Passes.fits {v : Value} {t : Ty} (h : v.Passes False t) : v.Fits t :=
  h.lax_or_fits.resolve_left id

/-- Values that fit pass. -/
theorem ValuesFit.pass {vs : List Value} {ts : List Ty} (h : ValuesFit vs ts) :
    ValuesPass lax vs ts := by
  induction h with
  | nil => exact .nil
  | cons first _ ih => exact .cons first.passes ih

/-- Where there is always a value, values that pass fit. -/
theorem ValuesPass.fit {vs : List Value} {ts : List Ty} (h : ValuesPass False vs ts) :
    ValuesFit vs ts := by
  induction h with
  | nil => exact .nil
  | cons first _ ih => exact .cons first.fits ih

/-- What passes is not looked behind. -/
theorem Frame.valueOf_of_passes {v : Value} {t : Ty} (h : v.Passes lax t) :
    frame.valueOf v = .ok v := by
  obtain ⟨type, data⟩ := v
  rcases h.data with hfits | ⟨_, hvoid⟩
  · cases hfits <;> rfl
  · cases hvoid
    rfl

/-! ## Operators -/

/-- The errors that a typed tree can end with, besides those of its calls, are in `E`. -/
structure Permits (lax : Prop) (E : EvalError → Prop) : Prop where
  missing : ∀ name, E (.unknownVariable name)
  operands : lax → ∀ e, e.IsOperandError → E e

/-- A binary operator on operands that pass. -/
theorem meets_binary (hE : Permits lax E) {op : BinaryOp} {operand result : Ty} {l r : Value}
    (h : op.resultType operand = .ok result) (hl : l.Passes lax operand)
    (hr : r.Passes lax operand) :
    (Run.ofExcept (op.apply l r) : Run σ Value).Meets (fun v => v.Fits result) E := by
  refine .ofExcept (fun _ => BinaryOp.fits_of_apply h) fun e he => ?_
  have herror := BinaryOp.apply_error he
  rcases hl.lax_or_fits with hlax | hl
  · exact hE.operands hlax e herror
  · rcases hr.lax_or_fits with hlax | hr
    · exact hE.operands hlax e herror
    · obtain ⟨v, hv, _⟩ := BinaryOp.apply_fits h hl hr
      rw [hv] at he
      cases he

/-- A unary operator on an operand that passes. -/
theorem meets_unary (hE : Permits lax E) {op : UnaryOp} {v : Value}
    (hv : v.Passes lax op.operandType) :
    (Run.ofExcept (op.apply v) : Run σ Value).Meets (fun w => w.Fits op.operandType) E := by
  refine .ofExcept (fun _ => UnaryOp.fits_of_apply) fun e he => ?_
  rcases hv.lax_or_fits with hlax | hv
  · exact hE.operands hlax e (UnaryOp.apply_error he)
  · obtain ⟨w, hw, _⟩ := UnaryOp.apply_fits hv
    rw [hw] at he
    cases he

/-- A condition that passes for a truth value. -/
theorem meets_condition (hE : Permits lax E) {v : Value} (hv : v.Passes lax .bool) :
    (Run.ofExcept v.condition : Run σ Bool).Meets (fun _ => True) E := by
  refine .ofExcept (fun _ _ => trivial) fun e he => ?_
  rcases hv.lax_or_fits with hlax | hv
  · exact hE.operands hlax e (Value.condition_error he)
  · obtain ⟨truth, htruth⟩ := Value.condition_eq_ok hv
    rw [htruth] at he
    cases he

/-! ## Frames -/

/-- What every cell holds passes for the type that its name was declared with. -/
def Frame.Passes (lax : Prop) (frame : Frame) (env : Env) (locals : List Var) : Prop :=
  ∀ cell ∈ frame.cells, ∃ v, env.find? locals cell.1 = some v ∧ cell.2.Passes lax v.type

/-- In the frame the value is what an expression of the type stands for: a value that passes
for the type, or a place of a variable that was declared with the type of the values there. -/
inductive Frame.Gives (lax : Prop) (frame : Frame) (env : Env) (locals : List Var) :
    Value → Ty → Prop
  | value {v : Value} {t : Ty} (passes : v.Passes lax t) : Gives lax frame env locals v t
  | place {name : String} {held : Value} {w : Var} {slot : Nat} {t : Ty}
      (reference : t.isReference = true) (cell : frame.cells[slot]? = some (name, held))
      (known : env.find? locals name = some w) (type : w.type.value = t.value) :
      Gives lax frame env locals ⟨t, .ref slot⟩ t

/-- Where there is always a value, the frames that pass are those that fit. -/
theorem Frame.passes_iff_fits : frame.Passes False env locals ↔ frame.Fits env locals := by
  refine forall₂_congr fun cell _ => exists_congr fun v => and_congr_right fun _ => ?_
  exact ⟨Value.Passes.fits, Value.Fits.passes⟩

/-- What is of a type of values passes for it. -/
theorem Frame.Gives.passes {v : Value} {t : Ty} (h : frame.Gives lax env locals v t)
    (hplain : t.isReference = false) : v.Passes lax t := by
  cases h with
  | value passes => exact passes
  | place reference _ _ _ =>
      rw [hplain] at reference
      cases reference

/-- What is of a reference type is the place of a variable. -/
theorem Frame.Gives.cell {v : Value} {t : Ty} (h : frame.Gives lax env locals v t)
    (href : t.isReference = true) :
    ∃ slot name held w, v = ⟨t, .ref slot⟩ ∧ frame.cells[slot]? = some (name, held) ∧
      env.find? locals name = some w ∧ w.type.value = t.value := by
  cases h with
  | value passes =>
      rw [passes.plain] at href
      cases href
  | @place name held w slot _ reference cell known type =>
      exact ⟨slot, name, held, w, rfl, cell, known, type⟩

theorem Frame.passes_empty : Frame.empty.Passes lax env locals :=
  fun _ hcell => nomatch hcell

/-- What a place holds passes for the type of the values there. -/
theorem Frame.Passes.held (h : frame.Passes lax env locals) {slot : Nat} {name : String}
    {held : Value} {w : Var} (hcell : frame.cells[slot]? = some (name, held))
    (hknown : env.find? locals name = some w) : held.Passes lax w.type := by
  obtain ⟨v, hv, hpasses⟩ := h (name, held) (List.mem_of_getElem? hcell)
  obtain rfl : v = w := Option.some.inj (hv.symm.trans hknown)
  exact hpasses

/-- A declaration with a value that passes keeps the frame passing. -/
theorem Frame.Passes.declare (h : frame.Passes lax env locals) {v : Var} {value : Value}
    (hknown : env.find? locals v.name = some v) (hvalue : value.Passes lax v.type) :
    (frame.declare v.name value).2.Passes lax env locals := by
  intro cell hcell
  rcases Frame.mem_declare hcell with rfl | hmem
  · exact ⟨v, hknown, hvalue⟩
  · exact h cell hmem

/-- Assigning a value that passes to a place succeeds. -/
theorem Frame.Passes.assign (h : frame.Passes lax env locals) {l r : Value} {t : Ty}
    (hl : frame.Gives lax env locals l t) (href : t.isReference = true)
    (hr : r.Passes lax t.value) :
    ∃ after, frame.assign l r = .ok after ∧ after.Passes lax env locals ∧
      after.Gives lax env locals l t := by
  obtain ⟨slot, name, held, w, rfl, hcell, hknown, htype⟩ := hl.cell href
  have hheld := h.held hcell hknown
  have hstored : Value.Passes lax { held with data := r.data } w.type := by
    refine ⟨hheld.plain, hheld.type, ?_⟩
    rw [← Ty.value_eq_self hheld.plain, htype]
    exact hr.data
  refine ⟨_, Frame.store_eq_ok.2 ⟨name, held, hcell, rfl⟩, ?_, ?_⟩
  · intro cell hmem
    rcases List.mem_or_eq_of_mem_set hmem with hmem | rfl
    · exact h cell hmem
    · exact ⟨w, hknown, hstored⟩
  · obtain ⟨hlt, _⟩ := List.getElem?_eq_some_iff.1 hcell
    exact .place href (List.getElem?_set_self hlt) hknown htype

/-- A cast reads a place. -/
theorem Frame.Passes.cast (h : frame.Passes lax env locals) {v : Value} {t : Ty}
    (hv : frame.Gives lax env locals v t) (href : t.isReference = true) :
    ∃ w, frame.cast t.value v = .ok w ∧ w.Passes lax t.value := by
  obtain ⟨slot, name, held, w, rfl, hcell, hknown, htype⟩ := hv.cell href
  have hheld := h.held hcell hknown
  refine ⟨⟨t.value, held.data⟩, ?_, t.isReference_value, .inr rfl, ?_⟩
  · simp [Frame.cast, Frame.load, hcell, Ty.value, Ty.agrees, Except.map]
  · rw [← htype, Ty.value_eq_self hheld.plain]
    exact hheld.data

/-- The frame of a call passes when the arguments do. -/
theorem Frame.ofArguments_passes {vs : List Var} {values : List Value}
    (hvalues : ValuesPass lax values (vs.map Var.type))
    (hknown : ∀ v ∈ vs, env.find? locals v.name = some v) :
    ∀ frame : Frame, frame.Passes lax env locals →
      (Frame.ofArguments vs values frame).Passes lax env locals := by
  induction vs generalizing values with
  | nil => exact fun frame hframe => hframe
  | cons v vs ih =>
      intro frame hframe
      cases hvalues with
      | @cons value _ values _ hfirst hothers =>
          obtain ⟨hv, hrest⟩ := List.forall_mem_cons.1 hknown
          exact ih hothers hrest _ (hframe.declare hv hfirst)

/-! ## Expressions -/

/-- Calls with arguments that pass answer with values that pass, or fail with an error of
`E`. -/
structure Calls.Pass (lax : Prop) (E : EvalError → Prop) (calls : Calls σ)
    (signatures : Signatures) : Prop where
  syscall : ∀ args, (calls syscallName args).Meets (fun v => v.Fits .int) E
  function : ∀ name signature args, name ≠ syscallName →
    signatures.lookup name = some signature → ValuesPass lax args signature.arguments →
    (calls name args).Meets (fun v => v.Passes lax signature.result) E

/-- The noted type is found. -/
theorem noted_eq_ok {e : Expr} {t : Ty} (h : e.note.type = some t) : e.noted = .ok t := by
  unfold Expr.noted Expr.type?
  rw [h]

mutual

/-- In a frame that passes, a typed expression evaluates to what its type says and leaves a
frame that passes. -/
theorem evalExpr_passes (hE : Permits lax E) (hcalls : calls.Pass lax E env.signatures)
    {before after : List Var} {e : Expr} {t : Ty} :
    TypedExpr env before e t after → Grows env after final →
      ∀ frame : Frame, frame.Passes lax env final →
        (evalExpr calls e frame).Meets
          (fun r => r.2.Passes lax env final ∧ r.2.Gives lax env final r.1 t) E
  | @TypedExpr.literal _ _ _ value noted => by
      intro _ frame hframe
      refine .literal (.known (noted_eq_ok noted)) ?_
      rintro t rfl
      exact ⟨hframe, .value value.fits.passes⟩
  | @TypedExpr.declare _ _ _ v storable plain fresh noted => by
      intro hgrows frame hframe
      have hknown := hgrows _ _ (find?_declare fresh)
      refine .declare (.known (noted_eq_ok noted)) ?_
      rintro t rfl
      refine ⟨hframe.declare hknown (Value.zero_fits storable plain).passes, ?_⟩
      exact .place rfl (frame.cell_declare v.name (.zero v.type)) hknown rfl
  | @TypedExpr.var _ _ _ name v known noted => by
      intro hgrows frame hframe
      have hlookup : (Run.ofExcept (frame.lookup name) : Run σ Nat).Meets
          (fun slot => frame.slot? name = some slot) E := by
        refine .ofExcept (fun slot => Frame.lookup_eq_ok.1) fun e he => ?_
        obtain ⟨_, rfl⟩ := Frame.lookup_eq_error.1 he
        exact hE.missing name
      refine .var (.known (noted_eq_ok noted)) hlookup ?_
      rintro t slot rfl hslot
      -- The declaration that the checker saw is the one that made the cell.
      obtain ⟨held, hcell⟩ := Frame.cell_of_slot? hslot
      exact ⟨hframe, .place rfl hcell (hgrows _ _ known) rfl⟩
  | @TypedExpr.assign _ _ _ _ _ left right t value place reference noted => by
      intro hgrows frame hframe
      have hpasses : ∀ r : Value × Frame, r.2.Passes lax env final ∧
          r.2.Gives lax env final r.1 t.value → r.1.Passes lax t.value :=
        fun r hr => hr.2.passes t.isReference_value
      refine .assign (.known (noted_eq_ok noted))
        (evalExpr_passes hE hcalls value (place.grows.trans hgrows) frame hframe)
        (fun r hr => .known (Frame.valueOf_of_passes (hpasses r hr)))
        (fun r v hr _ => evalExpr_passes hE hcalls place hgrows r.2 hr.1) ?_
      rintro r v l hr rfl ⟨hkept, hplace⟩
      obtain ⟨assigned, hassign, hafter, hgives⟩ :=
        hkept.assign hplace reference (hpasses r hr)
      exact .succeeds hassign ⟨hafter, hgives⟩
  | .syscall few arguments noted => by
      intro hgrows frame hframe
      refine .call (.known (noted_eq_ok noted))
        (evalArguments_passes hE hcalls arguments hgrows frame hframe) fun r hr => ?_
      exact (hcalls.syscall r.1).imp fun v hv => ⟨hr.1, .value hv.passes⟩
  | .call other known arguments noted => by
      intro hgrows frame hframe
      refine .call (.known (noted_eq_ok noted))
        (evalArguments_passes hE hcalls arguments hgrows frame hframe) fun r hr => ?_
      exact (hcalls.function _ _ r.1 other known hr.2).imp fun v hv => ⟨hr.1, .value hv⟩
  | .binary first second plain defined noted => by
      intro hgrows frame hframe
      refine .binary (.known (noted_eq_ok noted))
        (evalExpr_passes hE hcalls first (second.grows.trans hgrows) frame hframe)
        (fun l hl => (evalExpr_passes hE hcalls second hgrows l.2 hl.1).imp
          (fun r hr => And.intro (hl.2.passes plain) hr)) ?_
      rintro l r _ ⟨hfirst, hkept, hsecond⟩
      exact (meets_binary hE defined hfirst (hsecond.passes plain)).imp
        fun v hv => ⟨hkept, .value hv.passes⟩
  | @TypedExpr.unary _ _ _ _ op _ value noted => by
      intro hgrows frame hframe
      have hplain : op.operandType.isReference = false := by
        cases op <;> rfl
      refine .unary (.known (noted_eq_ok noted))
        (evalExpr_passes hE hcalls value hgrows frame hframe)
        fun r hr => ?_
      exact (meets_unary hE (hr.2.passes hplain)).imp fun v hv => ⟨hr.1, .value hv.passes⟩
  | .cast place reference noted => by
      intro hgrows frame hframe
      refine .cast (.known (noted_eq_ok noted))
        (evalExpr_passes hE hcalls place hgrows frame hframe) ?_
      rintro t r rfl hr
      obtain ⟨v, hv, hpasses⟩ := hr.1.cast hr.2 reference
      exact .succeeds hv ⟨hr.1, .value hpasses⟩

/-- Arguments evaluate to values that pass for their types. -/
theorem evalArguments_passes (hE : Permits lax E) (hcalls : calls.Pass lax E env.signatures)
    {before after : List Var} {es : List Expr} {ts : List Ty} :
    TypedArguments env before es ts after → Grows env after final →
      ∀ frame : Frame, frame.Passes lax env final →
        (evalArguments calls es frame).Meets
          (fun r => r.2.Passes lax env final ∧ ValuesPass lax r.1 ts) E
  | .nil => by
      intro _ frame hframe
      exact .noArguments ⟨hframe, .nil⟩
  | .cons argument plain others => by
      intro hgrows frame hframe
      refine .arguments
        (evalExpr_passes hE hcalls argument (others.grows.trans hgrows) frame hframe)
        (fun r hr => .known (Frame.valueOf_of_passes (hr.2.passes plain))) ?_
      rintro r v hr rfl
      exact (evalArguments_passes hE hcalls others hgrows r.2 hr.1).imp
        fun rs hrs => ⟨hrs.1, .cons (hr.2.passes plain) hrs.2⟩

end

/-! ## Statements -/

/-- A typed condition evaluates to a truth value and leaves a frame that passes. -/
theorem evalCondition_passes (hE : Permits lax E) (hcalls : calls.Pass lax E env.signatures)
    {before after : List Var} {e : Expr} (h : TypedExpr env before e .bool after)
    (hgrows : Grows env after final) (frame : Frame) (hframe : frame.Passes lax env final) :
    (evalCondition calls e frame).Meets (fun r => r.2.Passes lax env final) E := by
  refine .condition (evalExpr_passes hE hcalls h hgrows frame hframe) fun r hr => ?_
  exact (meets_condition hE (hr.2.passes rfl)).imp fun _ _ => hr.1

/-- What statements leave: a frame that passes, and a returned value that passes for the
result. -/
def Passing (lax : Prop) (env : Env) (final : List Var) (r : Stop × Frame) : Prop :=
  r.2.Passes lax env final ∧ ∀ v, r.1 = some v → v.Passes lax env.result

/-- A frame that passes is left by what does not return. -/
theorem Frame.Passes.passing (h : frame.Passes lax env final) :
    Passing lax env final (none, frame) :=
  ⟨h, fun _ hv => nomatch hv⟩

mutual

/-- In a frame that passes, a typed statement leaves what it should. -/
theorem execStmt_passes (hE : Permits lax E) (hcalls : calls.Pass lax E env.signatures)
    (hresult : env.result.isReference = false) (rounds : Nat) {before after : List Var}
    {s : Stmt} : TypedStmt env before s after → Grows env after final →
      ∀ frame : Frame, frame.Passes lax env final →
        (execStmt calls rounds s frame).Meets (Passing lax env final) E
  | .expression value => by
      intro hgrows frame hframe
      exact .expression (evalExpr_passes hE hcalls value hgrows frame hframe)
        fun r hr => hr.1.passing
  | .ret nothing => by
      intro _ frame hframe
      refine .returnNothing ⟨hframe, ?_⟩
      rintro v ⟨⟩
      rw [Ty.eq_void nothing hresult]
      exact Value.Fits.passes ⟨rfl, .void⟩
  | .retValue something value => by
      intro hgrows frame hframe
      refine .returnValue (evalExpr_passes hE hcalls value hgrows frame hframe) fun r hr => ?_
      have hpasses := hr.2.passes hresult
      refine .succeeds (Frame.valueOf_of_passes hpasses) ⟨hr.1, ?_⟩
      rintro v ⟨⟩
      exact hpasses
  | .ifThen test branch => by
      intro hgrows frame hframe
      exact .ifThen (evalCondition_passes hE hcalls test (branch.grows.trans hgrows) frame hframe)
        (execStmts_passes hE hcalls hresult rounds branch hgrows) fun _ htested => htested.passing
  | .ifElse test branch other => by
      intro hgrows frame hframe
      have hbranch := other.grows.trans hgrows
      exact .ifElse (evalCondition_passes hE hcalls test (branch.grows.trans hbranch) frame hframe)
        (execStmts_passes hE hcalls hresult rounds branch hbranch)
        (execStmt_passes hE hcalls hresult rounds other hgrows)
  | .loop test body => by
      intro hgrows frame hframe
      refine .whileTrue (.loop (I := fun frame => frame.Passes lax env final)
        (J := fun frame => frame.Passes lax env final) ?_ ?_ ?_ rounds frame hframe)
      · exact evalCondition_passes hE hcalls test (body.grows.trans hgrows)
      · intro frame' hframe'
        refine (execStmts_passes hE hcalls hresult rounds body hgrows frame' hframe').imp ?_
        exact fun r hr => ⟨fun _ => hr.1, fun _ => hr⟩
      · exact fun frame' hframe' => hframe'.passing
  | .block inner => by
      intro hgrows frame hframe
      exact .block (execStmts_passes hE hcalls hresult rounds inner hgrows frame hframe)

/-- The same for a list of statements. -/
theorem execStmts_passes (hE : Permits lax E) (hcalls : calls.Pass lax E env.signatures)
    (hresult : env.result.isReference = false) (rounds : Nat) {before after : List Var}
    {ss : List Stmt} : TypedStmts env before ss after → Grows env after final →
      ∀ frame : Frame, frame.Passes lax env final →
        (execStmts calls rounds ss frame).Meets (Passing lax env final) E
  | .nil => by
      intro _ frame hframe
      exact .noStatements hframe.passing
  | .cons first others => by
      intro hgrows frame hframe
      exact .statements
        (execStmt_passes hE hcalls hresult rounds first (others.grows.trans hgrows) frame hframe)
        (fun _ _ hreturned => hreturned)
        fun after hafter => execStmts_passes hE hcalls hresult rounds others hgrows after hafter.1

end

/-! ## Calls -/

/-- The errors that calls of the functions of a program can end with are in `E`, and its
builtins can be called. -/
structure Setting.Permits (lax : Prop) (E : EvalError → Prop) (setting : Setting σ) : Prop
    extends Slate.Permits lax E where
  noReturn : ∀ name, E (.noReturn name)
  callDepth : E .callDepth
  syscall : ∀ e, e.IsSyscallError → E e
  builtin : ∀ f ∈ setting.program.functions, f.builtin = true → ∀ args,
    ValuesPass lax args (f.arguments.map Var.type) →
      (callBuiltin setting.host f args).Meets (fun v => v.Passes lax f.result) E

/-- Arguments are known by name in the body of their function. -/
theorem TypedFunction.find?_argument {signatures : Signatures} {f : Function}
    (hf : TypedFunction signatures f) (hblock : f.builtin = false) {v : Var}
    (hv : v ∈ f.arguments) : (f.typingEnv signatures).find? f.locals v.name = some v := by
  refine (hf.body hblock).grows v.name v ?_
  show (findVar? [] v.name).or (findVar? f.arguments v.name) = some v
  exact find?_eq_some_of_mem hf.distinct hv

/-- Arguments that pass are a frame that passes for the body of their function. -/
theorem TypedFunction.frame_passes {signatures : Signatures} {f : Function}
    (hf : TypedFunction signatures f) (hblock : f.builtin = false) {args : List Value}
    (hargs : ValuesPass lax args (f.arguments.map Var.type)) :
    (Frame.ofArguments f.arguments args .empty).Passes lax (f.typingEnv signatures) f.locals :=
  Frame.ofArguments_passes hargs (fun _ hv => hf.find?_argument hblock hv) .empty
    Frame.passes_empty

section

variable {setting : Setting σ} (hE : setting.Permits lax E) (hp : TypedProgram setting.program)
include hE hp

/-- The body of a function, in a frame of arguments that pass. -/
theorem body_passes {f : Function} (hf : f ∈ setting.program.functions)
    (hblock : f.builtin = false) (hcalls : calls.Pass lax E setting.program.signatures)
    {args : List Value} (hargs : ValuesPass lax args (f.arguments.map Var.type)) :
    (setting.body calls f args).Meets (fun v => v.Passes lax f.result) E := by
  have hfunction := hp.each f hf
  have hframe := hfunction.frame_passes hblock hargs
  have hcalls' : calls.Pass lax E (f.typingEnv setting.program.signatures).signatures := hcalls
  unfold Setting.body
  refine (execStmts_passes hE.toPermits hcalls' hfunction.value setting.rounds
    (hfunction.body hblock) (.refl _) _ hframe).bind fun r hr => ?_
  obtain ⟨stop, frame⟩ := r
  cases stop with
  | some v => exact .answer (hr.2 v rfl)
  | none =>
      by_cases hvoid : f.result.isVoid = true
      · simp only [hvoid, if_true]
        refine .answer ?_
        rw [Ty.eq_void hvoid hfunction.value]
        exact Value.Fits.passes ⟨rfl, .void⟩
      · simp only [hvoid, Bool.false_eq_true, if_false]
        exact .fail (hE.noReturn f.name)

/-- Calls are answered with what passes when functions with a body are. -/
theorem dispatch_passes {enter : Function → List Value → Run σ Value}
    (henter : ∀ f ∈ setting.program.functions, f.builtin = false → ∀ args,
      ValuesPass lax args (f.arguments.map Var.type) →
        (enter f args).Meets (fun v => v.Passes lax f.result) E) :
    (setting.dispatch enter).Pass lax E setting.program.signatures := by
  refine ⟨?_, ?_⟩
  · intro args
    unfold Setting.dispatch
    rw [if_pos rfl]
    exact (meets_systemCall args).mono (fun _ hv => hv) hE.syscall
  · intro name signature args hname hknown hargs
    obtain ⟨f, hfunction, rfl⟩ := hp.function?_of_signature hknown
    obtain ⟨hf, _⟩ := function?_eq_some hfunction
    have hlength : f.arguments.length = args.length := by
      rw [hargs.length_eq]
      exact (List.length_map Var.type).symm
    unfold Setting.dispatch
    rw [if_neg hname]
    simp only [hfunction]
    rw [if_neg (fun hne => hne hlength)]
    by_cases hbuiltin : f.builtin = true
    · rw [if_pos hbuiltin]
      exact hE.builtin f hf hbuiltin args hargs
    · rw [if_neg hbuiltin]
      exact henter f hf (Bool.eq_false_iff.2 hbuiltin) args hargs

/-- Functions that are entered answer with what passes, however deep calls may still nest. -/
theorem enter_passes (allowed : Nat) :
    ∀ f ∈ setting.program.functions, f.builtin = false → ∀ args,
      ValuesPass lax args (f.arguments.map Var.type) →
        (setting.enter allowed f args).Meets (fun v => v.Passes lax f.result) E := by
  induction allowed with
  | zero =>
      intro f _ _ args _
      rw [Setting.enter]
      exact .fail hE.callDepth
  | succ allowed ih =>
      intro f hf hblock args hargs
      rw [Setting.enter]
      have htell : (setting.host.tell (.entered f.name (maxCallDepth - allowed))).Meets
          (fun _ => True) E := fun _ => trivial
      exact htell.bind fun _ _ => body_passes hE hp hf hblock (dispatch_passes hE hp ih) hargs

/-- A call of a function with arguments that pass answers with a value that passes, or fails
with an error of `E`. -/
theorem call_passes {f : Function} (hf : f ∈ setting.program.functions) {args : List Value}
    (hargs : ValuesPass lax args (f.arguments.map Var.type)) :
    (setting.call f.name args).Meets (fun v => v.Passes lax f.result) E :=
  (dispatch_passes hE hp (enter_passes hE hp maxCallDepth)).function f.name f.signature args
    (hp.free f hf) (hp.lookup_signature hf) hargs

end

end Slate
