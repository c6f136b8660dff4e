import Slate.Compile.Program
import Slate.Proofs.Compile.Offsets
import Slate.Proofs.Typing.Names

/-!
# Typed trees compile

There is code for every well-typed tree.  The compiler's state keeps to the typing
derivation meanwhile: it has offsets for exactly the variables that are declared so
far (`CompileState.Tracks`), and only adds labels and literals.

Of a whole program only its builtins can have no routine.
-/

namespace Slate

variable {env : Env} {arguments before after locals : List Var} {s s' s'' : CompileState}

/-! ## The state of the compiler -/

/-- The state has the offsets of the variables declared so far. -/
def CompileState.Tracks (s : CompileState) (arguments locals : List Var) : Prop :=
  s.offsets = frameOffsets arguments locals ∧ s.slots = locals.length

/-- Labels and literals are only added. -/
structure CompileState.Extends (s s' : CompileState) : Prop where
  labels : s.labels ≤ s'.labels
  literals : s.literals <+: s'.literals

namespace CompileState

theorem Extends.refl (s : CompileState) : s.Extends s :=
  ⟨Nat.le_refl _, List.prefix_rfl⟩

/-- What extends an extension extends the state. -/
theorem Extends.trans (h : s.Extends s') (h' : s'.Extends s'') : s.Extends s'' :=
  ⟨Nat.le_trans h.labels h'.labels, h.literals.trans h'.literals⟩

/-- Interning a literal extends a state. -/
theorem Extends.intern (s : CompileState) (literal : String) : s.Extends (s.intern literal) :=
  ⟨Nat.le_refl _, List.prefix_append _ _⟩

/-- Taking labels extends a state. -/
theorem Extends.label (s : CompileState) (count : Nat) : s.Extends (s.label count) :=
  ⟨Nat.le_add_right _ _, List.prefix_rfl⟩

/-- A declared variable is tracked from there on. -/
theorem Tracks.declare (h : s.Tracks arguments locals) (v : Var) :
    (s.declare v.name).Tracks arguments (locals ++ [v]) := by
  refine ⟨?_, ?_⟩
  · rw [frameOffsets_append, ← h.1, ← h.2]
    rfl
  · rw [List.length_append, ← h.2]
    rfl

/-- A variable that is known has an offset. -/
theorem Tracks.lookup (h : s.Tracks env.arguments locals) {name : String} {v : Var}
    (hknown : env.find? locals name = some v) : ∃ offset, s.offsets.lookup name = some offset := by
  apply lookup_of_mem_keys
  rw [h.1, frameOffsets_names, List.mem_reverse]
  exact Env.mem_of_find? hknown

end CompileState

/-- The noted type is found. -/
theorem needType_eq_ok {e : Expr} {t : Ty} (h : e.note.type = some t) : e.needType = .ok t := by
  unfold Expr.needType Expr.type?
  rw [h]

/-- A typed expression has its type noted. -/
theorem TypedExpr.noted {e : Expr} {t : Ty} (h : TypedExpr env before e t after) :
    e.note.type = some t := by
  cases h <;> assumption

/-! ## Code of each kind of expression -/

section

variable {n : Note} {t source : Ty} {name : String} {left right operand : Expr}
  {leftCode rightCode code : List Instr}

/-- A literal is put into the register of results. -/
theorem compileExpr_literal {value : Literal} (noted : n.type = some t) :
    compileExpr s (.literal n value) = .ok (match value with
      | .int i => ([.moveConst .eax i], s)
      | .bool b => ([.moveConst .eax (if b then 1 else 0)], s)
      | .string literal =>
        ([.moveLabel .eax (.data s.literals.length)], s.intern literal)) := by
  have htype : (Expr.literal n value).needType = .ok t := needType_eq_ok noted
  cases value <;> (rw [compileExpr, htype]; rfl)

/-- A declaration clears the slot of its variable and gives its address. -/
theorem compileExpr_declare {v : Var} (noted : n.type = some t) :
    compileExpr s (.declare n v) =
      .ok ([.storeConst (frameAddress (localOffset s.slots)) 0,
        .loadAddress .eax (frameAddress (localOffset s.slots))], s.declare v.name) := by
  have htype : (Expr.declare n v).needType = .ok t := needType_eq_ok noted
  rw [compileExpr, htype]
  rfl

/-- A variable gives its address. -/
theorem compileExpr_var {offset : Int} (noted : n.type = some t)
    (hoffset : s.offsets.lookup name = some offset) :
    compileExpr s (.var n name) = .ok ([.loadAddress .eax (frameAddress offset)], s) := by
  have htype : (Expr.var n name).needType = .ok t := needType_eq_ok noted
  rw [compileExpr, htype, hoffset]
  rfl

/-- An assignment computes its value, then its place, and stores the one in the other. -/
theorem compileExpr_assign (noted : n.type = some t)
    (hright : compileExpr s right = .ok (rightCode, s'))
    (hleft : compileExpr s' left = .ok (leftCode, s'')) :
    compileExpr s (.assign n left right) =
      .ok (rightCode ++ [.push .eax] ++ leftCode ++ [.pop .ecx, .store (.of .eax) .ecx], s'') := by
  have htype : (Expr.assign n left right).needType = .ok t := needType_eq_ok noted
  simp [compileExpr, htype, hright, hleft, bind, Except.bind, pure, Except.pure]

/-- A call pushes its arguments and hands them over. -/
theorem compileExpr_call {args : List Expr} {pushes : List Instr} (noted : n.type = some t)
    (hfew : name = syscallName → args.length ≤ syscallMaxArguments)
    (hargs : compileArguments s args = .ok (pushes, s')) :
    compileExpr s (.call n name args) = .ok (pushes ++ callCode name args.length, s') := by
  have htype : (Expr.call n name args).needType = .ok t := needType_eq_ok noted
  have hmany : ¬ (name = syscallName ∧ args.length > syscallMaxArguments) := by
    intro h
    have hle := hfew h.1
    omega
  rw [compileExpr, htype]
  simp only [bind, Except.bind, if_neg hmany, hargs]
  rfl

/-- A binary operation computes its left operand and then its right one. -/
theorem compileExpr_binary {op : BinaryOp} (noted : n.type = some t)
    (hleft : compileExpr s left = .ok (leftCode, s'))
    (hright : compileExpr s' right = .ok (rightCode, s'')) :
    compileExpr s (.binary n op left right) =
      .ok (leftCode ++ [.push .eax] ++ rightCode ++ [.pop .ecx] ++ op.code, s'') := by
  have htype : (Expr.binary n op left right).needType = .ok t := needType_eq_ok noted
  simp [compileExpr, htype, hleft, hright, bind, Except.bind, pure, Except.pure]

/-- A unary operation works on what its operand was computed to. -/
theorem compileExpr_unary {op : UnaryOp} (noted : n.type = some t)
    (hcode : compileExpr s operand = .ok (code, s')) :
    compileExpr s (.unary n op operand) = .ok (code ++ op.code, s') := by
  have htype : (Expr.unary n op operand).needType = .ok t := needType_eq_ok noted
  simp [compileExpr, htype, hcode, bind, Except.bind, pure, Except.pure]

/-- A cast loads what the address of its operand leads to. -/
theorem compileExpr_cast (noted : n.type = some t.value) (hoperand : operand.note.type = some t)
    (reference : t.isReference = true) (hcode : compileExpr s operand = .ok (code, s')) :
    compileExpr s (.cast n operand) = .ok (code ++ [.load .eax (.of .eax)], s') := by
  have htype : (Expr.cast n operand).needType = .ok t.value := needType_eq_ok noted
  have hsource := needType_eq_ok hoperand
  simp [compileExpr, htype, hsource, hcode, reference, Ty.value, bind, Except.bind, pure,
    Except.pure]

/-- Arguments are pushed one after the other. -/
theorem compileArguments_cons {e : Expr} {es : List Expr}
    (hfirst : compileExpr s e = .ok (leftCode, s'))
    (hrest : compileArguments s' es = .ok (rightCode, s'')) :
    compileArguments s (e :: es) = .ok (leftCode ++ [.push .eax] ++ rightCode, s'') := by
  simp [compileArguments, hfirst, hrest, bind, Except.bind, pure, Except.pure]

end

/-! ## Expressions -/

mutual

/-- **Expressions compile.** -/
theorem compileExpr_ok {before after : List Var} {e : Expr} {t : Ty} :
    TypedExpr env before e t after → ∀ s : CompileState, s.Tracks env.arguments before →
      ∃ code s', compileExpr s e = .ok (code, s') ∧ s'.Tracks env.arguments after ∧ s.Extends s'
  | @TypedExpr.literal _ _ _ value noted => by
      intro s hs
      cases value with
      | int i => exact ⟨_, _, compileExpr_literal noted, hs, .refl s⟩
      | bool b => exact ⟨_, _, compileExpr_literal noted, hs, .refl s⟩
      | string literal => exact ⟨_, _, compileExpr_literal noted, hs, .intern s literal⟩
  | @TypedExpr.declare _ _ _ v _ _ _ noted => by
      intro s hs
      exact ⟨_, _, compileExpr_declare noted, hs.declare v, ⟨Nat.le_refl _, List.prefix_rfl⟩⟩
  | .var known noted => by
      intro s hs
      obtain ⟨offset, hoffset⟩ := hs.lookup known
      exact ⟨_, s, compileExpr_var noted hoffset, hs, .refl s⟩
  | .assign value place _ noted => by
      intro s hs
      obtain ⟨_, s₁, hright, hs₁, hext₁⟩ := compileExpr_ok value s hs
      obtain ⟨_, s₂, hleft, hs₂, hext₂⟩ := compileExpr_ok place s₁ hs₁
      exact ⟨_, s₂, compileExpr_assign noted hright hleft, hs₂, hext₁.trans hext₂⟩
  | .syscall few arguments noted => by
      intro s hs
      obtain ⟨_, s₁, hargs, hs₁, hext₁⟩ := compileArguments_ok arguments s hs
      exact ⟨_, s₁, compileExpr_call noted (fun _ => few) hargs, hs₁, hext₁⟩
  | .call other _ arguments noted => by
      intro s hs
      obtain ⟨_, s₁, hargs, hs₁, hext₁⟩ := compileArguments_ok arguments s hs
      exact ⟨_, s₁, compileExpr_call noted (fun h => (other h).elim) hargs, hs₁, hext₁⟩
  | .binary first second _ _ noted => by
      intro s hs
      obtain ⟨_, s₁, hleft, hs₁, hext₁⟩ := compileExpr_ok first s hs
      obtain ⟨_, s₂, hright, hs₂, hext₂⟩ := compileExpr_ok second s₁ hs₁
      exact ⟨_, s₂, compileExpr_binary noted hleft hright, hs₂, hext₁.trans hext₂⟩
  | .unary value noted => by
      intro s hs
      obtain ⟨_, s₁, hcode, hs₁, hext₁⟩ := compileExpr_ok value s hs
      exact ⟨_, s₁, compileExpr_unary noted hcode, hs₁, hext₁⟩
  | .cast place reference noted => by
      intro s hs
      obtain ⟨_, s₁, hcode, hs₁, hext₁⟩ := compileExpr_ok place s hs
      exact ⟨_, s₁, compileExpr_cast noted place.noted reference hcode, hs₁, hext₁⟩

/-- The same for the arguments of a call. -/
theorem compileArguments_ok {before after : List Var} {es : List Expr} {ts : List Ty} :
    TypedArguments env before es ts after → ∀ s : CompileState, s.Tracks env.arguments before →
      ∃ code s', compileArguments s es = .ok (code, s') ∧ s'.Tracks env.arguments after ∧
        s.Extends s'
  | .nil => by
      intro s hs
      exact ⟨[], s, rfl, hs, .refl s⟩
  | .cons argument _ others => by
      intro s hs
      obtain ⟨_, s₁, hfirst, hs₁, hext₁⟩ := compileExpr_ok argument s hs
      obtain ⟨_, s₂, hrest, hs₂, hext₂⟩ := compileArguments_ok others s₁ hs₁
      exact ⟨_, s₂, compileArguments_cons hfirst hrest, hs₂, hext₁.trans hext₂⟩

end

end Slate
