import Slate.Proofs.Typing.Checks
import Slate.Proofs.Typing.Rules

/-!
# What keeps the rules passes the check

The check finds the type that the rules assign, and the locals that they have
afterwards.  As the check is a function, the rules assign one type only
(`HasType.unique`).

The rules speak of the variable that is known where the check looks a name up, and the two
meet because no name is declared twice: under distinct names the variable that is found is
the one that is known.
-/

namespace Slate

variable {env : Env}

/-- Types of the same values agree. -/
theorem Ty.agrees_of_value_eq {a b : Ty} (h : a.value = b.value) : a.agrees b = true := by
  have hname : a.name = b.name := by
    simpa [value] using h
  simp [agrees, hname]

/-! ## Operators -/

/-- Arithmetic on integers gives an integer. -/
theorem BinaryOp.resultType_arithmetic {op : BinaryOp} (kind : op ∈ [plus, minus, times]) :
    op.resultType .int = .ok .int := by
  cases op with
  | plus => rfl
  | minus => rfl
  | times => rfl
  | equal => simp at kind
  | notEqual => simp at kind

/-- A comparison of integers or of truth values gives a truth value. -/
theorem BinaryOp.resultType_comparison {op : BinaryOp} {t : Ty} (kind : op ∈ [equal, notEqual])
    (comparable : t = .int ∨ t = .bool) : op.resultType t = .ok .bool := by
  have hcomparison : op.isComparison = true := by
    cases op with
    | equal => rfl
    | notEqual => rfl
    | plus => simp at kind
    | minus => simp at kind
    | times => simp at kind
  unfold BinaryOp.resultType
  rw [if_pos hcomparison]
  rcases comparable with rfl | rfl <;> rfl

/-- Negation and complement are of integers. -/
theorem UnaryOp.operandType_negation {op : UnaryOp} (kind : op ∈ [negate, complement]) :
    op.operandType = .int := by
  cases op with
  | negate => rfl
  | complement => rfl
  | not => simp at kind

/-! ## Expressions -/

/-- There is one type for each argument. -/
theorem HaveTypes.length_eq {es : List Expr} {before after : List Var} {ts : List Ty}
    (h : HaveTypes env before es ts after) : ts.length = es.length := by
  induction es generalizing before ts with
  | nil =>
      cases h
      rfl
  | cons e es ih =>
      cases h with
      | cons first others => simp [ih others]

mutual

/-- **The check finds what the rules assign.** -/
theorem HasType.passes {before after : List Var} {e : Expr} {t : Ty} :
    HasType env before e t after → env.Distinct before →
      ∃ e', ChecksExpr env before e (.pass e' after t)
  | .literal, _ => ⟨_, .literal⟩
  | .declare type fresh, _ =>
      ⟨_, .declare (Ty.isStorable_of_mem type) (Env.find?_eq_none.2 fresh)⟩
  | .var known, hdistinct => ⟨_, .var (hdistinct.find? known)⟩
  | .assign value place reference same, hdistinct => by
      obtain ⟨right, hright⟩ := value.passes hdistinct
      obtain ⟨left, hleft⟩ := place.passes (value.distinct hdistinct)
      exact ⟨_, .assign hright hleft reference (Ty.agrees_of_value_eq same.symm)⟩
  | .syscall few arguments, hdistinct => by
      obtain ⟨args, hargs⟩ := arguments.passes hdistinct [] (.inl rfl)
      exact ⟨_, .call (Env.demand_syscall few) hargs⟩
  | .call other known arguments same, hdistinct => by
      obtain ⟨args, hargs⟩ := arguments.passes hdistinct _ (.inr same)
      have hcount := congrArg List.length same
      rw [List.length_map, arguments.length_eq] at hcount
      have hdemand := Env.demand_known other known
      rw [← hcount] at hdemand
      exact ⟨_, .call hdemand hargs⟩
  | .arithmetic first second kind integer same, hdistinct => by
      obtain ⟨left, hleft⟩ := first.passes hdistinct
      obtain ⟨right, hright⟩ := second.passes (first.distinct hdistinct)
      refine ⟨_, .binary hleft hright (Ty.agrees_of_value_eq same.symm) ?_⟩
      rw [integer]
      exact BinaryOp.resultType_arithmetic kind
  | .comparison first second kind comparable same, hdistinct => by
      obtain ⟨left, hleft⟩ := first.passes hdistinct
      obtain ⟨right, hright⟩ := second.passes (first.distinct hdistinct)
      have hresult := BinaryOp.resultType_comparison kind comparable
      exact ⟨_, .binary hleft hright (Ty.agrees_of_value_eq same.symm) hresult⟩
  | .negation value kind integer, hdistinct => by
      obtain ⟨operand, hoperand⟩ := value.passes hdistinct
      have htype := UnaryOp.operandType_negation kind
      rw [← htype] at integer ⊢
      exact ⟨_, .unary hoperand integer⟩
  | .not value truth, hdistinct => by
      obtain ⟨operand, hoperand⟩ := value.passes hdistinct
      exact ⟨_, .unary hoperand truth⟩

/-- The same for the arguments of a call. -/
theorem HaveTypes.passes {before after : List Var} {es : List Expr} {ts : List Ty} :
    HaveTypes env before es ts after → env.Distinct before →
      ∀ expected, expected = [] ∨ ts.map Ty.value = expected →
        ∃ es', ChecksArguments env before expected es (.pass es' after ())
  | .nil, _, _, _ => ⟨_, .nil⟩
  | .cons first others, hdistinct, expected, hexpected => by
      obtain ⟨e', hfirst⟩ := first.passes hdistinct
      have hothers := others.passes (first.distinct hdistinct)
      rcases hexpected with rfl | rfl
      · obtain ⟨es', hes⟩ := hothers [] (.inl rfl)
        exact ⟨_, .free hfirst hes⟩
      · obtain ⟨es', hes⟩ := hothers _ (.inr rfl)
        exact ⟨_, .cons hfirst (Ty.agrees_of_value_eq rfl) hes⟩

end

/-- The rules assign one type only. -/
theorem HasType.unique {before after after' : List Var} {e : Expr} {t u : Ty}
    (h : HasType env before e t after) (h' : HasType env before e u after')
    (hdistinct : env.Distinct before) : u = t := by
  obtain ⟨tree, hpass⟩ := h.passes hdistinct
  obtain ⟨tree', hpass'⟩ := h'.passes hdistinct
  cases hpass.eq.symm.trans hpass'.eq
  rfl

/-! ## Statements -/

/-- A truth value passes as a condition. -/
theorem HasType.condition_passes {before after : List Var} {e : Expr}
    (h : HasType env before e .bool after) (hdistinct : env.Distinct before) :
    ∃ e', ChecksCondition env before e (.pass e' after ()) := by
  obtain ⟨e', hpass⟩ := h.passes hdistinct
  exact ⟨e', .pass hpass⟩

mutual

/-- **What keeps the rules passes.** -/
theorem WellTyped.passes (hresult : env.result.IsResult) {before after : List Var} {s : Stmt} :
    WellTyped env before s after → env.Distinct before →
      ∃ s', ChecksStmt env before s (.pass s' after ())
  | .expression value, hdistinct => by
      obtain ⟨e', hpass⟩ := value.passes hdistinct
      exact ⟨_, .expression hpass⟩
  | .ret nothing, _ => by
      have hvoid : env.result.isVoid = true := by
        rw [nothing]
        decide
      exact ⟨_, .ret (.nothing hvoid)⟩
  | .retValue something value same, hdistinct => by
      obtain ⟨e', hpass⟩ := value.passes hdistinct
      have hplain : env.result.isReference = false := by
        rw [← hresult.value]
        rfl
      have hvoid : env.result.isVoid = false := by
        rw [Bool.eq_false_iff]
        exact fun hvoid => something (Ty.eq_void hvoid hplain)
      have hagrees := Ty.agrees_of_value_eq (same.trans hresult.value.symm)
      exact ⟨_, .ret (.value hvoid hpass hagrees)⟩
  | .ifThen test branch, hdistinct => by
      obtain ⟨condition, htest⟩ := test.condition_passes hdistinct
      obtain ⟨body, hbranch⟩ := branch.passes hresult (test.distinct hdistinct)
      exact ⟨_, .ifThen htest hbranch⟩
  | .ifElse test branch other, hdistinct => by
      have hdistinct' := test.distinct hdistinct
      obtain ⟨condition, htest⟩ := test.condition_passes hdistinct
      obtain ⟨body, hbranch⟩ := branch.passes hresult hdistinct'
      obtain ⟨otherwise, hother⟩ := other.passes hresult (branch.distinct hdistinct')
      exact ⟨_, .ifElse htest hbranch hother⟩
  | .loop test rounds, hdistinct => by
      obtain ⟨condition, htest⟩ := test.condition_passes hdistinct
      obtain ⟨body, hrounds⟩ := rounds.passes hresult (test.distinct hdistinct)
      exact ⟨_, .loop htest hrounds⟩
  | .block inner, hdistinct => by
      obtain ⟨body, hinner⟩ := inner.passes hresult hdistinct
      exact ⟨_, .block hinner⟩

/-- The same for a list of statements. -/
theorem AllWellTyped.passes (hresult : env.result.IsResult) {before after : List Var}
    {ss : List Stmt} : AllWellTyped env before ss after → env.Distinct before →
      ∃ ss', ChecksStmts env before ss (.pass ss' after ())
  | .nil, _ => ⟨_, .nil⟩
  | .cons first others, hdistinct => by
      obtain ⟨s', hfirst⟩ := first.passes hresult hdistinct
      obtain ⟨ss', hothers⟩ := others.passes hresult (first.distinct hdistinct)
      exact ⟨_, .cons hfirst hothers⟩

end

/-! ## Functions -/

/-- The declared types of a function that keeps the rules pass. -/
theorem Function.WellTyped.declarationCause? {signatures : Signatures} {f : Function}
    (h : f.WellTyped signatures) : f.declarationCause? = none := by
  have hresult : (!f.result.isVoid && !f.result.isStorable) = false := by
    rcases h.result with hvoid | hvalue
    · rw [hvoid]
      decide
    · simp [Ty.isStorable_of_mem hvalue]
  have hmain : ¬ (f.name = "main" ∧ f.result ≠ .int ∧ f.result ≠ .bool) := by
    rintro ⟨hname, hint, hbool⟩
    rcases h.main hname with heq | heq
    · exact hint heq
    · exact hbool heq
  have harguments : f.arguments.find? (fun v => !v.type.isStorable) = none := by
    refine List.find?_eq_none.2 fun v hv => ?_
    simp [Ty.isStorable_of_mem (h.arguments v hv)]
  unfold Function.declarationCause?
  rw [hresult, if_neg hmain, harguments]
  rfl

/-- **A function that keeps the rules passes the check.** -/
theorem Function.WellTyped.passes {signatures : Signatures} {f : Function}
    (h : f.WellTyped signatures) (hdistinct : (f.arguments.map Var.name).Nodup) :
    (f.check signatures).2 = .ok () := by
  have hcause := h.declarationCause?
  cases hbuiltin : f.builtin with
  | true => simp [Function.check, hcause, hbuiltin]
  | false =>
      obtain ⟨locals, hbody⟩ := h.body hbuiltin
      have hempty : (f.typingEnv signatures).Distinct [] := by
        unfold Env.Distinct
        rw [List.append_nil]
        exact hdistinct
      obtain ⟨body, hpass⟩ := hbody.passes h.result hempty
      have hchecked := hpass.eq
      unfold Function.typingEnv Checked.pass at hchecked
      simp [Function.check, hcause, hbuiltin, hchecked]

end Slate
