import Slate.Proofs.Typing.Erased
import Slate.Proofs.Typing.Rules

/-!
# What passes the check keeps the rules

The typing judgment speaks of elaborated trees: casts stand in them, and the types are
noted.  Without the casts the same derivation is one by the rules.  A cast that is taken
away leaves a place where the judgment had the value in it; the rules accept this
wherever the judgment asks for a value, because they ask for the type of the value only.

So an elaborated expression has noted the type that the rules assign to what it came from,
and a cast the type of the value in the place that it reads (`Expr.typeFrom`).
-/

namespace Slate

variable {env : Env}

/-- The type that an elaborated expression has, from the type that the rules assign. -/
def Expr.typeFrom (t : Ty) : Expr → Ty
  | .cast _ _ => t.value
  | _ => t

/-- The type an expression is read from is of the same values. -/
theorem Expr.value_typeFrom (e : Expr) (t : Ty) : (e.typeFrom t).value = t.value := by
  cases e <;> rfl

/-- What has a reference type is no cast. -/
theorem Expr.typeFrom_of_isReference {e : Expr} {t : Ty}
    (h : (e.typeFrom t).isReference = true) : e.typeFrom t = t := by
  cases e with
  | cast _ _ => cases h
  | _ => rfl

/-- A typed expression records its type. -/
theorem TypedExpr.type?_eq {before after : List Var} {e : Expr} {t : Ty}
    (h : TypedExpr env before e t after) : e.type? = some t := by
  cases h <;> assumption

/-- The operands of a binary operation have a type that its rule allows. -/
theorem HasType.binary {before between after : List Var} {n : Note} {op : BinaryOp}
    {left right : Expr} {t u result : Ty} (first : HasType env before left t between)
    (second : HasType env between right u after) (hresult : t.value.IsResult)
    (defined : op.resultType t.value = .ok result) (same : u.value = t.value) :
    HasType env before (.binary n op left right) result after := by
  rcases op.resultType_eq_ok defined with ⟨hcomparison, hstring, hvoid, rfl⟩ | ⟨harith, hint, rfl⟩
  · refine .comparison first second ?_ ?_ same
    · cases op <;> simp_all [BinaryOp.isComparison]
    · rcases hresult with heq | hmem
      · rw [heq] at hvoid
        cases hvoid
      · simp only [Ty.valueTypes, List.mem_cons, List.not_mem_nil, or_false] at hmem
        rcases hmem with heq | heq | heq
        · exact .inl heq
        · exact .inr heq
        · exact (hstring heq).elim
  · refine .arithmetic first second ?_ hint same
    cases op <;> simp_all [BinaryOp.isComparison]

/-! ## Expressions -/

mutual

/-- **What is typed keeps the rules**, and has the type that they assign. -/
theorem TypedExpr.hasType {before after : List Var} {e : Expr} {t : Ty} :
    TypedExpr env before e t after → env.Known before →
      ∃ u, HasType env before e.erased u after ∧ t = e.typeFrom u
  | .literal _ => fun _ => ⟨_, .literal, rfl⟩
  | .declare storable plain fresh _ => fun _ =>
      ⟨_, .declare (Ty.mem_valueTypes storable plain) (Env.find?_eq_none.1 fresh), rfl⟩
  | .var known _ => by
      intro _
      obtain ⟨hmem, rfl⟩ := Env.mem_of_find?_eq_some known
      exact ⟨_, .var hmem, rfl⟩
  | @TypedExpr.assign _ _ _ _ _ left right t value place reference _ => by
      intro hknown
      obtain ⟨u, hright, hu⟩ := value.hasType hknown
      obtain ⟨w, hleft, hw⟩ := place.hasType (hright.known hknown).1
      -- The left side is no cast, so it has the very type that the rules assign.
      have hplace : t = w := by
        rw [hw] at reference ⊢
        exact Expr.typeFrom_of_isReference reference
      have hsame : u.value = t.value := by
        rw [← right.value_typeFrom u, ← hu, Ty.value_value]
      rw [← hplace] at hleft
      exact ⟨t, .assign hright hleft reference hsame, rfl⟩
  | @TypedExpr.syscall _ _ _ _ args _ few arguments _ => by
      intro hknown
      obtain ⟨us, harguments, _⟩ := arguments.haveTypes hknown
      have hfew : (erasedArguments args).length ≤ 6 := by
        rw [length_erasedArguments]
        exact few
      exact ⟨_, .syscall hfew harguments, rfl⟩
  | .call other known arguments _ => by
      intro hknown
      obtain ⟨us, harguments, hus⟩ := arguments.haveTypes hknown
      exact ⟨_, .call other known harguments hus, rfl⟩
  | @TypedExpr.binary _ _ _ _ _ op left right operand _ first second plain defined _ => by
      intro hknown
      obtain ⟨u, hleft, hu⟩ := first.hasType hknown
      obtain ⟨hbetween, hresult⟩ := hleft.known hknown
      obtain ⟨w, hright, hw⟩ := second.hasType hbetween
      have hoperand : u.value = operand := by
        rw [← left.value_typeFrom u, ← hu, Ty.value_eq_self plain]
      have hsame : w.value = u.value := by
        rw [← right.value_typeFrom w, ← hw, hoperand, Ty.value_eq_self plain]
      rw [← hoperand] at defined
      exact ⟨_, hleft.binary hright hresult defined hsame, rfl⟩
  | @TypedExpr.unary _ _ _ _ op operand value _ => by
      intro hknown
      obtain ⟨u, hoperand, hu⟩ := value.hasType hknown
      have hvalue := operand.value_typeFrom u
      rw [← hu] at hvalue
      cases op with
      | negate => exact ⟨_, .negation hoperand (by decide) hvalue.symm, rfl⟩
      | complement => exact ⟨_, .negation hoperand (by decide) hvalue.symm, rfl⟩
      | not => exact ⟨_, .not hoperand hvalue.symm, rfl⟩
  | .cast place reference _ => by
      intro hknown
      obtain ⟨u, hplace, hu⟩ := place.hasType hknown
      rw [hu] at reference
      exact ⟨u, hplace, by rw [hu, Expr.typeFrom_of_isReference reference]; rfl⟩

/-- The same for the arguments of a call. -/
theorem TypedArguments.haveTypes {before after : List Var} {es : List Expr} {ts : List Ty} :
    TypedArguments env before es ts after → env.Known before →
      ∃ us, HaveTypes env before (erasedArguments es) us after ∧ us.map Ty.value = ts
  | .nil => fun _ => ⟨[], .nil, rfl⟩
  | @TypedArguments.cons _ _ _ _ e _ t _ argument plain others => by
      intro hknown
      obtain ⟨u, hargument, hu⟩ := argument.hasType hknown
      obtain ⟨us, hothers, hus⟩ := others.haveTypes (hargument.known hknown).1
      have hvalue : u.value = t := by
        rw [← e.value_typeFrom u, ← hu, Ty.value_eq_self plain]
      exact ⟨u :: us, .cons hargument hothers, by rw [List.map_cons, hvalue, hus]⟩

end

/-! ## Checked expressions -/

/-- The check of an expression that was read leaves no cast. -/
theorem ChecksExpr.typeFrom_eq {before after : List Var} {e e' : Expr}
    {verdict : Except TypeFault Ty} (h : ChecksExpr env before e ⟨e', after, verdict⟩)
    (hread : e.AsRead) (t : Ty) : e'.typeFrom t = t := by
  cases h with
  | castOperand _ => exact hread.elim
  | cast _ => exact hread.elim
  | _ => rfl

/-- **An expression that passes keeps the rules**, and the answer of the check is the type
that they assign. -/
theorem ChecksExpr.hasType (hplain : env.Plain) {before after : List Var}
    (hknown : env.Known before) {e e' : Expr} {t : Ty}
    (h : ChecksExpr env before e ⟨e', after, .ok t⟩) (hread : e.AsRead) :
    HasType env before e t after := by
  obtain ⟨u, htype, hu⟩ := (h.typed hplain hread).hasType hknown
  rw [h.typeFrom_eq hread] at hu
  rw [h.erased, hread.erased] at htype
  rw [hu]
  exact htype

/-- What passes as a condition is a truth value. -/
theorem ChecksCondition.hasType (hplain : env.Plain) {before after : List Var}
    (hknown : env.Known before) {e e' : Expr} :
    ChecksCondition env before e ⟨e', after, .ok ()⟩ → e.AsRead → HasType env before e .bool after
  | .pass value, hread => value.hasType hplain hknown hread

/-! ## Checked statements -/

/-- What passes as returned is well typed. -/
theorem ChecksReturn.wellTyped (hplain : env.Plain) {before after : List Var}
    (hknown : env.Known before) {span : Span} {value value' : Option Expr} :
    ChecksReturn env before span value ⟨value', after, .ok ()⟩ → (Stmt.ret span value).AsRead →
      WellTyped env before (.ret span value) after
  | .nothing void, _ => .ret (Ty.eq_void void hplain.result)
  | .value something value agree, hread => by
      have hsomething : env.result ≠ .void := by
        intro heq
        rw [heq] at something
        cases something
      have hsame := Ty.value_eq_of_agrees agree
      rw [Ty.value_eq_self hplain.result] at hsame
      exact .retValue hsomething (value.hasType hplain hknown hread) hsame

mutual

/-- **A statement that passes keeps the rules.** -/
theorem ChecksStmt.wellTyped (hplain : env.Plain) {before after : List Var} {s s' : Stmt} :
    ChecksStmt env before s ⟨s', after, .ok ()⟩ → env.Known before → s.AsRead →
      WellTyped env before s after
  | .expression value, hknown, hread => .expression (value.hasType hplain hknown hread)
  | .ret returned, hknown, hread => returned.wellTyped hplain hknown hread
  | .ifThen test branch, hknown, ⟨htest, hbranch⟩ => by
      have htyped := test.hasType hplain hknown htest
      exact .ifThen htyped (branch.wellTyped hplain (htyped.known hknown).1 hbranch)
  | .ifElse test branch other, hknown, ⟨htest, hbranch, hother⟩ => by
      have htyped := test.hasType hplain hknown htest
      have hknown' := (htyped.known hknown).1
      have hkept := branch.wellTyped hplain hknown' hbranch
      exact .ifElse htyped hkept (other.wellTyped hplain (hkept.known hknown') hother)
  | .loop test rounds, hknown, ⟨htest, hrounds⟩ => by
      have htyped := test.hasType hplain hknown htest
      exact .loop htyped (rounds.wellTyped hplain (htyped.known hknown).1 hrounds)
  | .block inner, hknown, hread => .block (inner.wellTyped hplain hknown hread)

/-- The same for a list of statements. -/
theorem ChecksStmts.wellTyped (hplain : env.Plain) {before after : List Var}
    {ss ss' : List Stmt} :
    ChecksStmts env before ss ⟨ss', after, .ok ()⟩ → env.Known before → BodyAsRead ss →
      AllWellTyped env before ss after
  | .nil, _, _ => .nil
  | .cons first others, hknown, ⟨hfirst, hothers⟩ => by
      have hkept := first.wellTyped hplain hknown hfirst
      exact .cons hkept (others.wellTyped hplain (hkept.known hknown) hothers)

end

/-! ## Checked functions -/

/-- What the check asks of the declared types of a function is what the rules ask. -/
theorem declared_of_declarationCause? {f : Function} (hread : f.AsRead)
    (h : f.declarationCause? = none) :
    f.result.IsResult ∧ (f.name = "main" → f.result = .int ∨ f.result = .bool) ∧
      ∀ v ∈ f.arguments, v.type ∈ Ty.valueTypes := by
  obtain ⟨hresult, harguments⟩ := declarationCause?_eq_none h
  refine ⟨?_, ?_, fun v hv => Ty.mem_valueTypes (harguments v hv) (hread.arguments v hv)⟩
  · rcases hresult with hvoid | hstorable
    · exact .inl (Ty.eq_void hvoid hread.result)
    · exact .inr (Ty.mem_valueTypes hstorable hread.result)
  · intro hname
    unfold Function.declarationCause? at h
    split at h
    · cases h
    · by_cases hother : f.result ≠ .int ∧ f.result ≠ .bool
      · rw [if_pos ⟨hname, hother⟩] at h
        cases h
      · exact Decidable.or_iff_not_imp_left.2 (by simpa using hother)

/-- Nothing is wrong with the declarations of a function that passes. -/
theorem Function.declarationCause?_of_check {signatures : Signatures} {f : Function} {u : Unit}
    (h : (f.check signatures).2 = .ok u) : f.declarationCause? = none := by
  cases hcause : f.declarationCause? with
  | none => rfl
  | some cause => simp [Function.check, hcause] at h

/-- **A function that passes keeps the rules.** -/
theorem Function.wellTyped_of_check {signatures : Signatures} {f : Function} (hread : f.AsRead)
    (hplain : (f.typingEnv signatures).Plain) (hknown : (f.typingEnv signatures).Known [])
    (h : (f.check signatures).2 = .ok ()) : f.WellTyped signatures := by
  have hcause := Function.declarationCause?_of_check h
  obtain ⟨hresult, hmain, harguments⟩ := declared_of_declarationCause? hread hcause
  refine ⟨hresult, hmain, harguments, fun hbuiltin => ?_⟩
  have hbody : (checkStmts (f.typingEnv signatures) [] f.body).verdict = .ok () := by
    unfold Function.check at h
    unfold Function.typingEnv
    simpa [hcause, hbuiltin] using h
  exact ⟨_, (checksStmts_of_passes hbody).wellTyped hplain hknown hread.body⟩

end Slate
