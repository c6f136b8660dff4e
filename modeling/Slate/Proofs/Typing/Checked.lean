import Slate.Proofs.Grammar.AsRead
import Slate.Proofs.Typing.Checks
import Slate.Proofs.Typing.Judgment

/-!
# What the checker lets pass is well typed

The check of a tree as read, when it passes, leaves a tree that has the type which
the check found, and the locals that the typing judgment has after it.

A check finds reference types for places.  It puts a cast around an operand exactly
when the operand is of reference type, and the types that a program can write are
types of values; so what has decayed is of the type of a value (`TypedExpr.decayed`),
and two types of values with one name are equal.
-/

namespace Slate

/-! ## Types of values -/

/-- A type that is no reference is its own type of values. -/
theorem Ty.value_eq_self {t : Ty} (h : t.isReference = false) : t.value = t := by
  obtain ⟨name, isReference⟩ := t
  cases h
  rfl

/-- The type of a value is never one of references. -/
theorem Ty.isReference_value (t : Ty) : t.value.isReference = false := rfl

/-- Types that agree are of the same values. -/
theorem Ty.value_eq_of_agrees {a b : Ty} (h : a.agrees b = true) : a.value = b.value := by
  have hname : a.name = b.name := by
    simpa [Ty.agrees] using h
  simp only [Ty.value, hname]

/-- No type that the environment knows from declarations is a reference. -/
structure Env.Plain (env : Env) : Prop where
  arguments : ∀ v ∈ env.arguments, v.type.isReference = false
  result : env.result.isReference = false
  signatures : ∀ name signature, env.signatures.lookup name = some signature →
    (∀ t ∈ signature.arguments, t.isReference = false) ∧ signature.result.isReference = false

variable {env : Env}

/-- What has decayed is of the type of the value. -/
theorem TypedExpr.decayed {before after : List Var} {e : Expr} {t : Ty}
    (h : TypedExpr env before e t after) : TypedExpr env before (e.decayed t) t.value after := by
  unfold Expr.decayed
  by_cases hr : t.isReference = true
  · rw [if_pos hr]
    exact .cast h hr rfl
  · rw [if_neg hr, Ty.value_eq_self (Bool.eq_false_iff.2 hr)]
    exact h

/-! ## Expressions -/

/-- A check adds and removes no argument. -/
theorem ChecksArguments.length_eq {before after : List Var} {expected : List Ty}
    {es es' : List Expr} {verdict : Except TypeFault Unit}
    (h : ChecksArguments env before expected es ⟨es', after, verdict⟩) :
    es'.length = es.length := by
  induction es generalizing before expected es' with
  | nil =>
      cases h
      rfl
  | cons e es ih =>
      cases h with
      | first _ => rfl
      | free _ others => exact congrArg Nat.succ (ih others)
      | differs _ _ => rfl
      | cons _ _ others => exact congrArg Nat.succ (ih others)

mutual

/-- **Checked expressions are well typed.** -/
theorem ChecksExpr.typed (henv : env.Plain) {before after : List Var} {e e' : Expr} {t : Ty} :
    ChecksExpr env before e ⟨e', after, .ok t⟩ → e.AsRead → TypedExpr env before e' t after
  | .literal, _ => .literal rfl
  | .declare storable fresh, hread => .declare storable hread.2 fresh rfl
  | .var known, _ => .var known rfl
  | .assign value place reference agree, ⟨_, hleft, hright⟩ => by
      have hvalue := (value.typed henv hright).decayed
      rw [← Ty.value_eq_of_agrees agree] at hvalue
      exact .assign hvalue (place.typed henv hleft) reference rfl
  | .call known arguments, hread => by
      have hlength := arguments.length_eq
      rcases Env.demand_eq_ok known with ⟨rfl, few, rfl⟩ | ⟨other, known, hcount⟩
      · obtain ⟨types, htyped⟩ := arguments.typed_any henv hread.2
        exact .syscall (hlength ▸ few) htyped rfl
      · have hplain := (henv.signatures _ _ known).1
        exact .call other known (arguments.typed henv hread.2 hplain hcount) rfl
  | .binary first second agree defined, ⟨_, hleft, hright⟩ => by
      have hfirst := (first.typed henv hleft).decayed
      have hsecond := (second.typed henv hright).decayed
      rw [← Ty.value_eq_of_agrees agree] at hsecond
      exact .binary hfirst hsecond (Ty.isReference_value _) defined rfl
  | .unary value agree, hread => by
      have hvalue := (value.typed henv hread.2).decayed
      rw [agree] at hvalue
      exact .unary hvalue rfl

/-- Checked arguments of declared types have these types. -/
theorem ChecksArguments.typed (henv : env.Plain) {before after : List Var} {expected : List Ty}
    {es es' : List Expr} :
    ChecksArguments env before expected es ⟨es', after, .ok ()⟩ → ArgumentsAsRead es →
      (∀ t ∈ expected, t.isReference = false) → expected.length = es.length →
      TypedArguments env before es' expected after
  | .nil, _, _, hlength => by
      obtain rfl := List.length_eq_zero_iff.1 hlength
      exact .nil
  | .free _ _, _, _, hlength => nomatch hlength
  | .cons argument agree others, ⟨he, hes⟩, hplain, hlength => by
      obtain ⟨hwant, hwants⟩ := List.forall_mem_cons.1 hplain
      have hvalue := (argument.typed henv he).decayed
      rw [Ty.value_eq_of_agrees agree, Ty.value_eq_self hwant] at hvalue
      exact .cons hvalue hwant (others.typed henv hes hwants (Nat.succ.inj hlength))

/-- Checked arguments of a system call have types of values. -/
theorem ChecksArguments.typed_any (henv : env.Plain) {before after : List Var}
    {es es' : List Expr} :
    ChecksArguments env before [] es ⟨es', after, .ok ()⟩ → ArgumentsAsRead es →
      ∃ types, TypedArguments env before es' types after
  | .nil, _ => ⟨[], .nil⟩
  | .free argument others, ⟨he, hes⟩ => by
      obtain ⟨types, hothers⟩ := others.typed_any henv hes
      exact ⟨_, .cons (argument.typed henv he).decayed (Ty.isReference_value _) hothers⟩

end

/-! ## Statements -/

/-- A condition that passes is a typed truth value. -/
theorem ChecksCondition.typed (henv : env.Plain) {before after : List Var} {e e' : Expr} :
    ChecksCondition env before e ⟨e', after, .ok ()⟩ → e.AsRead →
      TypedExpr env before e' .bool after
  | .pass value, hread => value.typed henv hread

/-- The same for what is returned. -/
theorem ChecksReturn.typed (henv : env.Plain) {before after : List Var} {span : Span}
    {value value' : Option Expr} :
    ChecksReturn env before span value ⟨value', after, .ok ()⟩ → (Stmt.ret span value).AsRead →
      TypedStmt env before (.ret span value') after
  | .nothing void, _ => .ret void
  | .value something value agree, hread => by
      have hvalue := (value.typed henv hread).decayed
      rw [Ty.value_eq_of_agrees agree, Ty.value_eq_self henv.result] at hvalue
      exact .retValue something hvalue

mutual

/-- **Checked statements are well typed.** -/
theorem ChecksStmt.typed (henv : env.Plain) {before after : List Var} {s s' : Stmt} :
    ChecksStmt env before s ⟨s', after, .ok ()⟩ → s.AsRead → TypedStmt env before s' after
  | .expression value, hread => .expression (value.typed henv hread)
  | .ret returned, hread => returned.typed henv hread
  | .ifThen test branch, ⟨htest, hbranch⟩ =>
      .ifThen (test.typed henv htest) (branch.typed henv hbranch)
  | .ifElse test branch other, ⟨htest, hbranch, hother⟩ =>
      .ifElse (test.typed henv htest) (branch.typed henv hbranch) (other.typed henv hother)
  | .loop test rounds, ⟨htest, hrounds⟩ =>
      .loop (test.typed henv htest) (rounds.typed henv hrounds)
  | .block inner, hread => .block (inner.typed henv hread)

/-- The same for a list of statements. -/
theorem ChecksStmts.typed (henv : env.Plain) {before after : List Var} {ss ss' : List Stmt} :
    ChecksStmts env before ss ⟨ss', after, .ok ()⟩ → BodyAsRead ss →
      TypedStmts env before ss' after
  | .nil, _ => .nil
  | .cons first others, ⟨hfirst, hothers⟩ =>
      .cons (first.typed henv hfirst) (others.typed henv hothers)

end

end Slate
