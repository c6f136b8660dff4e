import Slate.Proofs.Typing.Accepted

/-!
# Checks against more signatures

A check that passes has found every signature that it looked for.  Where more signatures are
known, and the old ones are the same, it finds the same ones: it passes again, and it leaves
the same tree with the same locals (`Function.check_widened`).

For a check that fails this is not so.  A name that is unknown to the first signatures can
be the name of a function among the others.
-/

namespace Slate

/-- Every signature that is known is the one that the others know under this name. -/
def Signatures.KnownTo (signatures more : Signatures) : Prop :=
  ∀ name signature, signatures.lookup name = some signature → more.lookup name = some signature

/-- The environment with other signatures. -/
def Env.against (env : Env) (more : Signatures) : Env := { env with signatures := more }

variable {env : Env} {more : Signatures}

/-- What a call is asked for is asked for against more signatures. -/
theorem Env.demand_widened (h : env.signatures.KnownTo more) {name : String} {count : Nat}
    {signature : Signature} (known : env.demand name count = .ok signature) :
    (env.against more).demand name count = .ok signature := by
  rcases Env.demand_eq_ok known with ⟨rfl, few, rfl⟩ | ⟨other, hlookup, rfl⟩
  · exact Env.demand_syscall few
  · exact Env.demand_known other (h name signature hlookup)

/-! ## Expressions -/

mutual

/-- **An expression that passes is elaborated alike against more signatures.** -/
theorem ChecksExpr.widened (h : env.signatures.KnownTo more) {before after : List Var}
    {e e' : Expr} {t : Ty} :
    ChecksExpr env before e ⟨e', after, .ok t⟩ →
      ChecksExpr (env.against more) before e ⟨e', after, .ok t⟩
  | .literal => .literal
  | .declare storable fresh => .declare storable fresh
  | .var known => .var known
  | .assign value place reference agree =>
      .assign (value.widened h) (place.widened h) reference agree
  | .call known arguments => .call (Env.demand_widened h known) (arguments.widened h)
  | .binary first second agree defined =>
      .binary (first.widened h) (second.widened h) agree defined
  | .unary value agree => .unary (value.widened h) agree
  | .cast place => .cast (place.widened h)

/-- The same for the arguments of a call. -/
theorem ChecksArguments.widened (h : env.signatures.KnownTo more) {before after : List Var}
    {expected : List Ty} {es es' : List Expr} :
    ChecksArguments env before expected es ⟨es', after, .ok ()⟩ →
      ChecksArguments (env.against more) before expected es ⟨es', after, .ok ()⟩
  | .nil => .nil
  | .free argument others => .free (argument.widened h) (others.widened h)
  | .cons argument agree others => .cons (argument.widened h) agree (others.widened h)

end

/-! ## Statements -/

/-- A condition that passes does so against more signatures. -/
theorem ChecksCondition.widened (h : env.signatures.KnownTo more) {before after : List Var}
    {e e' : Expr} :
    ChecksCondition env before e ⟨e', after, .ok ()⟩ →
      ChecksCondition (env.against more) before e ⟨e', after, .ok ()⟩
  | .pass value => .pass (value.widened h)

/-- The same for what is returned. -/
theorem ChecksReturn.widened (h : env.signatures.KnownTo more) {before after : List Var}
    {span : Span} {value value' : Option Expr} :
    ChecksReturn env before span value ⟨value', after, .ok ()⟩ →
      ChecksReturn (env.against more) before span value ⟨value', after, .ok ()⟩
  | .nothing void => .nothing void
  | .value something value agree => .value something (value.widened h) agree

mutual

/-- **A statement that passes is elaborated alike against more signatures.** -/
theorem ChecksStmt.widened (h : env.signatures.KnownTo more) {before after : List Var}
    {s s' : Stmt} :
    ChecksStmt env before s ⟨s', after, .ok ()⟩ →
      ChecksStmt (env.against more) before s ⟨s', after, .ok ()⟩
  | .expression value => .expression (value.widened h)
  | .ret returned => .ret (returned.widened h)
  | .ifThen test branch => .ifThen (test.widened h) (branch.widened h)
  | .ifElse test branch other =>
      .ifElse (test.widened h) (branch.widened h) (other.widened h)
  | .loop test rounds => .loop (test.widened h) (rounds.widened h)
  | .block inner => .block (inner.widened h)

/-- The same for a list of statements. -/
theorem ChecksStmts.widened (h : env.signatures.KnownTo more) {before after : List Var}
    {ss ss' : List Stmt} :
    ChecksStmts env before ss ⟨ss', after, .ok ()⟩ →
      ChecksStmts (env.against more) before ss ⟨ss', after, .ok ()⟩
  | .nil => .nil
  | .cons first others => .cons (first.widened h) (others.widened h)

end

/-! ## Functions -/

/-- **A function that passes is elaborated alike against more signatures.** -/
theorem Function.check_widened {signatures : Signatures} (h : signatures.KnownTo more)
    {f : Function} (hpass : (f.check signatures).2 = .ok ()) :
    f.check more = f.check signatures := by
  cases hcause : f.declarationCause? with
  | some cause => rw [Function.check_of_cause hcause, Function.check_of_cause hcause]
  | none =>
      cases hblock : f.builtin with
      | true =>
          rw [Function.check_of_builtin hcause hblock, Function.check_of_builtin hcause hblock]
      | false =>
          have hchecks := checksStmts (f.typingEnv signatures) [] f.body
          rcases hbody : checkStmts (f.typingEnv signatures) [] f.body with ⟨body, locals, verdict⟩
          have hcheck := Function.check_of_body hcause hblock hbody
          rw [hcheck] at hpass
          obtain rfl : verdict = .ok () := hpass
          rw [hbody] at hchecks
          rw [hcheck]
          exact Function.check_of_body hcause hblock (hchecks.widened h).eq

end Slate
