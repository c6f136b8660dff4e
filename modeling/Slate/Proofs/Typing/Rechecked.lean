import Slate.Proofs.Typing.Accepted

/-!
# Checking again changes nothing

A check leaves a tree also where it fails, and this tree can be anything between the
tree that was read and the elaborated one: some operands have their types noted, some
have decayed, and the rest has not been looked at.  Checked again, it gives the same
verdict and is left as it stands.  There is no condition on the first tree: it may have
casts, noted types and locals from anywhere.

The reason is the same at every stopping point.  What has been checked goes the way that it
went before (`ChecksExpr.again`).  An operand that has decayed is now of the type of the
value, so it does not decay a second time (`ChecksExpr.decayed`), and everything that is
asked of it afterwards, the wording of faults included, is asked of the value.  A fault that
names the reference itself is found before the operand decays, so the reference is
still there.

* `Function.check_again` says it of a function;
* `Within.checkAt`, `Within.checkEach` and `checks_repeatable` say it of any sequence of
  checks within one program: every check answers as if it were the first one.
-/

namespace Slate

variable {env : Env}

/-! ## Expressions -/

/-- A check keeps the span of its expression. -/
theorem ChecksExpr.span_eq {before after : List Var} {e e' : Expr} {verdict : Except TypeFault Ty}
    (h : ChecksExpr env before e ⟨e', after, verdict⟩) : e'.span = e.span := by
  cases h <;> rfl

/-- An expression keeps its span when it decays. -/
theorem span_decayed (e : Expr) (t : Ty) : (e.decayed t).span = e.span := by
  unfold Expr.decayed
  split <;> rfl

/-- What has decayed has the type of the value, and does not decay again. -/
theorem ChecksExpr.decayed {before after : List Var} {e : Expr} {t : Ty}
    (h : ChecksExpr env before e (.pass e after t)) :
    ChecksExpr env before (e.decayed t) (.pass (e.decayed t) after t.value) := by
  unfold Expr.decayed
  by_cases hr : t.isReference = true
  · rw [if_pos hr]
    exact .cast h
  · rw [if_neg hr, Ty.value_eq_self (Bool.eq_false_iff.2 hr)]
    exact h

-- Where operands have decayed, the way is elaborated before it is compared with the goal: that
-- they do not decay a second time is seen by computing only.

mutual

/-- **What a check of an expression leaves goes the same way again.** -/
theorem ChecksExpr.again {before after : List Var} {e e' : Expr}
    {verdict : Except TypeFault Ty} :
    ChecksExpr env before e ⟨e', after, verdict⟩ →
      ChecksExpr env before e' ⟨e', after, verdict⟩
  | .literal => .literal
  | .unstorable storable => .unstorable storable
  | .redeclared storable known => .redeclared storable known
  | .declare storable fresh => .declare storable fresh
  | .unknown unknown => .unknown unknown
  | .var known => .var known
  | .assignRight value => .assignRight value.again
  | .assignLeft value place => .assignLeft value.again place.again
  | .assignValue value place plain => by
      rw [← place.span_eq]
      exact .assignValue value.again place.again plain
  | .assignDiffers value place reference differ =>
      .assignDiffers value.again place.again reference differ
  | .assign value place reference agree =>
      (ChecksExpr.assign value.again.decayed place.again reference agree :)
  | .refused refused => .refused refused
  | .callArguments known arguments => by
      rw [← arguments.length_eq] at known
      exact .callArguments known arguments.again
  | .call known arguments => by
      rw [← arguments.length_eq] at known
      exact .call known arguments.again
  | .binaryFirst first => .binaryFirst first.again
  | .binarySecond first second => .binarySecond first.again second.again
  | .binaryDiffers first second differ => .binaryDiffers first.again second.again differ
  | .binaryUndefined first second agree undefined =>
      (ChecksExpr.binaryUndefined first.again.decayed second.again.decayed agree undefined :)
  | .binary first second agree defined =>
      (ChecksExpr.binary first.again.decayed second.again.decayed agree defined :)
  | .unaryOperand value => .unaryOperand value.again
  | .unaryDiffers value differ => (ChecksExpr.unaryDiffers value.again.decayed differ :)
  | .unary value agree => (ChecksExpr.unary value.again.decayed agree :)
  | .castOperand place => .castOperand place.again
  | .cast place => .cast place.again

/-- The same for the arguments of a call. -/
theorem ChecksArguments.again {before after : List Var} {expected : List Ty}
    {es es' : List Expr} {verdict : Except TypeFault Unit} :
    ChecksArguments env before expected es ⟨es', after, verdict⟩ →
      ChecksArguments env before expected es' ⟨es', after, verdict⟩
  | .nil => .nil
  | .first argument => .first argument.again
  | .free argument others =>
      (ChecksArguments.free argument.again.decayed others.again :)
  | @ChecksArguments.differs _ _ _ _ _ _ e' _ t argument differ => by
      rw [← argument.span_eq, ← span_decayed e' t]
      exact (ChecksArguments.differs argument.again.decayed differ :)
  | .cons argument agree others =>
      (ChecksArguments.cons argument.again.decayed agree others.again :)

end

/-! ## Statements -/

/-- A condition that was checked is checked again with the same outcome. -/
theorem ChecksCondition.again {before after : List Var} {e e' : Expr}
    {verdict : Except TypeFault Unit} :
    ChecksCondition env before e ⟨e', after, verdict⟩ →
      ChecksCondition env before e' ⟨e', after, verdict⟩
  | .stops value => .stops value.again
  | .other value condition => by
      rw [← value.span_eq]
      exact .other value.again condition
  | .pass value => .pass value.again

/-- The same for what is returned. -/
theorem ChecksReturn.again {before after : List Var} {span : Span} {value value' : Option Expr}
    {verdict : Except TypeFault Unit} :
    ChecksReturn env before span value ⟨value', after, verdict⟩ →
      ChecksReturn env before span value' ⟨value', after, verdict⟩
  | .nothing void => .nothing void
  | .missing something => .missing something
  | .unwanted void => .unwanted void
  | .stops something value => .stops something value.again
  | .differs something value differ => .differs something value.again differ
  | .value something value agree =>
      (ChecksReturn.value something value.again.decayed agree :)

mutual

/-- **What a check of a statement leaves goes the same way again.** -/
theorem ChecksStmt.again {before after : List Var} {s s' : Stmt}
    {verdict : Except TypeFault Unit} :
    ChecksStmt env before s ⟨s', after, verdict⟩ →
      ChecksStmt env before s' ⟨s', after, verdict⟩
  | .expressionStops value => .expressionStops value.again
  | .expression value => .expression value.again
  | .ret returned => .ret returned.again
  | .ifThenStops test => .ifThenStops test.again
  | .ifThen test branch => .ifThen test.again branch.again
  | .ifElseStops test => .ifElseStops test.again
  | .ifElseBranch test branch => .ifElseBranch test.again branch.again
  | .ifElse test branch other => .ifElse test.again branch.again other.again
  | .loopStops test => .loopStops test.again
  | .loop test rounds => .loop test.again rounds.again
  | .block inner => .block inner.again

/-- The same for a list of statements. -/
theorem ChecksStmts.again {before after : List Var} {ss ss' : List Stmt}
    {verdict : Except TypeFault Unit} :
    ChecksStmts env before ss ⟨ss', after, verdict⟩ →
      ChecksStmts env before ss' ⟨ss', after, verdict⟩
  | .nil => .nil
  | .first first => .first first.again
  | .cons first others => .cons first.again others.again

end

/-! ## Functions -/

/-- **A function checked again.**  The check of what a check has left, passed or
failed, gives the same verdict and leaves the same function. -/
theorem Function.check_again (signatures : Signatures) (f : Function) :
    (f.check signatures).1.check signatures = f.check signatures := by
  cases hcause : f.declarationCause? with
  | some cause =>
      rw [Function.check_of_cause hcause]
      exact Function.check_of_cause hcause
  | none =>
      cases hbuiltin : f.builtin with
      | true =>
          rw [Function.check_of_builtin hcause hbuiltin]
          exact Function.check_of_builtin hcause hbuiltin
      | false =>
          -- The declared types, and so the environment, are not touched by the check.
          have hchecks := checksStmts (f.typingEnv signatures) [] f.body
          rcases hbody : checkStmts (f.typingEnv signatures) [] f.body with
            ⟨body, locals, verdict⟩
          rw [hbody] at hchecks
          rw [Function.check_of_body hcause hbuiltin hbody]
          exact Function.check_of_body hcause hbuiltin hchecks.again.eq

/-- A program that is accepted is accepted as it is left. -/
theorem Program.check_again {p q : Program} (h : p.check = .ok q) : q.check = .ok q := by
  obtain ⟨hall, rfl⟩ := Program.check_eq_ok.1 h
  refine Program.check_eq_ok.2 ?_
  rw [p.signatures_checked]
  refine ⟨?_, ?_⟩
  · refine List.forall_mem_map.2 fun f hf => ?_
    rw [f.check_again]
    exact hall f hf
  · simp only [List.map_map, Function.comp_def, Function.check_again]

/-! ## Sequences of checks -/

namespace Elaboration

/-- What checks in the order of the given indices leave. -/
def afterEach (work : Elaboration) : List Nat → Elaboration
  | [] => work
  | index :: indices => (work.checkAt index).1.afterEach indices

variable {p : Program} {work : Elaboration}

/-- Every function of the program is as it was, or as one check of it leaves it. -/
structure Within (work : Elaboration) (p : Program) : Prop where
  signatures : work.signatures = p.signatures
  each : ∀ index : Nat, work.functions[index]? = p.functions[index]? ∨
    work.functions[index]? = p.functions[index]?.map fun f => (f.check p.signatures).1

/-- A checker begins within its program. -/
theorem ofProgram_within (p : Program) : (ofProgram p).Within p :=
  ⟨rfl, fun _ => .inl rfl⟩

/-- Whatever has been checked before, the next check is that of the function as it was
at the start. -/
theorem Within.check (h : work.Within p) (index : Nat) :
    work.functions[index]?.map (Function.check p.signatures) =
      p.functions[index]?.map (Function.check p.signatures) := by
  rcases h.each index with hsame | hchecked
  · rw [hsame]
  · rw [hchecked, Option.map_map]
    refine congrArg (fun check => p.functions[index]?.map check) (funext fun f => ?_)
    exact f.check_again p.signatures

/-- One check answers with the check of the function as it was at the start, leaves this
function so, and leaves every other one as it is. -/
theorem Within.checkAt (h : work.Within p) (index : Nat) :
    (work.checkAt index).2 = p.functions[index]?.map (Function.check p.signatures) ∧
      (work.checkAt index).1.functions[index]? =
        p.functions[index]?.map (fun f => (f.check p.signatures).1) ∧
      (∀ other, other ≠ index →
        (work.checkAt index).1.functions[other]? = work.functions[other]?) ∧
      (work.checkAt index).1.signatures = p.signatures := by
  have hcheck := h.check index
  unfold Elaboration.checkAt
  cases hf : work.functions[index]? with
  | none =>
      have hnone : p.functions[index]? = none := by
        simpa [hf] using hcheck.symm
      simp [hf, hnone, h.signatures]
  | some f =>
      obtain ⟨f₀, hf₀, heq⟩ : ∃ f₀, p.functions[index]? = some f₀ ∧
          f₀.check p.signatures = f.check p.signatures := by
        simpa [hf] using hcheck.symm
      have hlt : index < work.functions.length := (List.getElem?_eq_some_iff.1 hf).1
      simp only [h.signatures, hf₀, Option.map_some, heq]
      refine ⟨trivial, List.getElem?_set_self hlt, ?_, trivial⟩
      intro other hne
      exact List.getElem?_set_ne (Ne.symm hne)

/-- A check keeps the functions between what they were and what one check leaves. -/
theorem Within.checkAt_within (h : work.Within p) (index : Nat) :
    (work.checkAt index).1.Within p := by
  obtain ⟨_, hself, hother, hsignatures⟩ := h.checkAt index
  refine ⟨hsignatures, fun other => ?_⟩
  by_cases heq : other = index
  · subst heq
    exact .inr hself
  · rw [hother other heq]
    exact h.each other

/-- So does every sequence of checks. -/
theorem Within.afterEach (h : work.Within p) (indices : List Nat) :
    (work.afterEach indices).Within p := by
  induction indices generalizing work with
  | nil => exact h
  | cons index indices ih => exact ih (h.checkAt_within index)

/-- The answers of a sequence of checks are those of single checks. -/
theorem Within.checkEach (h : work.Within p) (indices : List Nat) :
    work.checkEach indices = indices.map fun index =>
      p.functions[index]?.map (Function.check p.signatures) := by
  induction indices generalizing work with
  | nil => rfl
  | cons index indices ih =>
      show (work.checkAt index).2 :: (work.checkAt index).1.checkEach indices = _
      rw [List.map_cons, ih (h.checkAt_within index), (h.checkAt index).1]

end Elaboration

/-- **Checks can be repeated.**  Whatever has been checked before, in any order and as
often as one likes, the check of a function answers as a single check of the function at the
start does: it leaves the function that this one leaves, with the same verdict, and does not
touch any other function.  So a function that has failed fails again in the same way, and a
program that has been accepted is accepted as it is left. -/
theorem checks_repeatable (p : Program) :
    (∀ (done : List Nat) (index : Nat),
      let work := (Elaboration.ofProgram p).afterEach done
      (work.checkAt index).2 = p.functions[index]?.map (Function.check p.signatures) ∧
        (work.checkAt index).1.functions[index]? =
          p.functions[index]?.map (fun f => (f.check p.signatures).1) ∧
        ∀ other, other ≠ index →
          (work.checkAt index).1.functions[other]? = work.functions[other]?) ∧
    (∀ indices : List Nat, (Elaboration.ofProgram p).checkEach indices =
      indices.map fun index => p.functions[index]?.map (Function.check p.signatures)) ∧
    (∀ (f : Function) (signatures : Signatures),
      (f.check signatures).1.check signatures = f.check signatures) ∧
    ∀ q, p.check = .ok q → q.check = .ok q := by
  refine ⟨?_, ?_, fun f signatures => f.check_again signatures, fun q => Program.check_again⟩
  · intro done index
    obtain ⟨hanswer, hself, hother, _⟩ :=
      ((Elaboration.ofProgram_within p).afterEach done).checkAt index
    exact ⟨hanswer, hself, hother⟩
  · intro indices
    exact (Elaboration.ofProgram_within p).checkEach indices

/-- A program with a function that compares strings and one that reads a variable. -/
def mixedProgram : Program where
  functions := [
    ⟨"f", .bool, [], [], false, .nowhere, [.ret .nowhere (some
      (.binary .bare .equal (.literal .bare (.string "a")) (.literal .bare (.string "b"))))]⟩,
    ⟨"g", .int, [⟨"n", .int⟩], [], false, .nowhere, [.ret .nowhere (some (.var .bare "n"))]⟩]
  file := none

/-- The comparison is refused again after everything has been checked, and no check of it
touches the other function; the program without it is accepted as it is left. -/
theorem checks_repeatable_mixed :
    (((Elaboration.ofProgram mixedProgram).checkEach [0, 1, 0]).map fun answer =>
        answer.map fun check => check.2) =
      [some (.error ⟨.comparesStrings, .nowhere⟩), some (.ok ()),
        some (.error ⟨.comparesStrings, .nowhere⟩)] ∧
    (((Elaboration.ofProgram mixedProgram).afterEach [1, 0]).checkAt 0).1.functions[1]? =
      ((Elaboration.ofProgram mixedProgram).afterEach [1, 0]).functions[1]? ∧
    ∃ q, Program.check ⟨mixedProgram.functions.tail, none⟩ = .ok q ∧ q.check = .ok q := by
  obtain ⟨hsteps, hruns, _⟩ := checks_repeatable mixedProgram
  obtain ⟨_, _, _, hagain⟩ := checks_repeatable ⟨mixedProgram.functions.tail, none⟩
  refine ⟨?_, (hsteps [1, 0] 0).2.2 1 (by decide), _, rfl, hagain _ rfl⟩
  rw [hruns]
  rfl

end Slate
