import Slate.Proofs.Tree.Spanless
import Slate.Proofs.Typing.Checks

/-!
# Checking does not look at spans

A check copies spans into casts and faults, and decides nothing by them.  So checking a tree
without its spans leaves what checking the tree leaves, without the spans: the elaborated
tree, the locals, and the verdict with its answer or its cause.
-/

namespace Slate

/-- The fault without its place. -/
def TypeFault.spanless (f : TypeFault) : TypeFault := ⟨f.cause, .nowhere⟩

/-- A verdict without the place of the fault. -/
def verdictWithoutPlace {ρ : Type} : Except TypeFault ρ → Except TypeFault ρ
  | .ok answer => .ok answer
  | .error f => .error f.spanless

/-- An expression decays without its spans as it does with them. -/
@[simp] theorem Expr.decayed_spanless (e : Expr) (t : Ty) :
    e.spanless.decayed t = (e.decayed t).spanless := by
  unfold Expr.decayed
  by_cases hreference : t.isReference = true
  · rw [if_pos hreference, if_pos hreference, e.span_spanless]
    rfl
  · rw [if_neg hreference, if_neg hreference]

/-- A fault at an expression is, without its place, the fault at the expression without its
spans. -/
theorem verdictWithoutPlace_span {ρ : Type} (cause : TypeCause) (e : Expr) :
    verdictWithoutPlace (.error ⟨cause, e.span⟩ : Except TypeFault ρ) =
      .error ⟨cause, e.spanless.span⟩ := by
  rw [e.span_spanless]
  rfl

variable {env : Env}

/-! ## Expressions -/

mutual

/-- **Expressions are checked without looking at spans.** -/
theorem ChecksExpr.spanless {before after : List Var} {e e' : Expr}
    {verdict : Except TypeFault Ty} :
    ChecksExpr env before e ⟨e', after, verdict⟩ →
      ChecksExpr env before e.spanless ⟨e'.spanless, after, verdictWithoutPlace verdict⟩
  | .literal => .literal
  | .unstorable storable => .unstorable storable
  | .redeclared storable known => .redeclared storable known
  | .declare storable fresh => .declare storable fresh
  | .unknown unknown => .unknown unknown
  | .var known => .var known
  | .assignRight value => .assignRight value.spanless
  | .assignLeft value place => .assignLeft value.spanless place.spanless
  | .assignValue value place plain => by
      rw [verdictWithoutPlace_span]
      exact .assignValue value.spanless place.spanless plain
  | .assignDiffers value place reference differ =>
      .assignDiffers value.spanless place.spanless reference differ
  | .assign value place reference agree => by
      rw [Expr.spanless, Expr.spanless, ← Expr.decayed_spanless]
      exact .assign value.spanless place.spanless reference agree
  | .refused refused => .refused (by rwa [length_spanlessArguments])
  | .callArguments known arguments =>
      .callArguments (by rwa [length_spanlessArguments]) arguments.spanless
  | .call known arguments => .call (by rwa [length_spanlessArguments]) arguments.spanless
  | .binaryFirst first => .binaryFirst first.spanless
  | .binarySecond first second => .binarySecond first.spanless second.spanless
  | .binaryDiffers first second differ => .binaryDiffers first.spanless second.spanless differ
  | .binaryUndefined first second agree undefined => by
      rw [Expr.spanless, Expr.spanless, ← Expr.decayed_spanless, ← Expr.decayed_spanless]
      exact .binaryUndefined first.spanless second.spanless agree undefined
  | .binary first second agree defined => by
      rw [Expr.spanless, Expr.spanless, ← Expr.decayed_spanless, ← Expr.decayed_spanless]
      exact .binary first.spanless second.spanless agree defined
  | .unaryOperand value => .unaryOperand value.spanless
  | .unaryDiffers value differ => by
      rw [Expr.spanless, Expr.spanless, ← Expr.decayed_spanless]
      exact .unaryDiffers value.spanless differ
  | .unary value agree => by
      rw [Expr.spanless, Expr.spanless, ← Expr.decayed_spanless]
      exact .unary value.spanless agree
  | .castOperand place => .castOperand place.spanless
  | .cast place => .cast place.spanless

/-- The same for the arguments of a call. -/
theorem ChecksArguments.spanless {before after : List Var} {expected : List Ty}
    {es es' : List Expr} {verdict : Except TypeFault Unit} :
    ChecksArguments env before expected es ⟨es', after, verdict⟩ →
      ChecksArguments env before expected (spanlessArguments es)
        ⟨spanlessArguments es', after, verdictWithoutPlace verdict⟩
  | .nil => .nil
  | .first argument => .first argument.spanless
  | .free argument others => by
      rw [spanlessArguments, spanlessArguments, ← Expr.decayed_spanless]
      exact .free argument.spanless others.spanless
  | .differs argument differ => by
      rw [verdictWithoutPlace_span, spanlessArguments, spanlessArguments, ← Expr.decayed_spanless]
      exact .differs argument.spanless differ
  | .cons argument agree others => by
      rw [spanlessArguments, spanlessArguments, ← Expr.decayed_spanless]
      exact .cons argument.spanless agree others.spanless

end

/-! ## Statements -/

/-- The check of a condition goes the same way without spans. -/
theorem ChecksCondition.spanless {before after : List Var} {e e' : Expr}
    {verdict : Except TypeFault Unit} :
    ChecksCondition env before e ⟨e', after, verdict⟩ →
      ChecksCondition env before e.spanless ⟨e'.spanless, after, verdictWithoutPlace verdict⟩
  | .stops value => .stops value.spanless
  | .other value condition => by
      rw [verdictWithoutPlace_span]
      exact .other value.spanless condition
  | .pass value => .pass value.spanless

/-- The same for what is returned. -/
theorem ChecksReturn.spanless {before after : List Var} {span : Span}
    {value value' : Option Expr} {verdict : Except TypeFault Unit} :
    ChecksReturn env before span value ⟨value', after, verdict⟩ →
      ChecksReturn env before .nowhere (value.map Expr.spanless)
        ⟨value'.map Expr.spanless, after, verdictWithoutPlace verdict⟩
  | .nothing void => .nothing void
  | .missing something => .missing something
  | .unwanted void => .unwanted void
  | .stops something value => .stops something value.spanless
  | .differs something value differ => .differs something value.spanless differ
  | .value something value agree => by
      rw [Option.map_some, Option.map_some, ← Expr.decayed_spanless]
      exact .value something value.spanless agree

mutual

/-- **Statements are checked without looking at spans.** -/
theorem ChecksStmt.spanless {before after : List Var} {s s' : Stmt}
    {verdict : Except TypeFault Unit} :
    ChecksStmt env before s ⟨s', after, verdict⟩ →
      ChecksStmt env before s.spanless ⟨s'.spanless, after, verdictWithoutPlace verdict⟩
  | .expressionStops value => .expressionStops value.spanless
  | .expression value => .expression value.spanless
  | .ret returned => .ret returned.spanless
  | .ifThenStops test => .ifThenStops test.spanless
  | .ifThen test branch => .ifThen test.spanless branch.spanless
  | .ifElseStops test => .ifElseStops test.spanless
  | .ifElseBranch test branch => .ifElseBranch test.spanless branch.spanless
  | .ifElse test branch other => .ifElse test.spanless branch.spanless other.spanless
  | .loopStops test => .loopStops test.spanless
  | .loop test rounds => .loop test.spanless rounds.spanless
  | .block inner => .block inner.spanless

/-- The same for a list of statements. -/
theorem ChecksStmts.spanless {before after : List Var} {ss ss' : List Stmt}
    {verdict : Except TypeFault Unit} :
    ChecksStmts env before ss ⟨ss', after, verdict⟩ →
      ChecksStmts env before (spanlessBody ss)
        ⟨spanlessBody ss', after, verdictWithoutPlace verdict⟩
  | .nil => .nil
  | .first first => .first first.spanless
  | .cons first others => .cons first.spanless others.spanless

end

/-! ## Programs -/

/-- The check of a function without its spans gives the same verdict, but for the place. -/
theorem Function.check_spanless (signatures : Signatures) (f : Function) :
    f.spanless.check signatures =
      ((f.check signatures).1.spanless, verdictWithoutPlace (f.check signatures).2) := by
  unfold Function.check
  have hcause : f.spanless.declarationCause? = f.declarationCause? := rfl
  rw [hcause]
  split
  · rfl
  · have hbuiltin : f.spanless.builtin = f.builtin := rfl
    rw [hbuiltin]
    split
    · rfl
    · have hbody := (checksStmts ⟨signatures, f.arguments, f.result⟩ [] f.body).spanless.eq
      dsimp only [Function.spanless]
      rw [hbody]

/-- So does the check of all functions. -/
theorem checkFunctions_spanless (signatures : Signatures) (fs : List Function) :
    checkFunctions signatures (fs.map Function.spanless) =
      match checkFunctions signatures fs with
      | .ok gs => .ok (gs.map Function.spanless)
      | .error f => .error f.spanless := by
  induction fs with
  | nil => rfl
  | cons f fs ih =>
      rw [List.map_cons, checkFunctions, checkFunctions, f.check_spanless, ih]
      generalize f.check signatures = c
      obtain ⟨g, e | answer⟩ := c
      · rfl
      · dsimp only [verdictWithoutPlace]
        cases checkFunctions signatures fs <;> rfl

/-- Signatures have no spans. -/
theorem Program.signatures_spanless (p : Program) : p.spanless.signatures = p.signatures := by
  unfold Program.signatures Program.spanless
  rw [List.map_map]
  rfl

end Slate
