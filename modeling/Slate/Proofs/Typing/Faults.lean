import Slate.Proofs.Tree.Spans
import Slate.Proofs.Typing.Checks

/-!
# Where faults of typing are

The checker makes up no place.  The span of a fault is one of the spans that stand in what
was checked: of an expression or a statement in it, or of the function
(`Function.check_faults`).

`Checked.FaultsIn` says this of one check, and its rules follow the ways in which a check
goes: it passes, it fails at a span, or it stops where a check of a part failed.
-/

namespace Slate

namespace Checked

/-- If the check fails, the fault is at one of the spans. -/
def FaultsIn {τ ρ : Type} (c : Checked τ ρ) (spans : List Span) : Prop :=
  ∀ fault, c.verdict = .error fault → fault.span ∈ spans

namespace FaultsIn

variable {τ ρ σ π : Type} {spans more : List Span} {tree : τ} {locals : List Var}

/-- What passes has no fault. -/
theorem pass {answer : ρ} : (Checked.pass tree locals answer).FaultsIn spans := by
  intro fault h
  cases h

/-- A fault at one of the spans is among them. -/
theorem fail {span : Span} {cause : TypeCause} (h : span ∈ spans) :
    (Checked.fail tree locals span cause : Checked τ ρ).FaultsIn spans := by
  intro fault hfault
  cases hfault
  exact h

/-- A check that stops where the check of a part failed has its fault. -/
theorem stops {part : σ} {fault : TypeFault}
    (h : (⟨part, locals, .error fault⟩ : Checked σ π).FaultsIn spans) (hpart : spans ⊆ more) :
    (⟨tree, locals, .error fault⟩ : Checked τ ρ).FaultsIn more := by
  intro other hother
  cases hother
  exact hpart (h fault rfl)

/-- A check with the verdict of the check of a part has its fault. -/
theorem same {part : σ} {verdict : Except TypeFault ρ}
    (h : (⟨part, locals, verdict⟩ : Checked σ ρ).FaultsIn spans) (hpart : spans ⊆ more) :
    (⟨tree, locals, verdict⟩ : Checked τ ρ).FaultsIn more :=
  fun fault hfault => hpart (h fault hfault)

end FaultsIn

end Checked

open Checked

variable {env : Env}

mutual

/-- A fault in an expression is at it or at an expression in it. -/
theorem ChecksExpr.faultsIn {locals : List Var} {e : Expr} {c : Checked Expr Ty} :
    ChecksExpr env locals e c → c.FaultsIn e.spans
  | .literal => .pass
  | .unstorable _ => .fail List.mem_cons_self
  | .redeclared _ _ => .fail List.mem_cons_self
  | .declare _ _ => .pass
  | .unknown _ => .fail List.mem_cons_self
  | .var _ => .pass
  | .assignRight value => value.faultsIn.stops (by simp [Expr.spans])
  | .assignLeft _ place => place.faultsIn.stops (by simp [Expr.spans])
  | .assignValue _ _ _ => .fail (by simp [Expr.spans, Expr.span_mem_spans])
  | .assignDiffers _ _ _ _ => .fail List.mem_cons_self
  | .assign _ _ _ _ => .pass
  | .refused _ => .fail List.mem_cons_self
  | .callArguments _ arguments => arguments.faultsIn.stops (by simp [Expr.spans])
  | .call _ _ => .pass
  | .binaryFirst first => first.faultsIn.stops (by simp [Expr.spans])
  | .binarySecond _ second => second.faultsIn.stops (by simp [Expr.spans])
  | .binaryDiffers _ _ _ => .fail List.mem_cons_self
  | .binaryUndefined _ _ _ _ => .fail List.mem_cons_self
  | .binary _ _ _ _ => .pass
  | .unaryOperand value => value.faultsIn.stops (by simp [Expr.spans])
  | .unaryDiffers _ _ => .fail List.mem_cons_self
  | .unary _ _ => .pass
  | .castOperand place => place.faultsIn.stops (by simp [Expr.spans])
  | .cast _ => .pass

/-- The same for the arguments of a call. -/
theorem ChecksArguments.faultsIn {locals : List Var} {expected : List Ty} {es : List Expr}
    {c : Checked (List Expr) Unit} :
    ChecksArguments env locals expected es c → c.FaultsIn (argumentSpans es)
  | .nil => .pass
  | .first argument => argument.faultsIn.stops (by simp [argumentSpans])
  | .free _ others => others.faultsIn.same (by simp [argumentSpans])
  | .differs _ _ => .fail (by simp [argumentSpans, Expr.span_mem_spans])
  | .cons _ _ others => others.faultsIn.same (by simp [argumentSpans])

end

/-- The same for a condition. -/
theorem ChecksCondition.faultsIn {locals : List Var} {e : Expr} {c : Checked Expr Unit}
    (h : ChecksCondition env locals e c) : c.FaultsIn e.spans := by
  cases h with
  | stops value => exact value.faultsIn.stops (List.Subset.refl _)
  | other _ _ => exact .fail e.span_mem_spans
  | pass _ => exact .pass

/-- A fault in a `return` is in its value or at the statement. -/
theorem ChecksReturn.faultsIn {locals : List Var} {span : Span} {value : Option Expr}
    {c : Checked (Option Expr) Unit} (h : ChecksReturn env locals span value c) :
    c.FaultsIn (Stmt.ret span value).spans := by
  cases h with
  | nothing _ => exact .pass
  | missing _ => exact .fail List.mem_cons_self
  | unwanted _ => exact .fail List.mem_cons_self
  | stops _ value => exact value.faultsIn.stops (List.subset_cons_self _ _)
  | differs _ _ _ => exact .fail List.mem_cons_self
  | value _ _ _ => exact .pass

mutual

/-- A fault in a statement is at it or in it. -/
theorem ChecksStmt.faultsIn {locals : List Var} {s : Stmt} {c : Checked Stmt Unit} :
    ChecksStmt env locals s c → c.FaultsIn s.spans
  | .expressionStops value => value.faultsIn.stops (List.subset_cons_self _ _)
  | .expression _ => .pass
  | .ret returned => returned.faultsIn.same (List.Subset.refl _)
  | .ifThenStops test => test.faultsIn.stops (by simp [Stmt.spans])
  | .ifThen _ branch => branch.faultsIn.same (by simp [Stmt.spans])
  | .ifElseStops test => test.faultsIn.stops (by simp [Stmt.spans])
  | .ifElseBranch _ branch => branch.faultsIn.stops fun _ hspan => by simp [Stmt.spans, hspan]
  | .ifElse _ _ other => other.faultsIn.same fun _ hspan => by simp [Stmt.spans, hspan]
  | .loopStops test => test.faultsIn.stops (by simp [Stmt.spans])
  | .loop _ rounds => rounds.faultsIn.same (by simp [Stmt.spans])
  | .block inner => inner.faultsIn.same (List.subset_cons_self _ _)

/-- The same for a list of statements. -/
theorem ChecksStmts.faultsIn {locals : List Var} {ss : List Stmt} {c : Checked (List Stmt) Unit} :
    ChecksStmts env locals ss c → c.FaultsIn (bodySpans ss)
  | .nil => .pass
  | .first first => first.faultsIn.stops (by simp [bodySpans])
  | .cons _ others => others.faultsIn.same (by simp [bodySpans])

end

/-- A fault in a function is at its span or in its body. -/
theorem Function.check_faults {signatures : Signatures} {f g : Function} {fault : TypeFault}
    (h : f.check signatures = (g, .error fault)) : fault.span ∈ f.spans := by
  simp only [Function.check] at h
  split at h
  · cases h
    exact List.mem_cons_self
  · split at h
    · cases h
    · obtain ⟨-, hverdict⟩ := Prod.mk.injEq .. ▸ h
      exact List.mem_cons_of_mem _ ((checksStmts _ [] f.body).faultsIn fault hverdict)

/-- A fault of all functions is in one of them. -/
theorem checkFunctions_faults {signatures : Signatures} {fs : List Function} {fault : TypeFault}
    (h : checkFunctions signatures fs = .error fault) : ∃ f ∈ fs, fault.span ∈ f.spans := by
  induction fs with
  | nil => cases h
  | cons f fs ih =>
      rw [checkFunctions] at h
      split at h
      · next g other hf =>
        cases h
        exact ⟨f, List.mem_cons_self, Function.check_faults hf⟩
      · next g hf =>
        cases hothers : checkFunctions signatures fs with
        | ok others =>
            rw [hothers] at h
            cases h
        | error other =>
            rw [hothers] at h
            cases h
            obtain ⟨g, hg, hspan⟩ := ih hothers
            exact ⟨g, List.mem_cons_of_mem _ hg, hspan⟩

/-- **What the checker reports is at a span of the program, in the file of the program.** -/
theorem Program.check_faults {p : Program} {d : Diagnostic} (h : p.check = .error d) :
    d.file = p.file ∧ ∃ f ∈ p.functions, ∃ s ∈ f.spans, d.span = some s := by
  unfold Program.check at h
  split at h
  · next fault hfault =>
    cases h
    obtain ⟨f, hf, hspan⟩ := checkFunctions_faults hfault
    exact ⟨rfl, f, hf, fault.span, hspan, rfl⟩
  · cases h

end Slate
