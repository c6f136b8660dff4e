import Slate.Proofs.Grammar.AsRead
import Slate.Proofs.Typing.Checks

/-!
# Trees without what the checker adds

The checker notes types, puts casts around operands and records locals.  Erasing takes all
of this away again, and only this: what a check leaves, passed or failed, is what it was
given up to erasure, and a tree as read has nothing to erase.  So the elaborated form of a
tree that was read determines this tree.
-/

namespace Slate

mutual

/-- The expression without casts and noted types. -/
def Expr.erased : Expr → Expr
  | .literal n value => .literal (.unchecked n.span) value
  | .declare n declared => .declare (.unchecked n.span) declared
  | .var n name => .var (.unchecked n.span) name
  | .assign n left right => .assign (.unchecked n.span) left.erased right.erased
  | .call n name args => .call (.unchecked n.span) name (erasedArguments args)
  | .binary n op left right => .binary (.unchecked n.span) op left.erased right.erased
  | .unary n op operand => .unary (.unchecked n.span) op operand.erased
  | .cast _ operand => operand.erased

/-- Arguments without casts and noted types. -/
def erasedArguments : List Expr → List Expr
  | [] => []
  | e :: es => e.erased :: erasedArguments es

end

mutual

/-- The statement without casts and noted types. -/
def Stmt.erased : Stmt → Stmt
  | .expression span e => .expression span e.erased
  | .ret span value => .ret span (value.map Expr.erased)
  | .ifThen span condition body => .ifThen span condition.erased (erasedBody body)
  | .ifElse span condition body otherwise =>
    .ifElse span condition.erased (erasedBody body) otherwise.erased
  | .loop span condition body => .loop span condition.erased (erasedBody body)
  | .block span body => .block span (erasedBody body)

/-- Statements without casts and noted types. -/
def erasedBody : List Stmt → List Stmt
  | [] => []
  | s :: ss => s.erased :: erasedBody ss

end

/-- The function without casts, noted types and recorded locals. -/
def Function.erased (f : Function) : Function :=
  { f with locals := [], body := erasedBody f.body }

/-- A cast around an expression is erased with it. -/
@[simp] theorem Expr.erased_decayed (e : Expr) (t : Ty) : (e.decayed t).erased = e.erased := by
  unfold Expr.decayed
  split
  · simp only [Expr.erased]
  · rfl

theorem length_erasedArguments (es : List Expr) : (erasedArguments es).length = es.length := by
  induction es with
  | nil => rfl
  | cons e es ih => simp [erasedArguments, ih]

/-! ## Nothing to erase -/

/-- A note without a type has its span and nothing else. -/
theorem Note.unchecked_of_type {n : Note} (h : n.type = none) : Note.unchecked n.span = n := by
  obtain ⟨type, span⟩ := n
  cases h
  rfl

mutual

/-- Nothing is erased from an expression as it was read. -/
theorem Expr.AsRead.erased : ∀ {e : Expr}, e.AsRead → e.erased = e
  | .literal _ _, h => by
      rw [Expr.erased, Note.unchecked_of_type h]
  | .declare _ _, h => by
      rw [Expr.erased, Note.unchecked_of_type h.1]
  | .var _ _, h => by
      rw [Expr.erased, Note.unchecked_of_type h]
  | .assign _ _ _, ⟨hn, hleft, hright⟩ => by
      rw [Expr.erased, Note.unchecked_of_type hn, hleft.erased, hright.erased]
  | .call _ _ _, ⟨hn, hargs⟩ => by
      rw [Expr.erased, Note.unchecked_of_type hn, ArgumentsAsRead.erased hargs]
  | .binary _ _ _ _, ⟨hn, hleft, hright⟩ => by
      rw [Expr.erased, Note.unchecked_of_type hn, hleft.erased, hright.erased]
  | .unary _ _ _, ⟨hn, hoperand⟩ => by
      rw [Expr.erased, Note.unchecked_of_type hn, hoperand.erased]

/-- The same for the arguments of a call. -/
theorem ArgumentsAsRead.erased : ∀ {es : List Expr}, ArgumentsAsRead es → erasedArguments es = es
  | [], _ => rfl
  | _ :: _, ⟨he, hes⟩ => by
      rw [erasedArguments, he.erased, ArgumentsAsRead.erased hes]

end

mutual

/-- The same for a statement. -/
theorem Stmt.AsRead.erased : ∀ {s : Stmt}, s.AsRead → s.erased = s
  | .expression _ _, h => by
      rw [Stmt.erased, Expr.AsRead.erased h]
  | .ret _ none, _ => rfl
  | .ret _ (some _), h => by
      rw [Stmt.erased, Option.map_some, Expr.AsRead.erased h]
  | .ifThen _ _ _, ⟨hcondition, hbody⟩ => by
      rw [Stmt.erased, hcondition.erased, BodyAsRead.erased hbody]
  | .ifElse _ _ _ _, ⟨hcondition, hbody, hotherwise⟩ => by
      rw [Stmt.erased, hcondition.erased, BodyAsRead.erased hbody, hotherwise.erased]
  | .loop _ _ _, ⟨hcondition, hbody⟩ => by
      rw [Stmt.erased, hcondition.erased, BodyAsRead.erased hbody]
  | .block _ _, h => by
      rw [Stmt.erased, BodyAsRead.erased h]

/-- The same for a list of statements. -/
theorem BodyAsRead.erased : ∀ {ss : List Stmt}, BodyAsRead ss → erasedBody ss = ss
  | [], _ => rfl
  | _ :: _, ⟨hs, hss⟩ => by
      rw [erasedBody, hs.erased, BodyAsRead.erased hss]

end

/-- The same for a function. -/
theorem Function.AsRead.erased {f : Function} (h : f.AsRead) : f.erased = f := by
  obtain ⟨name, result, arguments, locals, builtin, span, body⟩ := f
  have hlocals : locals = [] := h.locals
  have hbody : erasedBody body = body := h.body.erased
  simp only [Function.erased, hlocals, hbody]

/-! ## What a check adds -/

variable {env : Env}

mutual

/-- A check of an expression adds only what erasing takes away. -/
theorem ChecksExpr.erased {before after : List Var} {e e' : Expr}
    {verdict : Except TypeFault Ty} :
    ChecksExpr env before e ⟨e', after, verdict⟩ → e'.erased = e.erased
  | .literal => rfl
  | .unstorable _ => rfl
  | .redeclared _ _ => rfl
  | .declare _ _ => rfl
  | .unknown _ => rfl
  | .var _ => rfl
  | .assignRight value => by simp [Expr.erased, value.erased]
  | .assignLeft value place => by simp [Expr.erased, value.erased, place.erased]
  | .assignValue value place _ => by simp [Expr.erased, value.erased, place.erased]
  | .assignDiffers value place _ _ => by simp [Expr.erased, value.erased, place.erased]
  | .assign value place _ _ => by simp [Expr.erased, Note.typed, value.erased, place.erased]
  | .refused _ => rfl
  | .callArguments _ arguments => by simp [Expr.erased, arguments.erased]
  | .call _ arguments => by simp [Expr.erased, Note.typed, arguments.erased]
  | .binaryFirst first => by simp [Expr.erased, first.erased]
  | .binarySecond first second => by simp [Expr.erased, first.erased, second.erased]
  | .binaryDiffers first second _ => by simp [Expr.erased, first.erased, second.erased]
  | .binaryUndefined first second _ _ => by simp [Expr.erased, first.erased, second.erased]
  | .binary first second _ _ => by
      simp [Expr.erased, Note.typed, first.erased, second.erased]
  | .unaryOperand value => by simp [Expr.erased, value.erased]
  | .unaryDiffers value _ => by simp [Expr.erased, value.erased]
  | .unary value _ => by simp [Expr.erased, Note.typed, value.erased]
  | .castOperand place => by simp [Expr.erased, place.erased]
  | .cast place => by simp [Expr.erased, place.erased]

/-- The same for the arguments of a call. -/
theorem ChecksArguments.erased {before after : List Var} {expected : List Ty}
    {es es' : List Expr} {verdict : Except TypeFault Unit} :
    ChecksArguments env before expected es ⟨es', after, verdict⟩ →
      erasedArguments es' = erasedArguments es
  | .nil => rfl
  | .first argument => by simp [erasedArguments, argument.erased]
  | .free argument others => by simp [erasedArguments, argument.erased, others.erased]
  | .differs argument _ => by simp [erasedArguments, argument.erased]
  | .cons argument _ others => by simp [erasedArguments, argument.erased, others.erased]

end

/-- The same for a condition. -/
theorem ChecksCondition.erased {before after : List Var} {e e' : Expr}
    {verdict : Except TypeFault Unit} :
    ChecksCondition env before e ⟨e', after, verdict⟩ → e'.erased = e.erased
  | .stops value => value.erased
  | .other value _ => value.erased
  | .pass value => value.erased

/-- The same for what is returned. -/
theorem ChecksReturn.erased {before after : List Var} {span : Span}
    {value value' : Option Expr} {verdict : Except TypeFault Unit} :
    ChecksReturn env before span value ⟨value', after, verdict⟩ →
      value'.map Expr.erased = value.map Expr.erased
  | .nothing _ => rfl
  | .missing _ => rfl
  | .unwanted _ => rfl
  | .stops _ value => by simp [value.erased]
  | .differs _ value _ => by simp [value.erased]
  | .value _ value _ => by simp [value.erased]

mutual

/-- A check of a statement adds only what erasing takes away. -/
theorem ChecksStmt.erased {before after : List Var} {s s' : Stmt}
    {verdict : Except TypeFault Unit} :
    ChecksStmt env before s ⟨s', after, verdict⟩ → s'.erased = s.erased
  | .expressionStops value => by simp [Stmt.erased, value.erased]
  | .expression value => by simp [Stmt.erased, value.erased]
  | .ret returned => by simp [Stmt.erased, returned.erased]
  | .ifThenStops test => by simp [Stmt.erased, test.erased]
  | .ifThen test branch => by simp [Stmt.erased, test.erased, branch.erased]
  | .ifElseStops test => by simp [Stmt.erased, test.erased]
  | .ifElseBranch test branch => by simp [Stmt.erased, test.erased, branch.erased]
  | .ifElse test branch other => by
      simp [Stmt.erased, test.erased, branch.erased, other.erased]
  | .loopStops test => by simp [Stmt.erased, test.erased]
  | .loop test rounds => by simp [Stmt.erased, test.erased, rounds.erased]
  | .block inner => by simp [Stmt.erased, inner.erased]

/-- The same for a list of statements. -/
theorem ChecksStmts.erased {before after : List Var} {ss ss' : List Stmt}
    {verdict : Except TypeFault Unit} :
    ChecksStmts env before ss ⟨ss', after, verdict⟩ → erasedBody ss' = erasedBody ss
  | .nil => rfl
  | .first first => by simp [erasedBody, first.erased]
  | .cons first others => by simp [erasedBody, first.erased, others.erased]

end

/-- **A check adds only what erasing takes away**, whether it passes or fails. -/
theorem Function.erased_check (signatures : Signatures) (f : Function) :
    (f.check signatures).1.erased = f.erased := by
  unfold Function.check
  split
  · rfl
  · split
    · rfl
    · simp only [Function.erased, (checksStmts _ [] f.body).erased]

end Slate
