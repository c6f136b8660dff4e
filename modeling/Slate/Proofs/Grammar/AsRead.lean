import Slate.Proofs.Grammar.Derivation
import Slate.Proofs.Tree.Spanless

/-!
# Trees as they are read

The checker notes types, puts casts around places whose values are used, and
records the variables of a function.  A tree *as read* has none of this yet.  The
types that are written in it are types of values, because the grammar has no way to
write a reference.

Derivations only stand for such trees, and spans do not matter to the property.
So it is a fact about everything that is read.
-/

namespace Slate

mutual

/-- The expression has no noted types and no casts. -/
def Expr.AsRead : Expr → Prop
  | .literal n _ => n.type = none
  | .declare n declared => n.type = none ∧ declared.type.isReference = false
  | .var n _ => n.type = none
  | .assign n left right => n.type = none ∧ left.AsRead ∧ right.AsRead
  | .call n _ args => n.type = none ∧ ArgumentsAsRead args
  | .binary n _ left right => n.type = none ∧ left.AsRead ∧ right.AsRead
  | .unary n _ operand => n.type = none ∧ operand.AsRead
  | .cast _ _ => False

/-- None of the arguments has noted types or casts. -/
def ArgumentsAsRead : List Expr → Prop
  | [] => True
  | e :: es => e.AsRead ∧ ArgumentsAsRead es

end

mutual

/-- No expression of the statement has noted types or casts. -/
def Stmt.AsRead : Stmt → Prop
  | .expression _ e => e.AsRead
  | .ret _ none => True
  | .ret _ (some e) => e.AsRead
  | .ifThen _ condition body => condition.AsRead ∧ BodyAsRead body
  | .ifElse _ condition body otherwise => condition.AsRead ∧ BodyAsRead body ∧ otherwise.AsRead
  | .loop _ condition body => condition.AsRead ∧ BodyAsRead body
  | .block _ body => BodyAsRead body

/-- No expression of the statements has noted types or casts. -/
def BodyAsRead : List Stmt → Prop
  | [] => True
  | s :: ss => s.AsRead ∧ BodyAsRead ss

end

/-- The function has no recorded variables, and its trees are as they are read. -/
structure Function.AsRead (f : Function) : Prop where
  locals : f.locals = []
  result : f.result.isReference = false
  arguments : ∀ v ∈ f.arguments, v.type.isReference = false
  body : BodyAsRead f.body

/-! ## Spans do not matter -/

mutual

/-- Whether an expression is as it was read does not depend on spans. -/
theorem Expr.asRead_spanless : ∀ e : Expr, e.spanless.AsRead ↔ e.AsRead
  | .literal _ _ => .rfl
  | .declare _ _ => .rfl
  | .var _ _ => .rfl
  | .assign _ left right => and_congr_right' (and_congr left.asRead_spanless right.asRead_spanless)
  | .call _ _ args => and_congr_right' (argumentsAsRead_spanless args)
  | .binary _ _ left right =>
      and_congr_right' (and_congr left.asRead_spanless right.asRead_spanless)
  | .unary _ _ operand => and_congr_right' operand.asRead_spanless
  | .cast _ _ => .rfl

/-- The same for the arguments of a call. -/
theorem argumentsAsRead_spanless :
    ∀ es : List Expr, ArgumentsAsRead (spanlessArguments es) ↔ ArgumentsAsRead es
  | [] => .rfl
  | e :: es => and_congr e.asRead_spanless (argumentsAsRead_spanless es)

end

mutual

/-- The same for a statement. -/
theorem Stmt.asRead_spanless : ∀ s : Stmt, s.spanless.AsRead ↔ s.AsRead
  | .expression _ e => e.asRead_spanless
  | .ret _ none => .rfl
  | .ret _ (some e) => e.asRead_spanless
  | .ifThen _ condition body => and_congr condition.asRead_spanless (bodyAsRead_spanless body)
  | .ifElse _ condition body otherwise =>
      and_congr condition.asRead_spanless
        (and_congr (bodyAsRead_spanless body) otherwise.asRead_spanless)
  | .loop _ condition body => and_congr condition.asRead_spanless (bodyAsRead_spanless body)
  | .block _ body => bodyAsRead_spanless body

/-- The same for a list of statements. -/
theorem bodyAsRead_spanless : ∀ ss : List Stmt, BodyAsRead (spanlessBody ss) ↔ BodyAsRead ss
  | [] => .rfl
  | s :: ss => and_congr s.asRead_spanless (bodyAsRead_spanless ss)

end

/-! ## Derivations stand for trees as read -/

mutual

/-- A derived expression has no types and no casts yet. -/
theorem DerivesExpr.asRead {level : Level} {ts : List Token} {e : Expr} :
    DerivesExpr level ts e → e.AsRead
  | .assign left _ right => ⟨rfl, left.asRead, right.asRead⟩
  | .binary left _ right => ⟨rfl, left.asRead, right.asRead⟩
  | .unary _ operand => ⟨rfl, operand.asRead⟩
  | .next _ phrase => phrase.asRead
  | .number _ => rfl
  | .string _ => rfl
  | .truth _ => rfl
  | .falsity _ => rfl
  | .var _ => rfl
  | .callNone _ _ _ => ⟨rfl, trivial⟩
  | .call _ _ arguments _ => ⟨rfl, arguments.asRead⟩
  | .parens _ inner _ => inner.asRead

/-- The same for written arguments. -/
theorem DerivesArguments.asRead {ts : List Token} {es : List Expr} :
    DerivesArguments ts es → ArgumentsAsRead es
  | .one argument => ⟨argument.asRead, trivial⟩
  | .more argument _ others => ⟨argument.asRead, others.asRead⟩

end

/-- A written type is never one of references. -/
theorem DerivesType.isReference_eq_false {ts : List Token} {type : Ty} (h : DerivesType ts type) :
    type.isReference = false := by
  cases h with
  | name => rfl

/-- So no declared variable is a reference. -/
theorem DerivesVar.isReference_eq_false {ts : List Token} {v : Var} (h : DerivesVar ts v) :
    v.type.isReference = false := by
  cases h with
  | typed _ _ typing => exact typing.isReference_eq_false

/-- The same for a condition. -/
theorem DerivesCondition.asRead {ts : List Token} {e : Expr} (h : DerivesCondition ts e) :
    e.AsRead := by
  cases h with
  | parens _ inner _ => exact inner.asRead

mutual

/-- A derived statement has no types and no casts yet. -/
theorem DerivesStmt.asRead {ts : List Token} {s : Stmt} : DerivesStmt ts s → s.AsRead
  | .ret _ _ => trivial
  | .retValue _ value _ => value.asRead
  | .branch branches => branches.asRead
  | .loop _ condition block => ⟨condition.asRead, block.asRead⟩
  | .declare _ declared _ => ⟨rfl, declared.isReference_eq_false⟩
  | .declareValue _ declared _ value _ =>
      ⟨rfl, ⟨rfl, declared.isReference_eq_false⟩, value.asRead⟩
  | .expression value _ => value.asRead

/-- The same for a conditional. -/
theorem DerivesIf.asRead {ts : List Token} {s : Stmt} : DerivesIf ts s → s.AsRead
  | .ifThen _ condition block => ⟨condition.asRead, block.asRead⟩
  | .ifElse _ condition block _ branch => ⟨condition.asRead, block.asRead, branch.asRead⟩

/-- The same for what stands behind `else`. -/
theorem DerivesElse.asRead {ts : List Token} {s : Stmt} : DerivesElse ts s → s.AsRead
  | .block block => block.asRead
  | .nested branches => ⟨branches.asRead, trivial⟩

/-- The same for a block. -/
theorem DerivesBlock.asRead {ts : List Token} {body : List Stmt} :
    DerivesBlock ts body → BodyAsRead body
  | .braces _ statements _ => statements.asRead

/-- The same for a list of statements. -/
theorem DerivesStmts.asRead {ts : List Token} {ss : List Stmt} :
    DerivesStmts ts ss → BodyAsRead ss
  | .nil => trivial
  | .cons first others => ⟨first.asRead, others.asRead⟩

end

/-- Nor is any parameter a reference. -/
theorem DerivesParameters.isReference_eq_false {ts : List Token} {vs : List Var}
    (h : DerivesParameters ts vs) : ∀ v ∈ vs, v.type.isReference = false := by
  induction h with
  | one declared => simpa using declared.isReference_eq_false
  | more declared _ _ ih => exact List.forall_mem_cons.2 ⟨declared.isReference_eq_false, ih⟩

/-- A function that is defined is as read. -/
theorem DerivesFunction.asRead {ts : List Token} {d : Definition} (h : DerivesFunction ts d) :
    d.function.AsRead := by
  cases h with
  | parts _ type _ _ parameters _ ending =>
      refine ⟨rfl, type.isReference_eq_false, ?_, ?_⟩
      · cases parameters with
        | none => exact fun v hv => nomatch hv
        | some parameters => exact parameters.isReference_eq_false
      · cases ending with
        | block block => exact block.asRead
        | semicolon _ => trivial

/-- Every function of a derived program is as read. -/
theorem DerivesProgram.asRead {ts : List Token} {ds : List Definition} (h : DerivesProgram ts ds) :
    ∀ d ∈ ds, d.function.AsRead := by
  induction h with
  | nil => exact List.forall_mem_nil _
  | cons first _ ih => exact List.forall_mem_cons.2 ⟨first.asRead, ih⟩

/-- A function is as read when it is so up to spans. -/
theorem Function.asRead_of_spanless {f : Function} (h : f.spanless.AsRead) : f.AsRead :=
  ⟨h.locals, h.result, h.arguments, (bodyAsRead_spanless f.body).1 h.body⟩

end Slate
