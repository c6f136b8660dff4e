import Slate.Proofs.Typing.Accepted
import Slate.Proofs.Typing.Names

/-!
# The rules of typing

The type system as it is documented, said of trees as they are read.  The rules know no
casts and note no types; where a place is used for the value in it, they speak of the type
of the value (`Ty.value`).  They do not say which of several faults is reported, and look
nothing up: a variable is one of those that are known, and a name that is declared is not
the name of any of them.

As in `Judgment`, a rule has the locals before and after.  They are threaded through
operands in the order of evaluation and through statements in the order of the text,
and there are no inner scopes.

* `HasType.known` — the rules assign no types but those of the language;
* `HasType.distinct` — no name is declared twice.
-/

namespace Slate

/-- The types that variables can have. -/
def Ty.valueTypes : List Ty := [.int, .bool, .string]

/-- The type of a result: that of a variable, or nothing. -/
def Ty.IsResult (t : Ty) : Prop := t = .void ∨ t ∈ Ty.valueTypes

mutual

/-- The rules assign the type to the expression. -/
inductive HasType (env : Env) : List Var → Expr → Ty → List Var → Prop
  | literal {locals : List Var} {n : Note} {value : Literal} :
      HasType env locals (.literal n value) value.type locals
  | declare {locals : List Var} {n : Note} {v : Var} (type : v.type ∈ Ty.valueTypes)
      (fresh : v.name ∉ (env.arguments ++ locals).map Var.name) :
      HasType env locals (.declare n v) v.type.reference (locals ++ [v])
  | var {locals : List Var} {n : Note} {v : Var} (known : v ∈ env.arguments ++ locals) :
      HasType env locals (.var n v.name) v.type.reference locals
  | assign {before between after : List Var} {n : Note} {left right : Expr} {t u : Ty}
      (value : HasType env before right u between) (place : HasType env between left t after)
      (reference : t.isReference = true) (same : u.value = t.value) :
      HasType env before (.assign n left right) t after
  | syscall {before after : List Var} {n : Note} {args : List Expr} {types : List Ty}
      (few : args.length ≤ 6) (arguments : HaveTypes env before args types after) :
      HasType env before (.call n syscallName args) .int after
  | call {before after : List Var} {n : Note} {name : String} {args : List Expr} {types : List Ty}
      {signature : Signature} (other : name ≠ syscallName)
      (known : env.signatures.lookup name = some signature)
      (arguments : HaveTypes env before args types after)
      (same : types.map Ty.value = signature.arguments) :
      HasType env before (.call n name args) signature.result after
  | arithmetic {before between after : List Var} {n : Note} {op : BinaryOp} {left right : Expr}
      {t u : Ty} (first : HasType env before left t between)
      (second : HasType env between right u after) (kind : op ∈ [.plus, .minus, .times])
      (integer : t.value = .int) (same : u.value = t.value) :
      HasType env before (.binary n op left right) .int after
  | comparison {before between after : List Var} {n : Note} {op : BinaryOp} {left right : Expr}
      {t u : Ty} (first : HasType env before left t between)
      (second : HasType env between right u after) (kind : op ∈ [.equal, .notEqual])
      (comparable : t.value = .int ∨ t.value = .bool) (same : u.value = t.value) :
      HasType env before (.binary n op left right) .bool after
  | negation {before after : List Var} {n : Note} {op : UnaryOp} {operand : Expr} {t : Ty}
      (value : HasType env before operand t after) (kind : op ∈ [.negate, .complement])
      (integer : t.value = .int) :
      HasType env before (.unary n op operand) .int after
  | not {before after : List Var} {n : Note} {operand : Expr} {t : Ty}
      (value : HasType env before operand t after) (truth : t.value = .bool) :
      HasType env before (.unary n .not operand) .bool after

/-- The rules assign the types to the arguments. -/
inductive HaveTypes (env : Env) : List Var → List Expr → List Ty → List Var → Prop
  | nil {locals : List Var} : HaveTypes env locals [] [] locals
  | cons {before between after : List Var} {e : Expr} {es : List Expr} {t : Ty} {ts : List Ty}
      (first : HasType env before e t between) (others : HaveTypes env between es ts after) :
      HaveTypes env before (e :: es) (t :: ts) after

end

mutual

/-- The statement keeps the rules in a function with the result of the environment. -/
inductive WellTyped (env : Env) : List Var → Stmt → List Var → Prop
  | expression {before after : List Var} {span : Span} {e : Expr} {t : Ty}
      (value : HasType env before e t after) :
      WellTyped env before (.expression span e) after
  | ret {locals : List Var} {span : Span} (nothing : env.result = .void) :
      WellTyped env locals (.ret span none) locals
  | retValue {before after : List Var} {span : Span} {e : Expr} {t : Ty}
      (something : env.result ≠ .void) (value : HasType env before e t after)
      (same : t.value = env.result) :
      WellTyped env before (.ret span (some e)) after
  | ifThen {before between after : List Var} {span : Span} {condition : Expr} {body : List Stmt}
      (test : HasType env before condition .bool between)
      (branch : AllWellTyped env between body after) :
      WellTyped env before (.ifThen span condition body) after
  | ifElse {before between middle after : List Var} {span : Span} {condition : Expr}
      {body : List Stmt} {otherwise : Stmt} (test : HasType env before condition .bool between)
      (branch : AllWellTyped env between body middle)
      (other : WellTyped env middle otherwise after) :
      WellTyped env before (.ifElse span condition body otherwise) after
  | loop {before between after : List Var} {span : Span} {condition : Expr} {body : List Stmt}
      (test : HasType env before condition .bool between)
      (rounds : AllWellTyped env between body after) :
      WellTyped env before (.loop span condition body) after
  | block {before after : List Var} {span : Span} {body : List Stmt}
      (inner : AllWellTyped env before body after) :
      WellTyped env before (.block span body) after

/-- The statements keep the rules one after the other. -/
inductive AllWellTyped (env : Env) : List Var → List Stmt → List Var → Prop
  | nil {locals : List Var} : AllWellTyped env locals [] locals
  | cons {before between after : List Var} {s : Stmt} {ss : List Stmt}
      (first : WellTyped env before s between) (others : AllWellTyped env between ss after) :
      AllWellTyped env before (s :: ss) after

end

/-- The function keeps the rules: it declares types of the language, `main` has a result
that can be a status, and the body is well typed. -/
structure Function.WellTyped (signatures : Signatures) (f : Function) : Prop where
  result : f.result.IsResult
  main : f.name = "main" → f.result = .int ∨ f.result = .bool
  arguments : ∀ v ∈ f.arguments, v.type ∈ Ty.valueTypes
  body : f.builtin = false →
    ∃ locals, AllWellTyped (f.typingEnv signatures) [] f.body locals

/-- The program keeps the rules: all its functions do. -/
def Program.WellTyped (p : Program) : Prop :=
  ∀ f ∈ p.functions, f.WellTyped p.signatures

variable {env : Env}

/-! ## Types of the language -/

/-- The types of values can be stored. -/
theorem Ty.isStorable_of_mem {t : Ty} (h : t ∈ Ty.valueTypes) : t.isStorable = true := by
  simp only [valueTypes, List.mem_cons, List.not_mem_nil, or_false] at h
  rcases h with rfl | rfl | rfl <;> decide

/-- They are all that can be stored and are no references. -/
theorem Ty.mem_valueTypes {t : Ty} (hstorable : t.isStorable = true)
    (hplain : t.isReference = false) : t ∈ Ty.valueTypes := by
  rcases Ty.eq_of_isStorable hstorable hplain with rfl | rfl | rfl <;> decide

/-- The types of values are their own types of values. -/
theorem Ty.value_of_mem {t : Ty} (h : t ∈ Ty.valueTypes) : t.value = t := by
  simp only [valueTypes, List.mem_cons, List.not_mem_nil, or_false] at h
  rcases h with rfl | rfl | rfl <;> rfl

/-- So is the type of a result. -/
theorem Ty.IsResult.value {t : Ty} (h : t.IsResult) : t.value = t := by
  rcases h with rfl | h
  · rfl
  · exact Ty.value_of_mem h

/-- A literal has one of these types. -/
theorem Literal.type_mem (value : Literal) : value.type ∈ Ty.valueTypes := by
  cases value <;> simp [type, Ty.valueTypes]

/-- The variables that are known, and the results of functions, have types of the
language. -/
structure Env.Known (env : Env) (locals : List Var) : Prop where
  declared : ∀ v ∈ env.arguments ++ locals, v.type ∈ Ty.valueTypes
  results : ∀ name signature, env.signatures.lookup name = some signature →
    signature.result.IsResult

/-- A variable of a known type can be declared besides known ones. -/
theorem Env.Known.declare {locals : List Var} (h : env.Known locals) {v : Var}
    (hv : v.type ∈ Ty.valueTypes) : env.Known (locals ++ [v]) := by
  refine ⟨?_, h.results⟩
  rw [← List.append_assoc]
  exact List.forall_mem_append.2 ⟨h.declared, List.forall_mem_singleton.2 hv⟩

mutual

/-- Expressions have types of the language, and declare variables of such types. -/
theorem HasType.known {before after : List Var} {e : Expr} {t : Ty} :
    HasType env before e t after → env.Known before → env.Known after ∧ t.value.IsResult
  | @HasType.literal _ _ _ value => fun h => by
      refine ⟨h, .inr ?_⟩
      rw [Ty.value_of_mem value.type_mem]
      exact value.type_mem
  | .declare type _ => fun h => by
      refine ⟨h.declare type, .inr ?_⟩
      rw [Ty.value_reference, Ty.value_of_mem type]
      exact type
  | .var known => fun h => by
      refine ⟨h, .inr ?_⟩
      rw [Ty.value_reference, Ty.value_of_mem (h.declared _ known)]
      exact h.declared _ known
  | .assign value place _ _ => fun h => place.known (value.known h).1
  | .syscall _ arguments => fun h => ⟨arguments.known h, .inr (by decide)⟩
  | .call _ known arguments _ => fun h => by
      refine ⟨arguments.known h, ?_⟩
      rw [(h.results _ _ known).value]
      exact h.results _ _ known
  | .arithmetic first second _ _ _ => fun h =>
      ⟨(second.known (first.known h).1).1, .inr (by decide)⟩
  | .comparison first second _ _ _ => fun h =>
      ⟨(second.known (first.known h).1).1, .inr (by decide)⟩
  | .negation value _ _ => fun h => ⟨(value.known h).1, .inr (by decide)⟩
  | .not value _ => fun h => ⟨(value.known h).1, .inr (by decide)⟩

/-- The same for the arguments of a call. -/
theorem HaveTypes.known {before after : List Var} {es : List Expr} {ts : List Ty} :
    HaveTypes env before es ts after → env.Known before → env.Known after
  | .nil => id
  | .cons first others => fun h => others.known (first.known h).1

end

mutual

/-- The same for a statement. -/
theorem WellTyped.known {before after : List Var} {s : Stmt} :
    WellTyped env before s after → env.Known before → env.Known after
  | .expression value => fun h => (value.known h).1
  | .ret _ => id
  | .retValue _ value _ => fun h => (value.known h).1
  | .ifThen test branch => fun h => branch.known (test.known h).1
  | .ifElse test branch other => fun h => other.known (branch.known (test.known h).1)
  | .loop test rounds => fun h => rounds.known (test.known h).1
  | .block inner => inner.known

/-- The same for a list of statements. -/
theorem AllWellTyped.known {before after : List Var} {ss : List Stmt} :
    AllWellTyped env before ss after → env.Known before → env.Known after
  | .nil => id
  | .cons first others => fun h => others.known (first.known h)

end

/-! ## Distinct names -/

/-- Under distinct names, a variable is found by its name. -/
theorem Env.Distinct.find? {locals : List Var} (h : env.Distinct locals) {v : Var}
    (hv : v ∈ env.arguments ++ locals) : env.find? locals v.name = some v := by
  unfold Env.Distinct at h
  rw [List.map_append, List.nodup_append] at h
  obtain ⟨harguments, hlocals, hapart⟩ := h
  unfold Env.find?
  rcases List.mem_append.1 hv with hargument | hlocal
  · have hnone : findVar? locals v.name = none := by
      refine List.find?_eq_none.2 fun w hw => ?_
      have hne := hapart v.name (List.mem_map.2 ⟨v, hargument, rfl⟩) w.name
        (List.mem_map.2 ⟨w, hw, rfl⟩)
      simpa using hne.symm
    rw [hnone, Option.none_or]
    exact find?_eq_some_of_mem harguments hargument
  · have hsome : findVar? locals v.name = some v := find?_eq_some_of_mem hlocals hlocal
    rw [hsome, Option.some_or]

/-- A name that no variable has is not found. -/
theorem Env.find?_eq_none {locals : List Var} {name : String} :
    env.find? locals name = none ↔ name ∉ (env.arguments ++ locals).map Var.name := by
  refine ⟨Env.not_mem_of_find?, fun h => ?_⟩
  cases hfind : env.find? locals name with
  | none => rfl
  | some v => exact (h (Env.mem_of_find? hfind)).elim

mutual

/-- The rules do not let a name be declared twice. -/
theorem HasType.distinct {before after : List Var} {e : Expr} {t : Ty} :
    HasType env before e t after → env.Distinct before → env.Distinct after
  | .literal => id
  | .declare _ fresh => fun h => h.declare (Env.find?_eq_none.2 fresh)
  | .var _ => id
  | .assign value place _ _ => fun h => place.distinct (value.distinct h)
  | .syscall _ arguments => arguments.distinct
  | .call _ _ arguments _ => arguments.distinct
  | .arithmetic first second _ _ _ => fun h => second.distinct (first.distinct h)
  | .comparison first second _ _ _ => fun h => second.distinct (first.distinct h)
  | .negation value _ _ => value.distinct
  | .not value _ => value.distinct

/-- The same for the arguments of a call. -/
theorem HaveTypes.distinct {before after : List Var} {es : List Expr} {ts : List Ty} :
    HaveTypes env before es ts after → env.Distinct before → env.Distinct after
  | .nil => id
  | .cons first others => fun h => others.distinct (first.distinct h)

end

mutual

/-- The same for a statement. -/
theorem WellTyped.distinct {before after : List Var} {s : Stmt} :
    WellTyped env before s after → env.Distinct before → env.Distinct after
  | .expression value => value.distinct
  | .ret _ => id
  | .retValue _ value _ => value.distinct
  | .ifThen test branch => fun h => branch.distinct (test.distinct h)
  | .ifElse test branch other => fun h => other.distinct (branch.distinct (test.distinct h))
  | .loop test rounds => fun h => rounds.distinct (test.distinct h)
  | .block inner => inner.distinct

/-- The same for a list of statements. -/
theorem AllWellTyped.distinct {before after : List Var} {ss : List Stmt} :
    AllWellTyped env before ss after → env.Distinct before → env.Distinct after
  | .nil => id
  | .cons first others => fun h => others.distinct (first.distinct h)

end

end Slate
