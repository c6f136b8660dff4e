import Slate.Typing.Program

/-!
# The typing judgment

When a tree is well typed, said of the tree alone: the types are noted, and casts
stand where a place is used for the value in it.  The rules follow the constructors
of the trees and mention no check, no verdict and no error.

A judgment has the locals that are known before and those that are known after, so
it also says which variables have been declared, in the order of the text, when a
subtree is reached.  Locals are only ever added (`Grows`), and none is added whose
name is known: a name means one variable throughout a function.
-/

namespace Slate

variable {env : Env}

/-- What is known before is known after, and means the same. -/
def Grows (env : Env) (before after : List Var) : Prop :=
  ∀ name v, env.find? before name = some v → env.find? after name = some v

theorem Grows.refl (locals : List Var) : Grows env locals locals :=
  fun _ _ h => h

/-- What grows twice has grown. -/
theorem Grows.trans {a b c : List Var} (hab : Grows env a b) (hbc : Grows env b c) :
    Grows env a c :=
  fun name v h => hbc name v (hab name v h)

mutual

/-- The expression has a type. -/
inductive TypedExpr (env : Env) : List Var → Expr → Ty → List Var → Prop
  | literal {locals : List Var} {n : Note} {value : Literal} (noted : n.type = some value.type) :
      TypedExpr env locals (.literal n value) value.type locals
  | declare {locals : List Var} {n : Note} {v : Var}
      (storable : v.type.isStorable = true) (plain : v.type.isReference = false)
      (fresh : env.find? locals v.name = none) (noted : n.type = some v.type.reference) :
      TypedExpr env locals (.declare n v) v.type.reference (locals ++ [v])
  | var {locals : List Var} {n : Note} {name : String} {v : Var}
      (known : env.find? locals name = some v) (noted : n.type = some v.type.reference) :
      TypedExpr env locals (.var n name) v.type.reference locals
  | assign {before between after : List Var} {n : Note} {left right : Expr} {t : Ty}
      (value : TypedExpr env before right t.value between)
      (place : TypedExpr env between left t after) (reference : t.isReference = true)
      (noted : n.type = some t) :
      TypedExpr env before (.assign n left right) t after
  | syscall {before after : List Var} {n : Note} {args : List Expr} {types : List Ty}
      (few : args.length ≤ syscallMaxArguments)
      (arguments : TypedArguments env before args types after) (noted : n.type = some .int) :
      TypedExpr env before (.call n syscallName args) .int after
  | call {before after : List Var} {n : Note} {name : String} {args : List Expr}
      {signature : Signature} (other : name ≠ syscallName)
      (known : env.signatures.lookup name = some signature)
      (arguments : TypedArguments env before args signature.arguments after)
      (noted : n.type = some signature.result) :
      TypedExpr env before (.call n name args) signature.result after
  | binary {before between after : List Var} {n : Note} {op : BinaryOp} {left right : Expr}
      {operand result : Ty} (first : TypedExpr env before left operand between)
      (second : TypedExpr env between right operand after) (plain : operand.isReference = false)
      (defined : op.resultType operand = .ok result) (noted : n.type = some result) :
      TypedExpr env before (.binary n op left right) result after
  | unary {before after : List Var} {n : Note} {op : UnaryOp} {operand : Expr}
      (value : TypedExpr env before operand op.operandType after)
      (noted : n.type = some op.operandType) :
      TypedExpr env before (.unary n op operand) op.operandType after
  | cast {before after : List Var} {n : Note} {operand : Expr} {t : Ty}
      (place : TypedExpr env before operand t after) (reference : t.isReference = true)
      (noted : n.type = some t.value) :
      TypedExpr env before (.cast n operand) t.value after

/-- The arguments have types, and all of them are types of values. -/
inductive TypedArguments (env : Env) : List Var → List Expr → List Ty → List Var → Prop
  | nil {locals : List Var} : TypedArguments env locals [] [] locals
  | cons {before between after : List Var} {e : Expr} {es : List Expr} {t : Ty} {ts : List Ty}
      (argument : TypedExpr env before e t between) (plain : t.isReference = false)
      (others : TypedArguments env between es ts after) :
      TypedArguments env before (e :: es) (t :: ts) after

end

mutual

/-- The statement is well typed in a function with the result of the environment. -/
inductive TypedStmt (env : Env) : List Var → Stmt → List Var → Prop
  | expression {before after : List Var} {span : Span} {e : Expr} {t : Ty}
      (value : TypedExpr env before e t after) :
      TypedStmt env before (.expression span e) after
  | ret {locals : List Var} {span : Span} (nothing : env.result.isVoid = true) :
      TypedStmt env locals (.ret span none) locals
  | retValue {before after : List Var} {span : Span} {e : Expr}
      (something : env.result.isVoid = false) (value : TypedExpr env before e env.result after) :
      TypedStmt env before (.ret span (some e)) after
  | ifThen {before between after : List Var} {span : Span} {condition : Expr} {body : List Stmt}
      (test : TypedExpr env before condition .bool between)
      (branch : TypedStmts env between body after) :
      TypedStmt env before (.ifThen span condition body) after
  | ifElse {before between middle after : List Var} {span : Span} {condition : Expr}
      {body : List Stmt} {otherwise : Stmt} (test : TypedExpr env before condition .bool between)
      (branch : TypedStmts env between body middle)
      (other : TypedStmt env middle otherwise after) :
      TypedStmt env before (.ifElse span condition body otherwise) after
  | loop {before between after : List Var} {span : Span} {condition : Expr} {body : List Stmt}
      (test : TypedExpr env before condition .bool between)
      (rounds : TypedStmts env between body after) :
      TypedStmt env before (.loop span condition body) after
  | block {before after : List Var} {span : Span} {body : List Stmt}
      (inner : TypedStmts env before body after) :
      TypedStmt env before (.block span body) after

/-- The statements are well typed one after the other. -/
inductive TypedStmts (env : Env) : List Var → List Stmt → List Var → Prop
  | nil {locals : List Var} : TypedStmts env locals [] locals
  | cons {before between after : List Var} {s : Stmt} {ss : List Stmt}
      (first : TypedStmt env before s between) (others : TypedStmts env between ss after) :
      TypedStmts env before (s :: ss) after

end

/-- What is fixed while the body of a function is typed. -/
def Function.typingEnv (f : Function) (signatures : Signatures) : Env :=
  ⟨signatures, f.arguments, f.result⟩

/-- The function declares types that exist, and its body is well typed and declares
its locals. -/
structure TypedFunction (signatures : Signatures) (f : Function) : Prop where
  result : f.result.isVoid = true ∨ f.result.isStorable = true
  value : f.result.isReference = false
  storable : ∀ v ∈ f.arguments, v.type.isStorable = true ∧ v.type.isReference = false
  distinct : (f.arguments.map Var.name).Nodup
  body : f.builtin = false → TypedStmts (f.typingEnv signatures) [] f.body f.locals

/-- The functions of the program are well typed against each other, and their names
tell them apart. -/
structure TypedProgram (p : Program) : Prop where
  distinct : (p.functions.map Function.name).Nodup
  free : ∀ f ∈ p.functions, f.name ≠ syscallName
  each : ∀ f ∈ p.functions, TypedFunction p.signatures f

/-- There is one type for every argument. -/
theorem TypedArguments.length_eq {before after : List Var} {es : List Expr} {ts : List Ty}
    (h : TypedArguments env before es ts after) : es.length = ts.length := by
  induction es generalizing before ts with
  | nil =>
      cases h
      rfl
  | cons e es ih =>
      cases h with
      | cons _ _ others => simp [ih others]

/-! ## Types of values -/

/-- A type that variables can have is one of three. -/
theorem Ty.eq_of_isStorable {t : Ty} (hstorable : t.isStorable = true)
    (hplain : t.isReference = false) : t = .int ∨ t = .bool ∨ t = .string := by
  obtain ⟨name, isReference⟩ := t
  cases hplain
  simpa [Ty.isStorable, Ty.variableTypes, Ty.int, Ty.bool, Ty.string, Ty.named] using hstorable

/-- A type of values that is void is the one. -/
theorem Ty.eq_void {t : Ty} (hvoid : t.isVoid = true) (hplain : t.isReference = false) :
    t = .void := by
  obtain ⟨name, isReference⟩ := t
  cases hplain
  simpa [Ty.isVoid, Ty.void, Ty.named] using hvoid

/-! ## Operators -/

/-- The type of a binary operation that is defined. -/
theorem BinaryOp.resultType_eq_ok {op : BinaryOp} {operand result : Ty}
    (h : op.resultType operand = .ok result) :
    (op.isComparison = true ∧ operand ≠ .string ∧ operand.isVoid = false ∧ result = .bool) ∨
      (op.isComparison = false ∧ operand = .int ∧ result = .int) := by
  unfold BinaryOp.resultType at h
  by_cases hcomparison : op.isComparison = true
  · rw [if_pos hcomparison] at h
    by_cases hstring : operand = .string
    · simp [hstring] at h
    · rw [if_neg hstring] at h
      cases hvoid : operand.isVoid with
      | true => simp [hvoid] at h
      | false =>
          rw [hvoid] at h
          cases h
          exact .inl ⟨hcomparison, hstring, rfl, rfl⟩
  · rw [if_neg hcomparison] at h
    by_cases hint : operand = .int
    · subst hint
      cases h
      exact .inr ⟨Bool.eq_false_iff.2 hcomparison, rfl, rfl⟩
    · rw [if_pos hint] at h
      cases h

/-! ## Locals are only added -/

/-- A variable is found in the first list or else in the second. -/
theorem findVar?_append (vars more : List Var) (name : String) :
    findVar? (vars ++ more) name = (findVar? vars name).or (findVar? more name) := by
  simp [findVar?, List.find?_append]

/-- A variable whose name is not known can be added. -/
theorem grows_declare {locals : List Var} {v : Var} (fresh : env.find? locals v.name = none) :
    Grows env locals (locals ++ [v]) := by
  intro name w hw
  have hne : name ≠ v.name := by
    intro heq
    rw [heq, fresh] at hw
    cases hw
  have hlast : findVar? [v] name = none := by
    simp [findVar?, Ne.symm hne]
  unfold Env.find? at hw ⊢
  rw [findVar?_append, hlast, Option.or_none]
  exact hw

/-- The variable that was added is known. -/
theorem find?_declare {locals : List Var} {v : Var} (fresh : env.find? locals v.name = none) :
    env.find? (locals ++ [v]) v.name = some v := by
  unfold Env.find? at fresh ⊢
  obtain ⟨hlocal, harguments⟩ := Option.or_eq_none_iff.1 fresh
  rw [findVar?_append, hlocal, harguments]
  simp [findVar?]

mutual

/-- An expression lets the scope grow. -/
theorem TypedExpr.grows {before after : List Var} {e : Expr} {t : Ty} :
    TypedExpr env before e t after → Grows env before after
  | .literal _ => .refl _
  | .declare _ _ fresh _ => grows_declare fresh
  | .var _ _ => .refl _
  | .assign value place _ _ => value.grows.trans place.grows
  | .syscall _ arguments _ => arguments.grows
  | .call _ _ arguments _ => arguments.grows
  | .binary first second _ _ _ => first.grows.trans second.grows
  | .unary value _ => value.grows
  | .cast place _ _ => place.grows

/-- The same for the arguments of a call. -/
theorem TypedArguments.grows {before after : List Var} {es : List Expr} {ts : List Ty} :
    TypedArguments env before es ts after → Grows env before after
  | .nil => .refl _
  | .cons argument _ others => argument.grows.trans others.grows

end

mutual

/-- The same for a statement. -/
theorem TypedStmt.grows {before after : List Var} {s : Stmt} :
    TypedStmt env before s after → Grows env before after
  | .expression value => value.grows
  | .ret _ => .refl _
  | .retValue _ value => value.grows
  | .ifThen test branch => test.grows.trans branch.grows
  | .ifElse test branch other => (test.grows.trans branch.grows).trans other.grows
  | .loop test rounds => test.grows.trans rounds.grows
  | .block inner => inner.grows

/-- The same for a list of statements. -/
theorem TypedStmts.grows {before after : List Var} {ss : List Stmt} :
    TypedStmts env before ss after → Grows env before after
  | .nil => .refl _
  | .cons first others => first.grows.trans others.grows

end

end Slate
