import Slate.Typing.Fault

/-!
# What the checker knows

Checking an expression needs the signatures of all functions of the program
and the arguments of the function that the expression stands in.  Both are
fixed during the check of a function (`Env`).  The local variables grow as
declarations are met; they are threaded from one expression to the next, in
evaluation order, and there are no inner scopes: what a branch or a loop body
declares is known after it.

A check answers with a tree in every case (`Checked`).  On success it is the
elaborated tree.  On failure it is the tree as far as it was elaborated, and
the locals are those met so far.
-/

namespace Slate

/-- The types of a function's arguments and result. -/
structure Signature where
  arguments : List Ty
  result : Ty
deriving DecidableEq, Inhabited

/-- The signature of a function. -/
def Function.signature (f : Function) : Signature := ⟨f.arguments.map (·.type), f.result⟩

/-- Signatures by name, the latest definition first. -/
abbrev Signatures := List (String × Signature)

/-- The signatures of a program. -/
def Program.signatures (p : Program) : Signatures :=
  (p.functions.map fun f => (f.name, f.signature)).reverse

/-- What is fixed during the check of a function. -/
structure Env where
  signatures : Signatures
  arguments : List Var
  result : Ty

/-- The variable of a name: a local, else an argument. -/
def Env.find? (env : Env) (locals : List Var) (name : String) : Option Var :=
  (findVar? locals name).or (findVar? env.arguments name)

/-- What a check leaves: a tree, the locals met, and a verdict. -/
structure Checked (τ ρ : Type) where
  tree : τ
  locals : List Var
  verdict : Except TypeFault ρ

namespace Checked

/-- A check that fails, with the tree as far as it came. -/
def fail {τ ρ : Type} (tree : τ) (locals : List Var) (span : Span) (cause : TypeCause) :
    Checked τ ρ :=
  ⟨tree, locals, .error ⟨cause, span⟩⟩

/-- A check that succeeds. -/
def pass {τ ρ : Type} (tree : τ) (locals : List Var) (answer : ρ) : Checked τ ρ :=
  ⟨tree, locals, .ok answer⟩

end Checked

/-- The note with a type. -/
def Note.typed (n : Note) (t : Ty) : Note := ⟨some t, n.span⟩

/-- An expression of the given type as a value: a reference is read through a
cast. -/
def Expr.decayed (e : Expr) (t : Ty) : Expr :=
  if t.isReference then .cast ⟨some t.value, e.span⟩ e else e

/-- The type of a literal. -/
def Literal.type : Literal → Ty
  | bool _ => .bool
  | int _ => .int
  | string _ => .string

end Slate
