import Slate.Source.Position

/-!
# Program trees

The tree of a program: functions, statements and expressions.  One family of
types serves the parser, the checker and both back ends.  Every expression
carries a `Note` with its span and, once the checker has seen it, its type.

An expression of *reference* type stands for a place that can be assigned to;
`Expr.cast` turns it into the value stored there.  Only the checker puts
casts into a tree.

The order in which operands are evaluated is the order of `Expr.operands`:
an assignment evaluates its right side first.
-/

namespace Slate

/-- A type is a name, and may be a reference to a place of that type. -/
structure Ty where
  name : String
  isReference : Bool
deriving DecidableEq, Inhabited

namespace Ty

/-- The type of values with the given name. -/
def named (name : String) : Ty := ⟨name, false⟩

/-- 32-bit integers. -/
def int : Ty := named "i32"

/-- Truth values. -/
def bool : Ty := named "bool"

/-- Character strings. -/
def string : Ty := named "string"

/-- The result of a function that returns nothing. -/
def void : Ty := named "void"

/-- Whether two types agree up to being references. -/
def agrees (a b : Ty) : Bool := a.name = b.name

/-- The type of places that hold values of the type. -/
def reference (t : Ty) : Ty := ⟨t.name, true⟩

/-- The type of the values held in a place of the type. -/
def value (t : Ty) : Ty := ⟨t.name, false⟩

/-- Whether the type is `void` or a reference to it. -/
def isVoid (t : Ty) : Bool := t.name = "void"

/-- The names of the types that variables can have. -/
def variableTypes : List String := ["i32", "bool", "string"]

/-- Whether a variable can have the type. -/
def isStorable (t : Ty) : Bool := t.name ∈ variableTypes

/-- A reference is written with an ampersand behind its name. -/
def text (t : Ty) : String :=
  if t.isReference then t.name ++ "&" else t.name

@[simp] theorem value_value (t : Ty) : t.value.value = t.value := rfl

@[simp] theorem value_reference (t : Ty) : t.reference.value = t.value := rfl

end Ty

/-- A name with its type: an argument or a local variable. -/
structure Var where
  name : String
  type : Ty
deriving DecidableEq, Inhabited

/-- The variable of a name, the first if there are several. -/
def findVar? (vars : List Var) (name : String) : Option Var :=
  vars.find? (·.name = name)

/-- The operators between two operands. -/
inductive BinaryOp where
  | plus
  | minus
  | times
  | equal
  | notEqual
deriving DecidableEq, Inhabited

namespace BinaryOp

/-- How the operator is written. -/
def symbol : BinaryOp → String
  | plus => "+"
  | minus => "-"
  | times => "*"
  | equal => "=="
  | notEqual => "!="

/-- Whether the operator compares its operands. -/
def isComparison : BinaryOp → Bool
  | equal => true
  | notEqual => true
  | _ => false

end BinaryOp

/-- The operators before one operand. -/
inductive UnaryOp where
  | negate
  | not
  | complement
deriving DecidableEq, Inhabited

namespace UnaryOp

/-- How the operator is written. -/
def symbol : UnaryOp → String
  | negate => "-"
  | not => "!"
  | complement => "~"

end UnaryOp

/-- A value written in the source. -/
inductive Literal where
  | bool (value : Bool)
  | int (value : Int32)
  | string (value : String)
deriving DecidableEq, Inhabited

/-- What is noted at an expression: its type, once the checker has found it,
and the span it was read from. -/
structure Note where
  type : Option Ty
  span : Span
deriving DecidableEq, Inhabited

/-- The note of an expression that was read at a span. -/
def Note.unchecked (span : Span) : Note := ⟨none, span⟩

/-- Expressions. -/
inductive Expr where
  | literal (note : Note) (value : Literal)
  | declare (note : Note) (declared : Var)
  | var (note : Note) (name : String)
  | assign (note : Note) (left right : Expr)
  | call (note : Note) (name : String) (args : List Expr)
  | binary (note : Note) (op : BinaryOp) (left right : Expr)
  | unary (note : Note) (op : UnaryOp) (operand : Expr)
  | cast (note : Note) (operand : Expr)
deriving BEq, Inhabited

namespace Expr

/-- What is noted at the expression. -/
def note : Expr → Note
  | literal n _ => n
  | declare n _ => n
  | var n _ => n
  | assign n _ _ => n
  | call n _ _ => n
  | binary n _ _ _ => n
  | unary n _ _ => n
  | cast n _ => n

/-- The type that the checker has noted. -/
def type? (e : Expr) : Option Ty := e.note.type

/-- The span that the expression was read from. -/
def span (e : Expr) : Span := e.note.span

/-- The operands, in the order they are evaluated. -/
def operands : Expr → List Expr
  | literal _ _ => []
  | declare _ _ => []
  | var _ _ => []
  | assign _ left right => [right, left]
  | call _ _ args => args
  | binary _ _ left right => [left, right]
  | unary _ _ operand => [operand]
  | cast _ operand => [operand]

end Expr

/-- Statements.  A `block` is found as the branch of an `ifElse`. -/
inductive Stmt where
  | expression (span : Span) (e : Expr)
  | ret (span : Span) (value : Option Expr)
  | ifThen (span : Span) (condition : Expr) (body : List Stmt)
  | ifElse (span : Span) (condition : Expr) (body : List Stmt) (otherwise : Stmt)
  | loop (span : Span) (condition : Expr) (body : List Stmt)
  | block (span : Span) (body : List Stmt)
deriving BEq, Inhabited

/-- The span that the statement was read from. -/
def Stmt.span : Stmt → Span
  | expression s _ => s
  | ret s _ => s
  | ifThen s _ _ => s
  | ifElse s _ _ _ => s
  | loop s _ _ => s
  | block s _ => s

/-- A function.  `locals` are the variables that its body declares, as the
checker has found them.  A builtin has no body of its own. -/
structure Function where
  name : String
  result : Ty
  arguments : List Var
  locals : List Var
  builtin : Bool
  span : Span
  body : List Stmt
deriving BEq, Inhabited

/-- The variable of a name in a function: a local, else an argument. -/
def Function.findVariable? (f : Function) (name : String) : Option Var :=
  (findVar? f.locals name).or (findVar? f.arguments name)

/-- A program: functions in the order of their definitions. -/
structure Program where
  functions : List Function
  file : Option String
deriving BEq, Inhabited

/-- The function of a name, the first if there are several. -/
def Program.function? (p : Program) (name : String) : Option Function :=
  p.functions.find? (·.name = name)

/-- The name of the system call.  It is called like a function, and no
function can have it. -/
def syscallName : String := "syscall"

/-- The number of registers that a system call takes arguments from. -/
def syscallMaxArguments : Nat := 6

end Slate
