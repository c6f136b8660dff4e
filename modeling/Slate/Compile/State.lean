import Slate.Assembly.Basic
import Slate.Tree.Text

/-!
# What the compiler keeps track of

While a function is compiled, every variable known so far has an offset from
`ebp`: arguments lie above it, in the order of their pushes, and locals below
it, one word each in the order of their declarations.  Labels are numbered
within the function, string literals within the whole program.

A program that the checker has accepted can only fail to compile through a
builtin that has no routine; the other causes speak of trees that it has not
seen.
-/

namespace Slate

/-- Why a program tree cannot be compiled. -/
inductive CompileError where
  | unknownBuiltin (name : String)
  | unknownVariable (name : String)
  | untyped (written : String)
  | unhandledCast (source target : Ty)
  | tooManySyscallArguments (given : Nat)
  | output (message : String)
deriving DecidableEq

/-- The wording of each error.  One of the output is worded by the output. -/
def CompileError.message : CompileError → String
  | unknownBuiltin name => "unknown builtin " ++ name
  | unknownVariable name => "unknown variable " ++ name
  | untyped written => "expression without a type: " ++ written
  | unhandledCast source target =>
    "unhandled cast between " ++ target.text ++ " and " ++ source.text
  | tooManySyscallArguments given =>
    "syscall takes at most 6 arguments, " ++ toString given ++ " given"
  | output message => message

/-- What the compiler keeps track of within a function. -/
structure CompileState where
  offsets : List (String × Int)
  slots : Nat
  labels : Nat
  literals : List String
deriving DecidableEq

/-- The offset of an argument when there are `count` and it has the given
index: the last one lies just above the saved `ebp` and the return address. -/
def argumentOffset (count index : Nat) : Int :=
  4 * ((count : Int) - index + 1)

/-- The offset of a local by its slot. -/
def localOffset (slot : Nat) : Int := -4 * ((slot : Int) + 1)

/-- Offsets of variables by name, the latest first. -/
def argumentOffsets (count index : Nat) : List Var → List (String × Int)
  | [] => []
  | v :: vs => argumentOffsets count (index + 1) vs ++ [(v.name, argumentOffset count index)]

namespace CompileState

/-- The state at the start of a function, after the literals of those before. -/
def start (f : Function) (literals : List String) : CompileState :=
  ⟨argumentOffsets f.arguments.length 0 f.arguments, 0, 0, literals⟩

/-- The state after a variable is declared: it lies in the next slot. -/
def declare (s : CompileState) (name : String) : CompileState :=
  { s with offsets := (name, localOffset s.slots) :: s.offsets, slots := s.slots + 1 }

/-- The state after a literal is met: it has the next number. -/
def intern (s : CompileState) (literal : String) : CompileState :=
  { s with literals := s.literals ++ [literal] }

/-- The state after labels are given out. -/
def label (s : CompileState) (count : Nat) : CompileState :=
  { s with labels := s.labels + count }

end CompileState

end Slate
