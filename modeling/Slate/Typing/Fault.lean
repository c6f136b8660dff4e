import Slate.Diagnostic
import Slate.Tree.Basic

/-!
# Faults of typing

Why a program tree is not well typed.  Checking stops at the first fault; it
says where the fault is, and `TypeFault.message` words it.  A type is named
with its reference mark where the fault is about a place, and without it where
the fault is about the value that the place decays to.
-/

namespace Slate

/-- The ways in which a program tree fails to be well typed. -/
inductive TypeCause where
  | unknownResult (type : Ty)
  | mainResult
  | unknownType (declared : Var)
  | valueFromVoid
  | valueMissing
  | mismatch (expected got : Ty)
  | notCondition
  | operandsDiffer (left right : Ty)
  | comparesStrings
  | comparesVoid
  | binaryOperands (op : BinaryOp) (got : Ty)
  | unaryOperand (op : UnaryOp) (expected got : Ty)
  | syscallArguments
  | unknownFunction
  | argumentCount (name : String) (required given : Nat)
  | unknownVariable
  | redeclared
  | notReference
  | sidesDiffer
deriving DecidableEq

/-- The wording of each cause. -/
def TypeCause.message : TypeCause → String
  | unknownResult type => "Unknown return type " ++ type.text
  | mainResult => "main must return i32 or bool"
  | unknownType v => "Unknown type " ++ v.type.text ++ " for variable " ++ v.name
  | valueFromVoid => "void function cannot return a value"
  | valueMissing => "Expected expression"
  | mismatch expected got =>
    "Type mismatch, expected " ++ expected.text ++ " got " ++ got.text
  | notCondition => "Expected bool expression"
  | operandsDiffer left right => "Types didnt match " ++ left.text ++ " " ++ right.text
  | comparesStrings => "Cannot compare string values"
  | comparesVoid => "Cannot compare void values"
  | binaryOperands op got =>
    "Operator " ++ op.symbol ++ " expects i32 operands, got " ++ got.text
  | unaryOperand op expected got =>
    "Operator " ++ op.symbol ++ " expects a " ++ expected.text ++ " operand, got " ++ got.text
  | syscallArguments => "syscall takes at most 6 arguments"
  | unknownFunction => "Unknown function"
  | argumentCount name required given =>
    "Incorrect number of arguments, " ++ name ++ " requires " ++ toString required ++ ", " ++
      toString given ++ " given"
  | unknownVariable => "Unknown variable"
  | redeclared => "Variable already declared"
  | notReference => "Left hand side is not a reference"
  | sidesDiffer => "Both sides are not the same type"

/-- A cause and the span it is found at. -/
structure TypeFault where
  cause : TypeCause
  span : Span
deriving DecidableEq

/-- The fault as a diagnostic about a file. -/
def TypeFault.diagnostic (f : TypeFault) (file : Option String) : Diagnostic :=
  ⟨f.cause.message, some f.span, file⟩

end Slate
