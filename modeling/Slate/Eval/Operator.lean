import Slate.Eval.Outcome

/-!
# Operators on values

Arithmetic wraps around at 32 bits.  Comparisons are defined between data of
one kind, also between strings, which the checker does not let through.
References have to be read before an operator is applied: no operator looks
behind them.
-/

namespace Slate

/-- Whether two data of one kind are equal. -/
def Data.equal? : Data → Data → Option Bool
  | .int a, .int b => some (a = b)
  | .bool a, .bool b => some (a = b)
  | .string a, .string b => some (a = b)
  | _, _ => none

/-- Integer arithmetic, modulo 2 to the 32. -/
def BinaryOp.arithmetic (op : BinaryOp) (a b : Int32) : Int32 :=
  match op with
  | .plus => a + b
  | .minus => a - b
  | _ => a * b

/-- A binary operator applied to values. -/
def BinaryOp.apply (op : BinaryOp) (left right : Value) : Except EvalError Value :=
  if op.isComparison then
    match left.data.equal? right.data with
    | some same => .ok (.bool (if op = .equal then same else !same))
    | none => .error (.incomparable left right)
  else
    match left.data, right.data with
    | .int a, .int b => .ok (.int (op.arithmetic a b))
    | _, _ => .error (.unsupportedOperand op.symbol left)

/-- A unary operator applied to a value. -/
def UnaryOp.apply (op : UnaryOp) (operand : Value) : Except EvalError Value :=
  match op, operand.data with
  | .negate, .int i => .ok (.int (-i))
  | .complement, .int i => .ok (.int (~~~i))
  | .not, .bool b => .ok (.bool (!b))
  | _, _ => .error (.unsupportedOperand op.symbol operand)

/-- The truth value that a condition must be. -/
def Value.condition (v : Value) : Except EvalError Bool :=
  match v.data with
  | .bool b => .ok b
  | _ => .error (.invalidCast v.type .bool)

end Slate
