import Slate.Eval.Frame
import Slate.Eval.Operator

/-!
# Evaluation of expressions

An expression evaluates to a value in a frame, which declarations and
assignments change.  How calls are run is a parameter (`Calls`), so the
evaluator recurs on the tree alone and looks at one function at a time.

Every expression must carry a type, which is asked for before anything else.
References are read where values are passed on: on the right side of an
assignment and in arguments.  Everywhere else the casts that the checker put
into the tree read them.
-/

namespace Slate

/-- How calls are run: the function's name and the values of its arguments. -/
abbrev Calls (σ : Type) := String → List Value → Run σ Value

/-- The type noted at an expression, without which it has no value. -/
def Expr.noted (e : Expr) : Except EvalError Ty :=
  match e.type? with
  | some t => .ok t
  | none => .error (.untyped e.text)

/-- What a cast to a type makes of a value: a reference to a place of that
type is read. -/
def Frame.cast (frame : Frame) (target : Ty) (value : Value) : Except EvalError Value :=
  match value.data with
  | .ref slot =>
    if !target.isReference && value.type.agrees target then
      (frame.load slot).map fun held => ⟨target, held.data⟩
    else .error (.invalidCast value.type target)
  | _ => .error (.invalidCast value.type target)

/-- Assigns to what the left side evaluated to. -/
def Frame.assign (frame : Frame) (left right : Value) : Except EvalError Frame :=
  match left.data with
  | .ref slot => frame.store slot right.data
  | _ => .error .notReference

mutual

/-- Evaluates an expression in a frame. -/
def evalExpr {σ : Type} (calls : Calls σ) : Expr → Frame → Run σ (Value × Frame)
  | .literal n literal, frame => do
    let t ← Run.ofExcept (Expr.literal n literal).noted
    pure (⟨t, literal.data⟩, frame)
  | .declare n declared, frame => do
    let t ← Run.ofExcept (Expr.declare n declared).noted
    let (slot, frame) := frame.declare declared.name (.zero declared.type)
    pure (⟨t, .ref slot⟩, frame)
  | .var n name, frame => do
    let t ← Run.ofExcept (Expr.var n name).noted
    let slot ← Run.ofExcept (frame.lookup name)
    pure (⟨t, .ref slot⟩, frame)
  | .assign n left right, frame => do
    let _ ← Run.ofExcept (Expr.assign n left right).noted
    let (r, frame) ← evalExpr calls right frame
    let r ← Run.ofExcept (frame.valueOf r)
    let (l, frame) ← evalExpr calls left frame
    let frame ← Run.ofExcept (frame.assign l r)
    pure (l, frame)
  | .call n name args, frame => do
    let _ ← Run.ofExcept (Expr.call n name args).noted
    let (values, frame) ← evalArguments calls args frame
    let result ← calls name values
    pure (result, frame)
  | .binary n op left right, frame => do
    let _ ← Run.ofExcept (Expr.binary n op left right).noted
    let (l, frame) ← evalExpr calls left frame
    let (r, frame) ← evalExpr calls right frame
    let result ← Run.ofExcept (op.apply l r)
    pure (result, frame)
  | .unary n op operand, frame => do
    let _ ← Run.ofExcept (Expr.unary n op operand).noted
    let (value, frame) ← evalExpr calls operand frame
    let result ← Run.ofExcept (op.apply value)
    pure (result, frame)
  | .cast n operand, frame => do
    let t ← Run.ofExcept (Expr.cast n operand).noted
    let (value, frame) ← evalExpr calls operand frame
    let result ← Run.ofExcept (frame.cast t value)
    pure (result, frame)

/-- Evaluates arguments in order; references among them are read at once. -/
def evalArguments {σ : Type} (calls : Calls σ) :
    List Expr → Frame → Run σ (List Value × Frame)
  | [], frame => pure ([], frame)
  | arg :: args, frame => do
    let (value, frame) ← evalExpr calls arg frame
    let value ← Run.ofExcept (frame.valueOf value)
    let (values, frame) ← evalArguments calls args frame
    pure (value :: values, frame)

end

end Slate
