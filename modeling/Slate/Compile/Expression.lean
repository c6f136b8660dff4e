import Slate.Compile.State

/-!
# Code of expressions

The code of an expression leaves its result in `eax` and the stack as it was.
A truth value is 0 or 1 in the whole register.  An expression of reference
type leaves an address, and a cast loads what lies there.  Operands wait on
the stack for the operands after them.

No code of an expression has a label or a jump: it runs from its first
instruction through its last.
-/

namespace Slate

/-- The type noted at an expression, without which there is no code for it. -/
def Expr.needType (e : Expr) : Except CompileError Ty :=
  match e.type? with
  | some t => .ok t
  | none => .error (.untyped e.text)

/-- An address in the frame of a function. -/
def frameAddress (offset : Int) : Address := ⟨.ebp, offset⟩

/-- The registers that a system call takes its arguments from. -/
def syscallRegisters : List Register := [.eax, .ebx, .ecx, .edx, .esi, .edi]

/-- The code of a binary operator: the left operand is in `ecx`, the right one
in `eax`. -/
def BinaryOp.code : BinaryOp → List Instr
  | plus => [.add .eax .ecx]
  | minus => [.sub .ecx .eax, .move .eax .ecx]
  | times => [.multiply .eax .ecx]
  | equal => [.compare .ecx .eax, .set .equal .al, .widen .eax .al]
  | notEqual => [.compare .ecx .eax, .set .notEqual .al, .widen .eax .al]

/-- The code of a unary operator on `eax`. -/
def UnaryOp.code : UnaryOp → List Instr
  | negate => [.negate .eax]
  | complement => [.complement .eax]
  | not => [.compareConst .eax 0, .set .equal .al, .widen .eax .al]

/-- The code of a call whose `count` arguments have been pushed in order. -/
def callCode (name : String) (count : Nat) : List Instr :=
  if name = syscallName then
    ((syscallRegisters.take count).reverse.map .pop) ++ [.systemCall]
  else if count = 0 then [.call (.routine name)]
  else [.call (.routine name), .addConst .esp (4 * count)]

mutual

/-- The code of an expression. -/
def compileExpr (s : CompileState) : Expr → Except CompileError (List Instr × CompileState)
  | .literal n value => do
    let _ ← (Expr.literal n value).needType
    match value with
    | .int i => pure ([.moveConst .eax i], s)
    | .bool b => pure ([.moveConst .eax (if b then 1 else 0)], s)
    | .string literal =>
      pure ([.moveLabel .eax (.data s.literals.length)], s.intern literal)
  | .declare n declared => do
    let _ ← (Expr.declare n declared).needType
    let slot := frameAddress (localOffset s.slots)
    pure ([.storeConst slot 0, .loadAddress .eax slot], s.declare declared.name)
  | .var n name => do
    let _ ← (Expr.var n name).needType
    match s.offsets.lookup name with
    | none => .error (.unknownVariable name)
    | some offset => pure ([.loadAddress .eax (frameAddress offset)], s)
  | .assign n left right => do
    let _ ← (Expr.assign n left right).needType
    let (rightCode, s) ← compileExpr s right
    let (leftCode, s) ← compileExpr s left
    pure (rightCode ++ [.push .eax] ++ leftCode ++ [.pop .ecx, .store (.of .eax) .ecx], s)
  | .call n name args => do
    let _ ← (Expr.call n name args).needType
    if name = syscallName ∧ args.length > syscallMaxArguments then
      .error (.tooManySyscallArguments args.length)
    else
      let (pushes, s) ← compileArguments s args
      pure (pushes ++ callCode name args.length, s)
  | .binary n op left right => do
    let _ ← (Expr.binary n op left right).needType
    let (leftCode, s) ← compileExpr s left
    let (rightCode, s) ← compileExpr s right
    pure (leftCode ++ [.push .eax] ++ rightCode ++ [.pop .ecx] ++ op.code, s)
  | .unary n op operand => do
    let _ ← (Expr.unary n op operand).needType
    let (code, s) ← compileExpr s operand
    pure (code ++ op.code, s)
  | .cast n operand => do
    let target ← (Expr.cast n operand).needType
    let source ← operand.needType
    if target.isReference || !source.isReference then
      .error (.unhandledCast source target)
    else
      let (code, s) ← compileExpr s operand
      pure (code ++ [.load .eax (.of .eax)], s)

/-- The code that pushes arguments in order. -/
def compileArguments (s : CompileState) :
    List Expr → Except CompileError (List Instr × CompileState)
  | [] => pure ([], s)
  | arg :: args => do
    let (code, s) ← compileExpr s arg
    let (rest, s) ← compileArguments s args
    pure (code ++ [.push .eax] ++ rest, s)

end

end Slate
