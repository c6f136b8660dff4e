import Slate.Typing.Scope

/-!
# Typing of expressions

The check of an expression finds its type, notes it at the expression, and
puts casts around operands that are references but are used as values.

The order of the checks decides which of two faults is reported.  Operands
are checked in evaluation order before the operator is.  The operands of a
binary operator must agree before they decay; what the operator demands is
demanded of the decayed type.  An argument decays before it is compared with
what the function declares.
-/

namespace Slate

/-- The type of a binary operation on operands of a value type. -/
def BinaryOp.resultType (op : BinaryOp) (operand : Ty) : Except TypeCause Ty :=
  if op.isComparison then
    if operand = .string then .error .comparesStrings
    else if operand.isVoid then .error .comparesVoid
    else .ok .bool
  else if operand ≠ .int then .error (.binaryOperands op operand)
  else .ok operand

/-- The type that a unary operator demands of its operand and has itself. -/
def UnaryOp.operandType : UnaryOp → Ty
  | negate => .int
  | complement => .int
  | not => .bool

mutual

/-- Checks an expression, with the locals met so far. -/
def checkExpr (env : Env) (locals : List Var) : Expr → Checked Expr Ty
  | .literal n value => .pass (.literal (n.typed value.type) value) locals value.type
  | .declare n declared =>
    if !declared.type.isStorable then
      .fail (.declare n declared) locals n.span (.unknownType declared)
    else if (env.find? locals declared.name).isSome then
      .fail (.declare n declared) locals n.span .redeclared
    else
      .pass (.declare (n.typed declared.type.reference) declared) (locals ++ [declared])
        declared.type.reference
  | .var n name =>
    match env.find? locals name with
    | none => .fail (.var n name) locals n.span .unknownVariable
    | some v => .pass (.var (n.typed v.type.reference) name) locals v.type.reference
  | .assign n left right =>
    let r := checkExpr env locals right
    match r.verdict with
    | .error f => ⟨.assign n left r.tree, r.locals, .error f⟩
    | .ok rightType =>
      let l := checkExpr env r.locals left
      match l.verdict with
      | .error f => ⟨.assign n l.tree r.tree, l.locals, .error f⟩
      | .ok leftType =>
        if !leftType.isReference then
          .fail (.assign n l.tree r.tree) l.locals left.span .notReference
        else if !leftType.agrees rightType then
          .fail (.assign n l.tree r.tree) l.locals n.span .sidesDiffer
        else
          .pass (.assign (n.typed leftType) l.tree (r.tree.decayed rightType)) l.locals leftType
  | .call n name args =>
    if name = syscallName then
      if args.length > syscallMaxArguments then
        .fail (.call n name args) locals n.span .syscallArguments
      else
        let as := checkArguments env locals [] args
        match as.verdict with
        | .error f => ⟨.call n name as.tree, as.locals, .error f⟩
        | .ok () => .pass (.call (n.typed .int) name as.tree) as.locals .int
    else
      match env.signatures.lookup name with
      | none => .fail (.call n name args) locals n.span .unknownFunction
      | some signature =>
        if signature.arguments.length ≠ args.length then
          .fail (.call n name args) locals n.span
            (.argumentCount name signature.arguments.length args.length)
        else
          let as := checkArguments env locals signature.arguments args
          match as.verdict with
          | .error f => ⟨.call n name as.tree, as.locals, .error f⟩
          | .ok () =>
            .pass (.call (n.typed signature.result) name as.tree) as.locals signature.result
  | .binary n op left right =>
    let l := checkExpr env locals left
    match l.verdict with
    | .error f => ⟨.binary n op l.tree right, l.locals, .error f⟩
    | .ok leftType =>
      let r := checkExpr env l.locals right
      match r.verdict with
      | .error f => ⟨.binary n op l.tree r.tree, r.locals, .error f⟩
      | .ok rightType =>
        if !leftType.agrees rightType then
          .fail (.binary n op l.tree r.tree) r.locals n.span (.operandsDiffer leftType rightType)
        else
          let leftValue := l.tree.decayed leftType
          let rightValue := r.tree.decayed rightType
          match op.resultType leftType.value with
          | .error cause => .fail (.binary n op leftValue rightValue) r.locals n.span cause
          | .ok t => .pass (.binary (n.typed t) op leftValue rightValue) r.locals t
  | .unary n op operand =>
    let o := checkExpr env locals operand
    match o.verdict with
    | .error f => ⟨.unary n op o.tree, o.locals, .error f⟩
    | .ok t =>
      let value := o.tree.decayed t
      if t.value ≠ op.operandType then
        .fail (.unary n op value) o.locals n.span (.unaryOperand op op.operandType t.value)
      else .pass (.unary (n.typed op.operandType) op value) o.locals op.operandType
  | .cast n operand =>
    let o := checkExpr env locals operand
    match o.verdict with
    | .error f => ⟨.cast n o.tree, o.locals, .error f⟩
    | .ok t => .pass (.cast (n.typed t.value) o.tree) o.locals t.value

/-- Checks arguments and lets them decay.  Arguments beyond the expected types
can have any type. -/
def checkArguments (env : Env) (locals : List Var) (expected : List Ty) :
    List Expr → Checked (List Expr) Unit
  | [] => .pass [] locals ()
  | arg :: args =>
    let a := checkExpr env locals arg
    match a.verdict with
    | .error f => ⟨a.tree :: args, a.locals, .error f⟩
    | .ok t =>
      let value := a.tree.decayed t
      match expected with
      | [] =>
        let as := checkArguments env a.locals [] args
        ⟨value :: as.tree, as.locals, as.verdict⟩
      | want :: wants =>
        if !t.agrees want then
          .fail (value :: args) a.locals arg.span (.mismatch want t.value)
        else
          let as := checkArguments env a.locals wants args
          ⟨value :: as.tree, as.locals, as.verdict⟩

end

end Slate
