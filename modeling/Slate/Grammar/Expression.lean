import Slate.Grammar.Reading

/-!
# Expressions of the grammar

Expressions are read by binding power.  An infix operator has a power to its
left and one to its right; reading with a least power goes on as long as the
next operator binds at least that strongly to its left, and reads the right
operand with the operator's right power.  The assignment binds more strongly
to its left than to its right and so groups to the right; all other operators
group to the left.  A prefix operator reads its operand with a power above all
infix operators.

An expression in parentheses is the expression inside, with its span; there is
no tree node for the parentheses.
-/

namespace Slate

/-- The operators that stand between two expressions. -/
inductive InfixOp where
  | assign
  | binary (op : BinaryOp)
deriving DecidableEq

namespace InfixOp

/-- The operator that a token is, if it is one. -/
def ofToken? (t : Token) : Option InfixOp :=
  match t.kind with
  | .assign => some assign
  | .operator =>
    if t.text = "==" then some (binary .equal)
    else if t.text = "!=" then some (binary .notEqual)
    else if t.text = "+" then some (binary .plus)
    else if t.text = "-" then some (binary .minus)
    else if t.text = "*" then some (binary .times)
    else none
  | _ => none

/-- How strongly the operator binds what stands before it. -/
def leftPower : InfixOp → Nat
  | assign => 2
  | binary .equal => 3
  | binary .notEqual => 3
  | binary .plus => 5
  | binary .minus => 5
  | binary .times => 7

/-- How strongly the operator binds what stands behind it. -/
def rightPower : InfixOp → Nat
  | assign => 1
  | binary .equal => 4
  | binary .notEqual => 4
  | binary .plus => 6
  | binary .minus => 6
  | binary .times => 8

/-- The tree of an operator and its operands spans both of them. -/
def tree (op : InfixOp) (left right : Expr) : Expr :=
  let note := Note.unchecked (left.span.through right.span)
  match op with
  | assign => .assign note left right
  | binary op => .binary note op left right

end InfixOp

/-- How strongly a prefix operator binds. -/
def prefixPower : Nat := 9

/-- The prefix operator that is written so. -/
def UnaryOp.ofSymbol? (symbol : String) : Option UnaryOp :=
  if symbol = "-" then some .negate
  else if symbol = "!" then some .not
  else if symbol = "~" then some .complement
  else none

/-- The number that decimal digits denote. -/
def decimalValue (digits : List Char) : Nat :=
  digits.foldl (fun n c => 10 * n + (c.toNat - '0'.toNat)) 0

/-- The largest integer that can be written. -/
def maxInteger : Nat := 2147483647

/-- The expression of one token, if the token is an expression by itself.  The text of a number
token is made of decimal digits, so that it always has a value. -/
def readAtom (t : Token) : Except SyntaxFault Expr :=
  match t.kind with
  | .number =>
    let n := decimalValue t.text.toList
    if n ≤ maxInteger then .ok (.literal (.unchecked t.span) (.int (Int32.ofNat n)))
    else .error (.found t.span .integerTooLarge)
  | .string => .ok (.literal (.unchecked t.span) (.string t.text))
  | .keyword =>
    if t.text = "true" then .ok (.literal (.unchecked t.span) (.bool true))
    else if t.text = "false" then .ok (.literal (.unchecked t.span) (.bool false))
    else .error (.unexpected .expression [t])
  | .identifier => .ok (.var (.unchecked t.span) t.text)
  | _ => .error (.unexpected .expression [t])

mutual

/-- Reads an expression whose infix operators all bind at least as strongly as
`least`. -/
def readExpression (least : Nat) (ts : List Token) : Reading Expr ts := do
  let (left, ⟨rest, _⟩) ← readOperand ts
  let (e, ⟨rest, _⟩) ← readInfixes least left rest
  pure (e, ⟨rest, by omega⟩)
termination_by 3 * ts.length + 1

/-- Reads the infix operators that go on from a left operand. -/
def readInfixes (least : Nat) (left : Expr) (ts : List Token) :
    Except SyntaxFault (Expr × { rest : List Token // rest.length ≤ ts.length }) :=
  match ts with
  | [] => pure (left, ⟨[], Nat.le_refl _⟩)
  | t :: rest =>
    match InfixOp.ofToken? t with
    | none => pure (left, ⟨t :: rest, Nat.le_refl _⟩)
    | some op =>
      if op.leftPower < least then pure (left, ⟨t :: rest, Nat.le_refl _⟩)
      else do
        let (right, ⟨afterRight, shorter⟩) ← readExpression op.rightPower rest
        let (e, ⟨afterAll, noLonger⟩) ← readInfixes least (op.tree left right) afterRight
        pure (e, ⟨afterAll, Rest.le_cons_trans noLonger shorter⟩)
termination_by 3 * ts.length

/-- Reads an expression that no infix operator splits. -/
def readOperand (ts : List Token) : Reading Expr ts :=
  match ts with
  | [] => .error (.unexpected .expression [])
  | t :: rest =>
    match t.kind with
    | .operator =>
      match UnaryOp.ofSymbol? t.text with
      | none => .error (.unexpected .expression (t :: rest))
      | some op => do
        let (operand, afterOperand) ← readExpression prefixPower rest
        pure (.unary (.unchecked (t.span.through operand.span)) op operand,
          afterOperand.within (by simp))
    | .leftParen => do
      let (e, ⟨afterInner, _⟩) ← readExpression 0 rest
      let (_, afterClose) ← readKind .rightParen .closeParen afterInner
      pure (e, afterClose.within (by simp; omega))
    | .identifier =>
      match rest with
      | paren :: args =>
        if paren.kind = .leftParen then do
          let ((args, close), afterArgs) ← readArguments args
          pure (.call (.unchecked (t.span.through close)) t.text args,
            afterArgs.within (by simp; omega))
        else do
          let e ← readAtom t
          pure (e, ⟨paren :: args, by simp⟩)
      | [] => do
        let e ← readAtom t
        pure (e, ⟨[], by simp⟩)
    | _ => do
      let e ← readAtom t
      pure (e, ⟨rest, by simp⟩)
termination_by 3 * ts.length

/-- Reads the arguments of a call and the parenthesis that closes them. -/
def readArguments (ts : List Token) : Reading (List Expr × Span) ts :=
  match ts with
  | t :: rest =>
    if t.kind = .rightParen then pure (([], t.span), ⟨rest, by simp⟩)
    else readMoreArguments (t :: rest)
  | [] => readMoreArguments []
termination_by 3 * ts.length + 3

/-- Reads at least one argument and the parenthesis that closes them. -/
def readMoreArguments (ts : List Token) : Reading (List Expr × Span) ts := do
  let (e, afterArg) ← readExpression 0 ts
  match afterArg with
  | ⟨t :: rest, shorter⟩ =>
    have : rest.length < ts.length := Nat.lt_of_succ_lt shorter
    if t.kind = .comma then do
      let ((es, close), afterMore) ← readMoreArguments rest
      pure ((e :: es, close), afterMore.within (by omega))
    else do
      let (close, afterClose) ← readKind .rightParen .commaOrCloseParen (t :: rest)
      pure (([e], close.span), afterClose.within (by omega))
  | ⟨[], _⟩ => .error (.unexpected .commaOrCloseParen [])
termination_by 3 * ts.length + 2

end

end Slate
