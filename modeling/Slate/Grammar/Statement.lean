import Slate.Grammar.Expression

/-!
# Statements of the grammar

A statement starts with its keyword, or is an expression.  A declaration with
a value is read as an assignment to the declaration.  The branch behind `else`
becomes a block statement, also when it is a further `if`, so every branch has
a span from its `else` on.

The span of a statement runs from its first token through its last: the
semicolon, or the brace that closes its last block.
-/

namespace Slate

/-- Reads the value of a `return`, if one stands before the semicolon. -/
def readReturnValue (ts : List Token) :
    Except SyntaxFault (Option Expr × { rest : List Token // rest.length ≤ ts.length }) :=
  if startsWith .semicolon ts then pure (none, ⟨ts, Nat.le_refl _⟩)
  else do
    let (e, ⟨rest, shorter⟩) ← readExpression 0 ts
    pure (some e, ⟨rest, Nat.le_of_lt shorter⟩)

/-- Reads a declaration, with the value assigned to it if there is one. -/
def readDeclaration (ts : List Token) : Reading Expr ts := do
  let ((declared, span), afterVar) ← readVar ts
  let declaration := Expr.declare (.unchecked span) declared
  match afterVar with
  | ⟨t :: rest, shorter⟩ =>
    if t.kind = .assign then do
      let (value, afterValue) ← readExpression 0 rest
      pure (InfixOp.assign.tree declaration value,
        afterValue.within (Nat.le_of_lt (Nat.lt_of_succ_lt shorter)))
    else pure (declaration, ⟨t :: rest, shorter⟩)
  | ⟨[], shorter⟩ => pure (declaration, ⟨[], shorter⟩)

/-- Reads a condition between parentheses. -/
def readCondition (ts : List Token) : Reading Expr ts := do
  let (_, ⟨afterOpen, opened⟩) ← readKind .leftParen .openParen ts
  let (condition, ⟨afterCondition, shorter⟩) ← readExpression 0 afterOpen
  let (_, rest) ← readKind .rightParen .closeParen afterCondition
  pure (condition, rest.within (Rest.le_trans shorter opened))

/-- Reads the semicolon that ends a statement, and spans the statement from
its start. -/
def readEnd (start : Span) (ts : List Token) : Reading Span ts := do
  let (semicolon, rest) ← readKind .semicolon .semicolon ts
  pure (start.through semicolon.span, rest)

mutual

/-- Reads one statement. -/
def readStatement (ts : List Token) : Reading Stmt ts :=
  match ts with
  | [] => .error (.unexpected .statement [])
  | t :: rest =>
    if t.isKeyword "return" then do
      let (value, ⟨afterValue, _⟩) ← readReturnValue rest
      let (span, left) ← readEnd t.span afterValue
      pure (.ret span value, left.within (by simp; omega))
    else if t.isKeyword "if" then do
      let (s, left) ← readIf t.span rest
      pure (s, left.within (by simp))
    else if t.isKeyword "while" then do
      let (condition, ⟨afterCondition, _⟩) ← readCondition rest
      let ((body, close), left) ← readBlock afterCondition
      pure (.loop (t.span.through close) condition body, left.within (by simp; omega))
    else if t.isKeyword "var" then do
      let (e, ⟨afterDeclaration, _⟩) ← readDeclaration rest
      let (span, left) ← readEnd t.span afterDeclaration
      pure (.expression span e, left.within (by simp; omega))
    else do
      let (e, ⟨afterExpression, _⟩) ← readExpression 0 (t :: rest)
      let (span, left) ← readEnd t.span afterExpression
      pure (.expression span e, left.within (by omega))
termination_by 2 * ts.length

/-- Reads an `if` statement whose keyword, at `start`, has been read. -/
def readIf (start : Span) (ts : List Token) : Reading Stmt ts := do
  let (condition, ⟨afterCondition, _⟩) ← readCondition ts
  let ((body, close), afterBody) ← readBlock afterCondition
  let ifThen := Stmt.ifThen (start.through close) condition body
  match afterBody with
  | ⟨t :: rest, shorter⟩ =>
    have : rest.length < afterCondition.length := Nat.lt_of_succ_lt shorter
    if t.isKeyword "else" then do
      let (otherwise, left) ← readElse t.span rest
      pure (.ifElse (start.through otherwise.span) condition body otherwise,
        left.within (by omega))
    else pure (ifThen, ⟨t :: rest, by omega⟩)
  | ⟨[], _⟩ => pure (ifThen, ⟨[], by omega⟩)
termination_by 2 * ts.length

/-- Reads the branch of an `else` whose keyword, at `start`, has been read. -/
def readElse (start : Span) (ts : List Token) : Reading Stmt ts :=
  match ts with
  | [] => .error (.unexpected .openBrace [])
  | t :: rest =>
    if t.isKeyword "if" then do
      let (nested, left) ← readIf t.span rest
      pure (.block (start.through nested.span) [nested], left.within (by simp))
    else do
      let ((body, close), left) ← readBlock (t :: rest)
      pure (.block (start.through close) body, left)
termination_by 2 * ts.length + 1

/-- Reads statements between braces; the span is that of the closing brace. -/
def readBlock (ts : List Token) : Reading (List Stmt × Span) ts := do
  let (_, ⟨afterOpen, _⟩) ← readKind .leftBrace .openBrace ts
  let (block, left) ← readStatements afterOpen
  pure (block, left.within (by omega))
termination_by 2 * ts.length

/-- Reads statements through the brace that closes them. -/
def readStatements (ts : List Token) : Reading (List Stmt × Span) ts :=
  match ts with
  | [] => .error (.unexpected .closeBrace [])
  | t :: rest =>
    if t.kind = .rightBrace then pure (([], t.span), ⟨rest, by simp⟩)
    else do
      let (s, ⟨afterStatement, _⟩) ← readStatement (t :: rest)
      let ((ss, close), left) ← readStatements afterStatement
      pure ((s :: ss, close), left.within (by omega))
termination_by 2 * ts.length + 1
decreasing_by all_goals omega

end

end Slate
