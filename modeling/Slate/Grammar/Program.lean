import Slate.Grammar.Statement

/-!
# Programs of the grammar

A program is a sequence of function definitions.  A definition is a result
type, a name, arguments in parentheses and a body; a builtin is announced by
its keyword and has a semicolon in place of the body.  Names of functions are
distinct from each other and from the name of the system call, names of
arguments are distinct within one function.

The span of a function runs from its first token through the parenthesis that
closes its arguments.  A fault that comes from running out of tokens is
placed just past the last token.
-/

namespace Slate

/-- Reads at least one argument declaration; `earlier` are the names already
taken. -/
def readParameters (earlier : List String) (ts : List Token) : Reading (List Var) ts := do
  let ((v, span), afterVar) ← readVar ts
  if v.name ∈ earlier then .error (.found span .argumentRepeated)
  else
    match afterVar with
    | ⟨t :: rest, shorter⟩ =>
      have : rest.length < ts.length := Nat.lt_of_succ_lt shorter
      if t.kind = .comma then do
        let (vs, left) ← readParameters (v.name :: earlier) rest
        pure (v :: vs, left.within (by omega))
      else pure ([v], ⟨t :: rest, shorter⟩)
    | ⟨[], shorter⟩ => pure ([v], ⟨[], shorter⟩)
termination_by ts.length

/-- Reads arguments in parentheses; the span is that of the closing one. -/
def readArgumentList (ts : List Token) : Reading (List Var × Span) ts := do
  let (_, ⟨afterOpen, opened⟩) ← readKind .leftParen .openParen ts
  if startsWith .rightParen afterOpen then do
    let (close, left) ← readKind .rightParen .commaOrCloseParen afterOpen
    pure (([], close.span), left.within (Rest.le opened))
  else do
    let (vs, ⟨afterVars, shorter⟩) ← readParameters [] afterOpen
    let (close, left) ← readKind .rightParen .commaOrCloseParen afterVars
    pure ((vs, close.span), left.within (Rest.le_trans shorter opened))

/-- Reads the name of a function, which is neither reserved nor taken. -/
def readFunctionName (taken : List String) (ts : List Token) : Reading String ts := do
  let (name, left) ← readKind .identifier .functionName ts
  if name.text = syscallName then .error (.found name.span .reservedName)
  else if name.text ∈ taken then .error (.found name.span .functionRedefined)
  else pure (name.text, left)

/-- Reads what follows the arguments: a semicolon for a builtin, a body for
any other function. -/
def readBody (builtin : Bool) (ts : List Token) : Reading (List Stmt) ts :=
  if builtin then
    match ts with
    | [] => .error (.unexpected .semicolon [])
    | t :: rest =>
      if t.kind = .leftBrace then .error (.found t.span .builtinWithBody)
      else do
        let (_, left) ← readKind .semicolon .semicolon (t :: rest)
        pure ([], left)
  else do
    let ((body, _), left) ← readBlock ts
    pure (body, left)

/-- Reads a function from its result type on; its first token stands at
`start`. -/
def readSignatureAndBody (taken : List String) (builtin : Bool) (start : Span)
    (ts : List Token) : Reading Function ts := do
  let ((result, _), ⟨afterType, _⟩) ← readType ts
  let (name, ⟨afterName, _⟩) ← readFunctionName taken afterType
  let ((arguments, close), ⟨afterArguments, _⟩) ← readArgumentList afterName
  let (body, left) ← readBody builtin afterArguments
  pure (⟨name, result, arguments, [], builtin, start.through close, body⟩,
    left.within (by omega))

/-- Reads one function definition. -/
def readFunction (taken : List String) (ts : List Token) : Reading Function ts :=
  match ts with
  | [] => .error (.unexpected .typeName [])
  | t :: rest =>
    if t.isKeyword "builtin" then do
      let (f, left) ← readSignatureAndBody taken true t.span rest
      pure (f, left.within Rest.le_cons)
    else readSignatureAndBody taken false t.span (t :: rest)

/-- Reads function definitions to the end of the tokens; `taken` are the names
of the functions before them. -/
def readFunctions (taken : List String) (ts : List Token) :
    Except SyntaxFault (List Function) :=
  match ts with
  | [] => .ok []
  | t :: rest => do
    let (f, ⟨left, _⟩) ← readFunction taken (t :: rest)
    let fs ← readFunctions (f.name :: taken) left
    pure (f :: fs)
termination_by ts.length
decreasing_by assumption

/-- A fault without a place is placed just past the last token. -/
def SyntaxFault.placed (f : SyntaxFault) (ts : List Token) : SyntaxFault :=
  ⟨f.cause, f.span.or (ts.getLast?.map (·.span.atStop))⟩

/-- Reads the program that a token sequence is. -/
def Program.parse (ts : List Token) (file : Option String) : Except Diagnostic Program :=
  match readFunctions [] ts with
  | .ok functions => .ok ⟨functions, file⟩
  | .error f => .error ((f.placed ts).diagnostic file)

end Slate
