import Slate.Compile.Expression

/-!
# Code of statements

A statement leaves the stack as it found it, unless it returns.  Conditions
are tested in the low byte of `eax`.  A conditional takes two label numbers,
the end before the branch, whether or not there is a branch; a loop takes two
as well, its start before its end.

A function has a frame of its own only if it has arguments or locals; every
return undoes it.
-/

namespace Slate

/-- Whether a function needs a frame. -/
def Function.hasFrame (f : Function) : Bool :=
  !f.arguments.isEmpty || !f.locals.isEmpty

/-- The code that sets up the frame of a function. -/
def Function.prologue (f : Function) : List Instr :=
  if f.hasFrame then
    [.push .ebp, .move .ebp .esp] ++
      (if f.locals.isEmpty then [] else [.subConst .esp (4 * f.locals.length)])
  else []

/-- The code that undoes the frame of a function and returns. -/
def Function.epilogue (f : Function) : List Instr :=
  if f.hasFrame then [.move .esp .ebp, .pop .ebp, .ret] else [.ret]

/-- Instructions as lines without remarks. -/
def codeLines (code : List Instr) : List Line := code.map .of

/-- The code that goes on only if a condition in `eax` holds. -/
def unlessTrue (target : Label) : List Instr :=
  [.compareByteConst .al 1, .jumpIf .notEqual target]

mutual

/-- The code of a statement of a function. -/
def compileStmt (f : Function) (s : CompileState) :
    Stmt → Except CompileError (List Line × CompileState)
  | .expression _ e => do
    let (code, s) ← compileExpr s e
    pure (codeLines code, s)
  | .ret _ none => pure (codeLines f.epilogue, s)
  | .ret _ (some e) => do
    let (code, s) ← compileExpr s e
    pure (codeLines (code ++ f.epilogue), s)
  | .ifThen _ condition body => do
    let (test, s) ← compileExpr s condition
    let ending := Label.control f.name .ifEnd s.labels
    let (bodyLines, s) ← compileStmts f (s.label 2) body
    pure (codeLines (test ++ unlessTrue ending) ++ bodyLines ++ [.label ending], s)
  | .ifElse _ condition body otherwise => do
    let (test, s) ← compileExpr s condition
    let ending := Label.control f.name .ifEnd s.labels
    let branch := Label.control f.name .ifElse (s.labels + 1)
    let (bodyLines, s) ← compileStmts f (s.label 2) body
    let (branchLines, s) ← compileStmt f s otherwise
    pure (codeLines (test ++ unlessTrue branch) ++ bodyLines ++
      [.of (.jump ending), .label branch] ++ branchLines ++ [.label ending], s)
  | .loop _ condition body => do
    let start := Label.control f.name .whileStart s.labels
    let ending := Label.control f.name .whileEnd (s.labels + 1)
    let (test, s) ← compileExpr (s.label 2) condition
    let (bodyLines, s) ← compileStmts f s body
    pure ([.label start] ++ codeLines (test ++ unlessTrue ending) ++ bodyLines ++
      [.of (.jump start), .label ending], s)
  | .block _ body => compileStmts f s body

/-- The code of statements one after the other. -/
def compileStmts (f : Function) (s : CompileState) :
    List Stmt → Except CompileError (List Line × CompileState)
  | [] => pure ([], s)
  | stmt :: stmts => do
    let (first, s) ← compileStmt f s stmt
    let (rest, s) ← compileStmts f s stmts
    pure (first ++ rest, s)

end

end Slate
