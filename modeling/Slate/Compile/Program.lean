import Slate.Assembly.PrintRoutine
import Slate.Assembly.Text
import Slate.Compile.Statement

/-!
# Code of programs

Every function becomes a routine, in the order of the definitions.  The only
builtin that has a routine is `print`.  A routine ends with the epilogue,
unless the last statement of the body is a `return`, which has it already.
String literals are numbered through all functions.
-/

namespace Slate

/-- Whether the last statement is a `return`. -/
def endsInReturn (body : List Stmt) : Bool :=
  match body.getLast? with
  | some (.ret _ _) => true
  | _ => false

/-- The routine of a function, and the literals met so far. -/
def Function.compile (f : Function) (literals : List String) :
    Except CompileError (Routine × List String) :=
  if f.builtin then
    if f.name = "print" then .ok (⟨f.name, printRoutine⟩, literals)
    else .error (.unknownBuiltin f.name)
  else do
    let (body, s) ← compileStmts f (.start f literals) f.body
    let ending := if endsInReturn f.body then [] else f.epilogue
    pure (⟨f.name, codeLines f.prologue ++ body ++ codeLines ending⟩, s.literals)

/-- The routines of functions, and the literals met so far. -/
def compileFunctions (literals : List String) :
    List Function → Except CompileError (List Routine × List String)
  | [] => .ok ([], literals)
  | f :: fs => do
    let (r, literals) ← f.compile literals
    let (rs, literals) ← compileFunctions literals fs
    pure (r :: rs, literals)

/-- Whether the program can be entered: it has a `main`. -/
def Program.hasMain (p : Program) : Bool := (p.function? "main").isSome

/-- The assembly of a program. -/
def Program.compile (p : Program) : Except CompileError Assembly := do
  let (routines, literals) ← compileFunctions [] p.functions
  pure ⟨p.hasMain, routines, literals⟩

/-- The assembly of a program, written out. -/
def Program.assemblyText (p : Program) : Except CompileError String :=
  p.compile.map Assembly.text

/-- A program that compiles has the text of its assembly. -/
theorem Program.assemblyText_of_compile {p : Program} {a : Assembly} (h : p.compile = .ok a) :
    p.assemblyText = .ok a.text := by
  unfold Program.assemblyText
  rw [h]
  rfl

end Slate
