import Slate.Eval.Host
import Slate.Eval.Statement

/-!
# Runs of programs

Calls of functions with a body may nest at most `maxCallDepth` deep.  The depth
still allowed is what `enter` recurs on, so a run ends whatever the functions
call, provided its loops do.

Running a program calls its `main` without arguments and flushes the output,
whatever became of the call.  An integer result is the status, a truth value
counts as 0 or 1, and an exit system call has given the status itself.
-/

namespace Slate

variable {σ : Type}

/-- What a run takes place in: the program, the host it is connected to, and
the number of rounds given to every loop. -/
structure Setting (σ : Type) where
  program : Program
  host : Host σ
  rounds : Nat

namespace Setting

/-- Runs the body of a function, with the given way to run calls. -/
def body (setting : Setting σ) (calls : Calls σ) (f : Function) (args : List Value) :
    Run σ Value := do
  let (stop, _) ← execStmts calls setting.rounds f.body (.ofArguments f.arguments args .empty)
  match stop with
  | some value => pure value
  | none => if f.result.isVoid then pure .void else Run.fail (.noReturn f.name)

/-- Runs a call, with the given way to enter a function that has a body. -/
def dispatch (setting : Setting σ) (enter : Function → List Value → Run σ Value) : Calls σ :=
  fun name args =>
    if name = syscallName then systemCall setting.host args
    else
      match setting.program.function? name with
      | none => Run.fail (.unknownFunction name)
      | some f =>
        if f.arguments.length ≠ args.length then
          Run.fail (.argumentCount name f.arguments.length args.length)
        else if f.builtin then callBuiltin setting.host f args
        else enter f args

/-- Enters a function when calls may nest `allowed` deeper. -/
def enter (setting : Setting σ) : Nat → Function → List Value → Run σ Value
  | 0, _, _ => Run.fail .callDepth
  | allowed + 1, f, args => do
    setting.host.tell (.entered f.name (maxCallDepth - allowed))
    setting.body (setting.dispatch (setting.enter allowed)) f args

/-- Calls a function by its name. -/
def call (setting : Setting σ) : Calls σ :=
  setting.dispatch (setting.enter maxCallDepth)

/-- Calls a given function.  The number of arguments is not looked at. -/
def callFunction (setting : Setting σ) (f : Function) (args : List Value) : Run σ Value :=
  setting.enter maxCallDepth f args

/-- The status that the result of `main` is. -/
def status (result : Value) : Except EvalError Int32 :=
  match result.data with
  | .int i => .ok i
  | .bool b => .ok (if b then 1 else 0)
  | _ => .error (.invalidResult result)

/-- Runs the program, with the given way to call its `main`. -/
def runBy (setting : Setting σ) (call : Calls σ) : Run σ Int32 :=
  match setting.program.function? "main" with
  | none => Run.fail .noMain
  | some _ => fun state =>
    match call "main" [] state with
    | .unfinished state => .unfinished state
    | .done result state =>
      (do setting.host.flushOutput
          setting.host.tell (.evaluated result)
          Run.ofExcept (status result) : Run σ Int32) state
    | .failed (.exit code) state =>
      (do setting.host.flushOutput
          setting.host.tell (.exited code)
          pure code : Run σ Int32) state
    | .failed e state =>
      (do setting.host.flushOutput
          Run.fail e : Run σ Int32) state

/-- Runs the program. -/
def run (setting : Setting σ) : Run σ Int32 :=
  setting.runBy setting.call

end Setting

/-- More rounds than any run has time for. -/
def plentifulRounds : Nat := Nat.pow 2 62

end Slate
