import Slate.Eval.Outcome

/-!
# Hosts

What a running program is connected to: a sink for its output, and someone who
is told of its calls and of its end.  Only `print` and the write system call
reach the sink, and a refusal of the sink is an error of the run.

* The builtin `print` writes the text of one value and a newline.
* The system call 4 writes the first bytes of a string to the standard output,
  never more than the string has, and answers with their number.
* The system call 1 ends the run with a status.
-/

namespace Slate

/-- What a host is told of a run. -/
inductive Event where
  | entered (function : String) (depth : Nat)
  | exited (status : Int32)
  | evaluated (result : Value)
deriving DecidableEq

/-- What a running program is connected to. -/
structure Host (σ : Type) extends Sink σ where
  notice : Event → σ → σ

namespace Host

variable {σ : Type}

/-- A host that has a sink and does not listen. -/
def ofSink (sink : Sink σ) : Host σ := { sink with notice := fun _ state => state }

/-- The run that tells the host of an event. -/
def tell (host : Host σ) (event : Event) : Run σ Unit :=
  fun state => .done () (host.notice event state)

/-- The run that writes bytes. -/
def print (host : Host σ) (bytes : ByteArray) : Run σ Unit := fun state =>
  match host.write bytes state with
  | .ok state => .done () state
  | .error message => .failed (.output message) state

/-- The run that flushes the output. -/
def flushOutput (host : Host σ) : Run σ Unit := fun state =>
  match host.flush state with
  | .ok state => .done () state
  | .error message => .failed (.output message) state

end Host

/-- The integer among the arguments of a system call at an index. -/
def intArgument (args : List Value) (index : Nat) : Except EvalError Int32 :=
  match args[index]? with
  | some ⟨_, .int i⟩ => .ok i
  | _ => .error .syscallArguments

/-- The string among the arguments of a system call at an index. -/
def stringArgument (args : List Value) (index : Nat) : Except EvalError String :=
  match args[index]? with
  | some ⟨_, .string s⟩ => .ok s
  | _ => .error .syscallArguments

/-- The bytes that a write system call writes, after its number. -/
def writeArguments (args : List Value) : Except EvalError (ByteArray × Int32) := do
  let descriptor ← intArgument args 1
  let length ← intArgument args 3
  let bytes := (← stringArgument args 2).toUTF8
  if descriptor ≠ 1 then throw (.unsupportedDescriptor descriptor)
  else if length < 0 ∨ length.toNatClampNeg > bytes.size then
    throw (.writeOutOfBounds length bytes.size)
  else pure (bytes.extract 0 length.toNatClampNeg, length)

/-- Runs a system call. -/
def systemCall {σ : Type} (host : Host σ) (args : List Value) : Run σ Value := do
  let number ← Run.ofExcept (intArgument args 0)
  if number = 1 then
    let status ← Run.ofExcept (intArgument args 1)
    Run.fail (.exit status)
  else if number = 4 then
    let (bytes, length) ← Run.ofExcept (writeArguments args)
    host.print bytes
    pure (.int length)
  else Run.fail (.unsupportedSyscall number)

/-- Runs a builtin function. -/
def callBuiltin {σ : Type} (host : Host σ) (f : Function) (args : List Value) : Run σ Value :=
  match args with
  | [value] =>
    if f.name = "print" then do
      host.print (value.text ++ "\n").toUTF8
      pure .void
    else Run.fail (.unknownBuiltin f.name)
  | _ => Run.fail (.unknownBuiltin f.name)

end Slate
