import Slate.CommandLine.Command

/-!
# The program

The command on the system it is started on: files, the standard output and the
standard error.
-/

namespace Slate.CommandLine

/-- What an error of the system is to the command. -/
def fileError : IO.Error → FileError
  | .noFileOrDirectory _ _ _ => .notFound
  | .permissionDenied _ _ _ => .permissionDenied
  | .resourceExhausted _ code message =>
    if code = 28 then .storageFull else .other code.toNat message
  | .inappropriateType _ code message =>
    if code = 20 then .notDirectory
    else if code = 21 then .isDirectory
    else .other code.toNat message
  | .invalidArgument _ code message =>
    if code = 36 then .nameTooLong else .other code.toNat message
  | e => .other 0 (toString e)

/-- An action whose error becomes part of its answer. -/
def attempt {α : Type} (action : IO α) : IO (Except FileError α) := do
  match ← action.toBaseIO with
  | .ok a => pure (.ok a)
  | .error e => pure (.error (fileError e))

/-- The error of an action, if it has failed. -/
def failure? (answer : Except FileError Unit) : IO (Option FileError) :=
  match answer with
  | .ok () => pure none
  | .error e => pure (some e)

/-- The system that the program is started on.  Of bytes that are refused it does
not tell how many have been written. -/
def realSystem : System IO where
  read name := attempt (IO.FS.readBinFile name)
  Handle := IO.FS.Handle
  create name := attempt (IO.FS.Handle.mk name .write)
  write handle bytes := do
    match ← attempt (do handle.write bytes; handle.flush) with
    | .ok () => pure (none, bytes.size)
    | .error e => pure (some e, 0)
  print bytes := do failure? (← attempt (do (← IO.getStdout).write bytes))
  flush := do failure? (← attempt (do (← IO.getStdout).flush))
  complain text := IO.eprintln text

/-- The environment variable that holds the text of the message filter. -/
def filterVariable : String := "RUST_LOG"

end Slate.CommandLine

/-- Runs the command. -/
def main (args : List String) : IO UInt32 := do
  let filterText := (← IO.getEnv Slate.CommandLine.filterVariable).getD ""
  let status ← Slate.CommandLine.runCommand Slate.CommandLine.realSystem args filterText
  pure (UInt32.ofNat status)
