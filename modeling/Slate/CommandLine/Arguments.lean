import Slate.CommandLine.System

/-!
# Command-line arguments

The command takes one source file and a few options.

* `-c FILE` names a settings file, `-o FILE` the assembly file;
* `-e` or `--eval` runs the program instead of compiling it;
* `-v` asks for more messages;
* `-h` or `--help` asks for an account of the arguments, and `-V` or `--version`
  for the version; nothing else is done then.

Short options can share one dash.  The value of an option is what is left of
its argument, less any equals signs in front, or else the next argument, if
that is not an option itself.  Behind `--` everything is a file name, and so is a
dash by itself.

Arguments are read in order, and the first that cannot be understood, or that asks
for a text, ends the reading.  Only at the end is it seen whether a source file
has been named, no option has been given twice, and none lacks its value.

This is how the library behaves that the command leaves the reading to; of its
texts only the occasions are kept.
-/

namespace Slate.CommandLine

/-- The arguments read so far; they are faulty if an option came twice or without
its value. -/
structure Partial where
  settings : Option String
  input : Option String
  output : Option String
  eval : Bool
  verbose : Bool
  faulty : Bool
deriving DecidableEq

namespace Partial

/-- Nothing read. -/
def empty : Partial := ⟨none, none, none, false, false, false⟩

/-- Adds the flag for running. -/
def withEval (p : Partial) : Partial := { p with eval := true, faulty := p.faulty || p.eval }

/-- Adds the flag for more messages. -/
def withVerbose (p : Partial) : Partial :=
  { p with verbose := true, faulty := p.faulty || p.verbose }

/-- Adds an option that lacks its value. -/
def withoutValue (p : Partial) : Partial := { p with faulty := true }

/-- Adds the value of an option. -/
def withValue (p : Partial) (option : Char) (value : String) : Partial :=
  if option = 'c' then
    { p with settings := some value, faulty := p.faulty || p.settings.isSome }
  else
    { p with output := some value, faulty := p.faulty || p.output.isSome }

end Partial

namespace Arguments

/-- What ends the reading of arguments that make no sense. -/
def misuse : Ending := .refused "usage error"

/-- What ends it if an account of the arguments is asked for. -/
def help : Ending := .shown "help\n"

/-- What ends it if the version is asked for. -/
def version : Ending := .shown "version\n"

end Arguments

/-- Adds a file name; there is one at most. -/
def Partial.withInput (p : Partial) (name : String) : Except Ending Partial :=
  if p.input.isSome then .error Arguments.misuse else .ok { p with input := some name }

/-- Whether an argument is an option, and not a value. -/
def isOption (arg : List Char) : Bool :=
  match arg with
  | '-' :: _ :: _ => true
  | _ => false

/-- Reads short options that share a dash, up to one that takes a value: the
arguments so far, and the option that still waits for its value. -/
def readShort (p : Partial) : List Char → Except Ending (Partial × Option Char)
  | [] => .ok (p, none)
  | c :: rest =>
    if c = 'e' then readShort p.withEval rest
    else if c = 'v' then readShort p.withVerbose rest
    else if c = 'c' ∨ c = 'o' then
      if rest.isEmpty then .ok (p, some c)
      else .ok (p.withValue c (String.ofList (rest.dropWhile (· = '='))), none)
    else if c = 'h' then .error Arguments.help
    else if c = 'V' then .error Arguments.version
    else .error Arguments.misuse

/-- Reads a long option, which has its name before any equals sign. -/
def readLong (p : Partial) (arg : List Char) : Except Ending Partial :=
  let name := (arg.dropWhile (· = '-')).takeWhile (· ≠ '=')
  if name = "eval".toList then .ok p.withEval
  else if name = "help".toList then .error Arguments.help
  else if name = "version".toList then .error Arguments.version
  else .error Arguments.misuse

/-- Reads arguments.  `filesOnly` holds behind `--`, and `waiting` is the option
before, if it still waits for its value. -/
def readArguments (filesOnly : Bool) (waiting : Option Char) (p : Partial) :
    List String → Except Ending Partial
  | [] => .ok (if waiting.isSome then p.withoutValue else p)
  | arg :: args =>
    if filesOnly then do readArguments true none (← p.withInput arg) args
    else if isOption arg.toList then do
      let p := if waiting.isSome then p.withoutValue else p
      if arg = "--" then readArguments true none p args
      else if arg.startsWith "--" then do readArguments false none (← readLong p arg.toList) args
      else
        let (p, waiting) ← readShort p (arg.toList.dropWhile (· = '-'))
        readArguments false waiting p args
    else
      match waiting with
      | some option => readArguments false none (p.withValue option arg) args
      | none => do readArguments false none (← p.withInput arg) args

/-- What the arguments ask for, if they make sense. -/
def Arguments.parse (args : List String) : Except Ending Arguments := do
  let p ← readArguments false none .empty args
  match p.input with
  | some input =>
    if p.faulty then .error misuse
    else pure ⟨p.settings, input, p.output, p.eval, p.verbose⟩
  | none => .error misuse

end Slate.CommandLine
