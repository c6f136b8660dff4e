import Slate.CommandLine.Arguments
import Slate.CommandLine.Filter
import Slate.CommandLine.Settings
import Slate.CommandLine.System
import Slate.Compile.Output
import Slate.Eval.Program
import Slate.FrontEnd

/-!
# The command

Reads a source file and either compiles it to an assembly file or runs it.

The arguments come first, then the settings file, then the source file; the
first of them that fails ends the command with exit status 1 and a complaint.
A settings file that is named must be readable; `slatec.toml` in the directory
at hand is used only if it is.  The assembly file is the one named, or has the
name of the source file with `.sl` at its end replaced by `.asm`.

The assembly file is made before the program is compiled, and its blocks are
written while that is done; so a file that takes no more is noticed before a
fault of the program.  Running a program ends with its status, of which the
lowest eight bits are the exit status.

What comes before the work is done is `prepare`; it makes no file.
-/

namespace Slate.CommandLine

/-! ## Messages about the work -/

/-- A message of a part of the command. -/
def note (level : Level) (part text : String) (fields : List (String × String)) : Message :=
  ⟨level, if part = "" then "slatec" else "slatec::" ++ part, text, fields⟩

/-- What is said about the checks of functions: those that pass, up to the
first that fails. -/
def checkMessages (signatures : Signatures) : List Function → List Message
  | [] => []
  | f :: fs =>
    match f.check signatures with
    | (_, .error _) => []
    | (g, .ok ()) =>
      (if f.builtin then []
      else [note .trace "typing" "checked function"
        [("function", f.name), ("locals", toString g.locals.length)]]) ++
        checkMessages signatures fs

/-- What is said about the front end's work on a source text. -/
def frontEndMessages (source : String) (file : Option String) : List Message :=
  let tokens := tokensOf source
  note .debug "lexer" "lexed tokens" [("count", toString tokens.length)] ::
    match Program.parse tokens file with
    | .error _ => []
    | .ok p =>
      note .debug "parser" "parsed program" [("functions", toString p.functions.length)] ::
        (checkMessages p.signatures p.functions ++
          match p.check with
          | .error _ => []
          | .ok q =>
            [note .debug "typing" "type checked program"
              [("functions", toString q.functions.length)]])

/-- What is said about a step of writing an assembly. -/
def stepMessage : EmitStep → Option Message
  | .write _ => none
  | .begins f locals =>
    some (note .trace "codegen" "emitting function"
      [("function", f), ("locals", toString locals)])
  | .ends functions literals =>
    some (note .debug "codegen" "generated assembly"
      [("functions", toString functions), ("strings", toString literals)])

/-- What is said about an event of a run. -/
def eventMessage : Event → Message
  | .entered f depth =>
    note .trace "interpreter" "call" [("function", f), ("depth", toString depth)]
  | .exited status => note .debug "interpreter" "program exited" [("status", intText status)]
  | .evaluated result => note .debug "interpreter" "evaluated main" [("result", result.text)]

/-! ## Running and compiling -/

/-- Shows a message if it is one of those that are shown. -/
def saying (shows : Message → Bool) (message : Message) : List Deed :=
  if shows message then [.say message] else []

/-- A host that keeps what a run does, the latest first. -/
def transcriptHost (shows : Message → Bool) : Host (List Deed) where
  write bytes deeds := .ok (.write bytes :: deeds)
  flush deeds := .ok (.flush :: deeds)
  notice event deeds := saying shows (eventMessage event) ++ deeds

/-- What is done in a step of writing an assembly. -/
def stepDeeds (shows : Message → Bool) (step : EmitStep) : List Deed :=
  (step.text?.map fun text => Deed.write text.toUTF8).toList ++
    ((stepMessage step).map (saying shows)).getD []

/-- The exit status of a command whose status is an integer: its lowest eight
bits. -/
def exitStatus (status : Int32) : Nat := (status.toInt % 256).toNat

/-- The exit status of a command that has panicked. -/
def panicStatus : Nat := 101

variable {m : Type → Type} [Monad m]

/-- Shows the messages that are shown. -/
def showAll (system : System m) (shows : Message → Bool) : List Message → m Unit
  | [] => pure ()
  | message :: rest => do
    if shows message then system.complain message.line
    showAll system shows rest

/-- The answer to a failure: a complaint, and exit status 1. -/
def giveUp (system : System m) (complaint : String) : m Nat := do
  system.complain complaint
  pure 1

/-- Runs a checked program.  A run goes on the same way whatever becomes of its
output, but for ending when that fails. -/
def evaluate (system : System m) (shows : Message → Bool) (p : Program) : m Nat := do
  let outcome := Setting.run ⟨p, transcriptHost shows, plentifulRounds⟩ []
  match ← perform system system.standardOutput none outcome.state.reverse () with
  | (some e, _) => giveUp system ("[error] " ++ (EvalError.output e.text).message)
  | (none, _) =>
    match outcome with
    | .done status _ => do
      showAll system shows [note .info "" "evaluation finished" [("status", intText status)]]
      pure (exitStatus status)
    | .failed e _ => giveUp system ("[error] " ++ e.message)
    | .unfinished _ => giveUp system "[error] a loop does not end"

/-- The name of the assembly file for a source file. -/
def assemblyName (input : String) : String :=
  let cs := input.toList
  if ".sl".toList.isSuffixOf cs then String.ofList (cs.take (cs.length - 3)) ++ ".asm"
  else input ++ ".asm"

/-- Writes what is held back at the end of an assembly.  If that fails it is tried a
second time, as the file is closed before the failure is told. -/
def finishFile (system : System m) (shows : Message → Bool) (path : String) (h : system.Handle)
    (held : ByteArray) : m Nat := do
  let out := system.fileOutput h
  match ← out.flush held with
  | (some e, rest) => do
    let _ ← out.flush rest
    giveUp system ("Error: " ++ e.record)
  | (none, _) => do
    showAll system shows [note .info "" "wrote assembly" [("path", path)]]
    pure 0

/-- Compiles a checked program to a file that has been made. -/
def compileInto (system : System m) (shows : Message → Bool) (p : Program) (path : String)
    (h : system.Handle) : m Nat := do
  let deeds := p.emission.steps.flatMap (stepDeeds shows)
  match ← perform system (system.fileOutput h) none deeds .empty with
  | (some e, _) => giveUp system ("[error] " ++ (CompileError.output e.text).message)
  | (none, held) =>
    match p.emission.result with
    | .error e => giveUp system ("[error] " ++ e.message)
    | .ok () => finishFile system shows path h held

/-- Compiles a checked program to a file. -/
def compileTo (system : System m) (shows : Message → Bool) (p : Program) (path : String) :
    m Nat := do
  match ← system.create path with
  | .error e => giveUp system ("Error: " ++ e.record)
  | .ok h => compileInto system shows p path h

/-! ## The whole command -/

/-- Why a file has no text. -/
inductive TextError where
  | file (e : FileError)
  | notText

/-- The wording of the error. -/
def TextError.text : TextError → String
  | file e => e.text
  | notText => "stream did not contain valid UTF-8"

/-- The text of a file. -/
def readText (system : System m) (name : String) : m (Except TextError String) := do
  match ← system.read name with
  | .error e => pure (.error (.file e))
  | .ok bytes =>
    match String.fromUTF8? bytes with
    | some text => pure (.ok text)
    | none => pure (.error .notText)

/-- The settings file that is used if no other is named. -/
def defaultSettingsName : String := "slatec.toml"

/-- The settings, or the complaint about their file. -/
def readSettings (libraries : Libraries) (system : System m) (name : Option String) :
    m (Except String Settings) := do
  match ← readText system (name.getD defaultSettingsName) with
  | .error e =>
    if name.isSome then pure (.error ("could not read config file: " ++ e.text))
    else pure (.ok .default)
  | .ok text =>
    match libraries.settings text with
    | .ok settings => pure (.ok settings)
    | .error remark => pure (.error ("incorrect configuration" ++ remark))

/-- Complains of the parts of a filter text that are refused. -/
def complainAll (system : System m) : List String → m Unit
  | [] => pure ()
  | complaint :: rest => do
    system.complain complaint
    complainAll system rest

/-- Ends a command whose arguments lead to no work, with its exit status. -/
def finish (system : System m) : Ending → m Nat
  | .refused complaint => giveUp system complaint
  | .shown text => do
    match ← system.print text.toUTF8 with
    | none => pure 0
    | some e => do
      system.complain ("Error writing Error to stdout: " ++ e.record)
      pure panicStatus

/-- The work that is left when a program has been accepted. -/
inductive Task where
  | evaluation (p : Program)
  | compilation (p : Program) (path : String)

/-- The work that is asked for. -/
def Arguments.task (arguments : Arguments) (settings : Settings) (p : Program) : Task :=
  if arguments.eval || settings.backend = .evaluation then .evaluation p
  else .compilation p (arguments.output.getD (assemblyName arguments.input))

/-- The work that is to be done, with the messages that are shown; or the exit status of a
command that has come to its end. -/
abbrev Prepared := Except Nat (Task × (Message → Bool))

/-- Ends a command with a complaint before it has come to any work. -/
def refuse (system : System m) (complaint : String) : m Prepared := do
  pure (.error (← giveUp system complaint))

/-- Comes to the work on a source text, if it is accepted. -/
def prepareText (system : System m) (arguments : Arguments) (settings : Settings)
    (shows : Message → Bool) (source : String) : m Prepared := do
  showAll system shows (frontEndMessages source (some arguments.input))
  match frontEnd source (some arguments.input) with
  | .error d => refuse system (d.render source)
  | .ok p => pure (.ok (arguments.task settings p, shows))

/-- Comes to the work on the source file, if it can be read. -/
def prepareFile (system : System m) (arguments : Arguments) (settings : Settings)
    (listening : Listening) : m Prepared := do
  complainAll system listening.complaints
  match ← readText system arguments.input with
  | .error e => refuse system ("could not read source file: " ++ e.text)
  | .ok source => prepareText system arguments settings listening.shows source

/-- Comes to the work that is asked for. -/
def prepare (libraries : Libraries) (system : System m) (args : List String)
    (filterText : String) : m Prepared := do
  match libraries.arguments args with
  | .error ending => do pure (.error (← finish system ending))
  | .ok arguments =>
    match ← readSettings libraries system arguments.settings with
    | .error complaint => refuse system complaint
    | .ok settings =>
      prepareFile system arguments settings (libraries.filter filterText
        (if settings.verbose || arguments.verbose then .debug else .warn))

/-- Runs the command with its arguments and the text of the message filter,
and answers with the exit status. -/
def runCommandWith (libraries : Libraries) (system : System m) (args : List String)
    (filterText : String) : m Nat := do
  match ← prepare libraries system args filterText with
  | .error status => pure status
  | .ok (.evaluation p, shows) => evaluate system shows p
  | .ok (.compilation p path, shows) => compileTo system shows p path

/-- The libraries as they behave. -/
def Libraries.standard : Libraries := ⟨Arguments.parse, Settings.parse, Filter.listen⟩

/-- The command with these libraries. -/
def runCommand (system : System m) (args : List String) (filterText : String) : m Nat :=
  runCommandWith .standard system args filterText

end Slate.CommandLine
