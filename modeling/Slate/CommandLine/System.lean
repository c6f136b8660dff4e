import Slate.CommandLine.Log

/-!
# What a command needs from outside

Some of what the command does is left to libraries: the reading of its arguments
and of its settings file, and the filter of its messages.  The rest of it needs a
system, which reads whole files, makes files and writes to them, prints, and
complains.  Both are parameters of the command, so the command itself decides
everything else and touches nothing; and nothing is supposed of a library but
the kind of its answers.

A file is written in blocks: output is held back until the next piece does not
fit into a block any more (`System.writePiece`).  What is held back when the
command gives up is never written.
-/

namespace Slate.CommandLine

/-! ## Libraries -/

/-- What the arguments ask for. -/
structure Arguments where
  settings : Option String
  input : String
  output : Option String
  eval : Bool
  verbose : Bool
deriving DecidableEq

/-- Why arguments lead to no work: they ask for a text, such as an account of
the arguments, or they make no sense. -/
inductive Ending where
  | shown (text : String)
  | refused (complaint : String)
deriving DecidableEq

/-- What is done with a checked program. -/
inductive Backend where
  | assembly
  | evaluation
deriving DecidableEq

/-- What a settings file sets. -/
structure Settings where
  backend : Backend
  verbose : Bool
deriving DecidableEq

/-- The settings without a settings file. -/
def Settings.default : Settings := ⟨.assembly, false⟩

/-- What is made of the text of a message filter: complaints about its faults,
and which messages it shows. -/
structure Listening where
  complaints : List String
  shows : Message → Bool

/-- What the command leaves to libraries.  The text of a settings file is made
into settings, or refused with a remark that ends the complaint about it; a
message filter is told the greatest level that is shown without it. -/
structure Libraries where
  arguments : List String → Except Ending Arguments
  settings : String → Except String Settings
  filter : String → Level → Listening

/-! ## Errors of files -/

/-- Why a file cannot be read, made or written to. -/
inductive FileError where
  | notFound
  | permissionDenied
  | notDirectory
  | isDirectory
  | nameTooLong
  | storageFull
  | other (code : Nat) (message : String)
deriving DecidableEq

namespace FileError

/-- The number of the error. -/
def code : FileError → Nat
  | notFound => 2
  | permissionDenied => 13
  | notDirectory => 20
  | isDirectory => 21
  | nameTooLong => 36
  | storageFull => 28
  | other code _ => code

/-- The class of the error. -/
def kind : FileError → String
  | notFound => "NotFound"
  | permissionDenied => "PermissionDenied"
  | notDirectory => "NotADirectory"
  | isDirectory => "IsADirectory"
  | nameTooLong => "InvalidFilename"
  | storageFull => "StorageFull"
  | other _ _ => "Uncategorized"

/-- The wording of the error. -/
def message : FileError → String
  | notFound => "No such file or directory"
  | permissionDenied => "Permission denied"
  | notDirectory => "Not a directory"
  | isDirectory => "Is a directory"
  | nameTooLong => "File name too long"
  | storageFull => "No space left on device"
  | other _ message => message

/-- The wording of the error with its number. -/
def text (e : FileError) : String :=
  e.message ++ " (os error " ++ toString e.code ++ ")"

/-- The error with all that is known of it. -/
def record (e : FileError) : String :=
  "Os \x7b code: " ++ toString e.code ++ ", kind: " ++ e.kind ++ ", message: \"" ++ e.message ++
    "\" \x7d"

end FileError

/-! ## Systems -/

/-- What the command does in the world outside.  Writing to a file answers with
an error, if there is one, and with the number of bytes that have been written;
printing and flushing answer with an error, if there is one. -/
structure System (m : Type → Type) where
  Handle : Type
  read : String → m (Except FileError ByteArray)
  create : String → m (Except FileError Handle)
  write : Handle → ByteArray → m (Option FileError × Nat)
  print : ByteArray → m (Option FileError)
  flush : m (Option FileError)
  complain : String → m Unit

/-- The size of a block. -/
def blockSize : Nat := 8192

section

variable {m : Type → Type} [Monad m]

/-- Writes what is held back for a file, and answers with what is left of it. -/
def System.writeHeld (system : System m) (h : system.Handle) (held : ByteArray) :
    m (Option FileError × ByteArray) :=
  if held.isEmpty then pure (none, held)
  else do
    let (failure, n) ← system.write h held
    pure (failure, held.extract n held.size)

/-- Writes what is held back if there is no room beside it for so many bytes in the
block at hand. -/
def System.makeRoom (system : System m) (h : system.Handle) (size : Nat) (held : ByteArray) :
    m (Option FileError × ByteArray) :=
  if blockSize - held.size < size then system.writeHeld h held else pure (none, held)

/-- Holds back a piece for which there is room, unless it fills a block by itself. -/
def System.putPiece (system : System m) (h : system.Handle) (piece held : ByteArray) :
    m (Option FileError × ByteArray) :=
  if blockSize ≤ piece.size then do
    let (failure, _) ← system.write h piece
    pure (failure, held)
  else pure (none, held ++ piece)

/-- Writes a piece to a file for which output is held back.  The piece goes into
the block at hand if that leaves room in it; else what is held back is written, if
the piece does not fit, and the piece starts the next block unless it fills one by
itself. -/
def System.writePiece (system : System m) (h : system.Handle) (piece held : ByteArray) :
    m (Option FileError × ByteArray) := do
  match ← system.makeRoom h piece.size held with
  | (some e, held) => pure (some e, held)
  | (none, held) => system.putPiece h piece held

/-- Where output goes, with what is held back for it. -/
structure Output (m : Type → Type) (σ : Type) where
  write : ByteArray → σ → m (Option FileError × σ)
  flush : σ → m (Option FileError × σ)

/-- The output that is printed. -/
def System.standardOutput (system : System m) : Output m Unit where
  write bytes _ := do pure (← system.print bytes, ())
  flush _ := do pure (← system.flush, ())

/-- The output that goes to a file. -/
def System.fileOutput (system : System m) (h : system.Handle) : Output m ByteArray where
  write := system.writePiece h
  flush := system.writeHeld h

/-! ## What is done while a program is run or compiled -/

/-- Something that is done outside: bytes are written, the output is flushed, or
a message is shown. -/
inductive Deed where
  | write (bytes : ByteArray)
  | flush
  | say (message : Message)

/-- Does one thing after another.  When the output fails nothing more is done,
but that a flush which is still to come is not left out; if it fails too, that is
what is answered. -/
def perform {σ : Type} (system : System m) (out : Output m σ) :
    Option FileError → List Deed → σ → m (Option FileError × σ)
  | trouble, [], held => pure (trouble, held)
  | trouble, .flush :: deeds, held => do
    let (failure, held) ← out.flush held
    perform system out (failure <|> trouble) deeds held
  | some e, _ :: deeds, held => perform system out (some e) deeds held
  | none, .write bytes :: deeds, held => do
    let (failure, held) ← out.write bytes held
    perform system out failure deeds held
  | none, .say message :: deeds, held => do
    system.complain message.line
    perform system out none deeds held

end

end Slate.CommandLine
