import Slate.CommandLine.System
import Slate.Text.Lines

/-!
# A directory as a system

The command can run on a directory that exists only as a value: files by their
paths, and what has been printed and complained of so far.  Directories are
there as far as the paths of files go through them; none can be made.

A path is taken part by part; `.` stays where it is, `..` goes up, and a part
that is followed by more must be a directory.  A slash at the end asks for a
directory.  When a file is made, that is found out before its name is looked
at; when one is read, afterwards.

Of what is beyond the directory only the customary directories at the top and
some devices are known.  Nothing can be read there, and what is written there
is lost, except that two devices are what the command prints and complains on,
and one is always full.

There may be room for so many bytes only; what is written beyond that is refused,
behind the bytes that still fit.
-/

namespace Slate.CommandLine

/-- A path from the directory on, part by part. -/
abbrev Path := List String

/-- Files, the number of bytes for which there is room if that is limited, and
what has been said so far. -/
structure Directory where
  files : List (Path × ByteArray)
  room : Option Nat
  printed : ByteArray
  complaints : List String

namespace Directory

/-- A directory with files in it and room for any number of bytes, before anything
is said. -/
def ofFiles (files : List (String × ByteArray)) : Directory :=
  ⟨files.map fun file => (file.1.splitOn "/", file.2), none, .empty, []⟩

/-- The contents of a file. -/
def file? (d : Directory) (path : Path) : Option ByteArray := d.files.lookup path

/-- Whether a path is a directory: the one at hand, or one on the way to a
file. -/
def isDirectory (d : Directory) (path : Path) : Bool :=
  path.isEmpty || d.files.any fun file => path.isPrefixOf file.1 && path ≠ file.1

/-- The longest name that a file can have, in bytes. -/
def maxName : Nat := 255

/-- The number of bytes that a path has less than. -/
def maxPath : Nat := 4096

/-- Where a path leads: into the directory, or to a place beyond it, which is
named from the root on; the directory above has no name there. -/
inductive Place where
  | within (path : Path)
  | beyond (path : Path)
deriving DecidableEq

/-- The place that a path starts at. -/
def startOf (name : String) : Place := if name.startsWith "/" then .beyond [] else .within []

/-- The directory above the one at hand. -/
def above : Path := [".."]

/-- The names of the directories at the top. -/
def topNames : List String :=
  ["bin", "boot", "dev", "etc", "home", "lib", "media", "mnt", "opt", "proc", "root", "run",
    "sbin", "srv", "sys", "tmp", "usr", "var"]

/-- The devices that are known. -/
inductive Device where
  | null
  | full
  | input
  | output
  | complaints
deriving DecidableEq

/-- The device at a path from the root on. -/
def device? : Path → Option Device
  | ["dev", "null"] => some .null
  | ["dev", "full"] => some .full
  | ["dev", "stdin"] => some .input
  | ["dev", "stdout"] => some .output
  | ["dev", "stderr"] => some .complaints
  | _ => none

/-- The place one step up. -/
def Place.up : Place → Place
  | within [] => .beyond above
  | within path => .within path.dropLast
  | beyond path => if path = above then .beyond above else .beyond path.dropLast

/-- The place of a name in a directory. -/
def Place.down (name : String) : Place → Place
  | within path => .within (path ++ [name])
  | beyond path => .beyond (path ++ [name])

/-- Whether a place is a directory. -/
def hasDirectory (d : Directory) : Place → Bool
  | .within path => d.isDirectory path
  | .beyond [] => true
  | .beyond [name] => name = ".." || name ∈ topNames
  | .beyond _ => false

/-- The contents of the file at a place. -/
def fileAt? (d : Directory) : Place → Option ByteArray
  | .within path => d.file? path
  | .beyond path => (device? path).map fun _ => .empty

/-- Goes on to a part of a path that must be a directory. -/
def enter (d : Directory) (here : Place) (part : String) : Except FileError Place :=
  if part = "." then .ok here
  else if part = ".." then .ok here.up
  else if maxName < part.utf8ByteSize then .error .nameTooLong
  else
    let there := here.down part
    if d.hasDirectory there then .ok there
    else if (d.fileAt? there).isSome then .error .notDirectory
    else .error .notFound

/-- The directory that a path goes through last, and the part behind it; a path
of slashes alone has no such part. -/
def approach (d : Directory) (name : String) : Except FileError (Place × Option String) := do
  if maxPath ≤ name.utf8ByteSize then throw .nameTooLong
  if name = "" then throw .notFound
  let parts := (name.splitOn "/").filter (· ≠ "")
  let place ← parts.dropLast.foldlM d.enter (startOf name)
  pure (place, parts.getLast?)

/-- The contents of the file of a name. -/
def read (d : Directory) (name : String) : Except FileError ByteArray := do
  let (place, last) ← d.approach name
  match last with
  | none => throw .isDirectory
  | some part =>
    if part = "." ∨ part = ".." then throw .isDirectory
    if maxName < part.utf8ByteSize then throw .nameTooLong
    let there := place.down part
    if d.hasDirectory there then throw .isDirectory
    match d.fileAt? there with
    | some bytes => if name.endsWith "/" then throw .notDirectory else pure bytes
    | none => throw .notFound

/-- The place at which a file of a name can be made, or is already. -/
def target (d : Directory) (name : String) : Except FileError Place := do
  let (place, last) ← d.approach name
  match last with
  | none => throw .isDirectory
  | some part =>
    if part = "." ∨ part = ".." ∨ name.endsWith "/" then throw .isDirectory
    if maxName < part.utf8ByteSize then throw .nameTooLong
    let there := place.down part
    if d.hasDirectory there then throw .isDirectory
    pure there

/-- The directory with the contents of a file set. -/
def put (d : Directory) (path : Path) (bytes : ByteArray) : Directory :=
  if (d.file? path).isSome then
    { d with files := d.files.map fun file => if file.1 = path then (path, bytes) else file }
  else { d with files := d.files ++ [(path, bytes)] }

/-- The place of a name, and the directory with an empty file there; the bytes that
the file has held leave room for others. -/
def create (d : Directory) (name : String) : Except FileError (Place × Directory) := do
  match ← d.target name with
  | .within path =>
    let held := (d.file? path).getD .empty
    pure (.within path, { d.put path .empty with room := d.room.map (· + held.size) })
  | .beyond path => pure (.beyond path, d)

/-- The lines of a text that is complained. -/
def complaintLines (text : String) : List String := (Text.lines text.toList).map String.ofList

/-- The directory after bytes are written to a device. -/
def send (d : Directory) (bytes : ByteArray) : Device → Except FileError Directory
  | .full => if bytes.isEmpty then .ok d else .error .storageFull
  | .output => .ok { d with printed := d.printed ++ bytes }
  | .complaints =>
    .ok { d with complaints := d.complaints ++ complaintLines ((String.fromUTF8? bytes).getD "") }
  | .null => .ok d
  | .input => .ok d

/-- How many of some bytes there is room for. -/
def fitting (d : Directory) (count : Nat) : Nat :=
  match d.room with
  | none => count
  | some room => min count room

/-- The directory with bytes added to a file, as far as there is room for them, and
their number. -/
def append (d : Directory) (path : Path) (held bytes : ByteArray) : Nat × Directory :=
  let n := d.fitting bytes.size
  (n, { d.put path (held ++ bytes.extract 0 n) with room := d.room.map (· - n) })

/-- Writes bytes at a place: an error if there is one, the number of bytes written,
and the directory afterwards. -/
def write (d : Directory) (bytes : ByteArray) : Place → (Option FileError × Nat) × Directory
  | .within path =>
    match d.file? path with
    | some held =>
      let (n, d) := d.append path held bytes
      ((if n < bytes.size then some .storageFull else none, n), d)
    | none => ((none, bytes.size), d)
  | .beyond path =>
    match (device? path).map (d.send bytes) with
    | some (.error e) => ((some e, 0), d)
    | some (.ok d) => ((none, bytes.size), d)
    | none => ((none, bytes.size), d)

/-- What becomes of the directory when a file has been made in it, or has not. -/
def opened (d : Directory) :
    Except FileError (Place × Directory) → Except FileError Place × Directory
  | .error e => (.error e, d)
  | .ok (place, d) => (.ok place, d)

/-- The directory as a system that a command can run on. -/
def system : System (StateM Directory) where
  Handle := Place
  read name := do return (← get).read name
  create name := fun d => d.opened (d.create name)
  write place bytes := fun d => d.write bytes place
  print bytes := modifyGet fun d => (none, { d with printed := d.printed ++ bytes })
  flush := pure none
  complain text := modify fun d =>
    { d with complaints := d.complaints ++ complaintLines (text ++ "\n") }

/-- The files that are new or have other contents than before. -/
def changed (before after : Directory) : List (Path × ByteArray) :=
  after.files.filter fun file => before.file? file.1 != some file.2

end Directory

end Slate.CommandLine
