import Slate.CommandLine.System
import Slate.Toml.Nesting

/-!
# The settings file

A settings file is a TOML document with two entries that matter: `backend`
chooses what is done with a program, and `verbose` asks for more messages.
Both can be left out, and entries of other names are passed over.

A backend is named by a string, or by a table whose only key is its name and
whose value is an empty table.  A document that consists of the header of such
a table alone will do as well.

This is how the library behaves that the command leaves the reading to, as far as
the settings depend on it; the remarks with which it refuses a text are left out.
-/

namespace Slate.CommandLine

open Slate.Toml

namespace Settings

/-- The backend of a name. -/
def backendNamed? (name : List Char) : Option Backend :=
  if name = "X86".toList then some .assembly
  else if name = "Evaluator".toList then some .evaluation
  else none

/-- The backend that a value names. -/
def backend? : Value → Option Backend
  | .string name => backendNamed? name
  | .table false [(name, .table _ [])] => backendNamed? name
  | _ => none

/-- Entries read so far, each at most once. -/
abbrev Found := Option Backend × Option Bool

/-- Reads the entries that matter. -/
def readEntries (found : Found) : Entries → Option Found
  | [] => some found
  | (key, value) :: rest =>
    if key = "backend".toList then
      match found.1, backend? value with
      | none, some b => readEntries (some b, found.2) rest
      | _, _ => none
    else if key = "verbose".toList then
      match found.2, value with
      | none, .bool b => readEntries (found.1, some b) rest
      | _, _ => none
    else readEntries found rest

/-- The backend that the header of an empty table names, if it is about that. -/
def headerBackend? (table : Table) : Option Backend :=
  match table.header.getLast?, table.entries with
  | some name, [] => backendNamed? name
  | _, _ => none

/-- Reads tables that have headers.  One about a setting is refused, unless it
is the whole document and names a backend. -/
def readTables (alone : Bool) (found : Found) : List Table → Option Found
  | [] => some found
  | table :: rest =>
    match table.header with
    | [] => none
    | key :: _ =>
      if key = "verbose".toList then none
      else if key = "backend".toList then
        if alone then (headerBackend? table).map fun b => (some b, found.2) else none
      else readTables alone found rest

/-- The settings that a document makes. -/
def ofTables? (tables : List Table) : Option Settings := do
  let (top, others) := match tables with
    | table :: rest => if table.header.isEmpty then (table.entries, rest) else ([], tables)
    | [] => ([], [])
  let found ← readEntries (none, none) top
  let (backend, verbose) ← readTables (tables.length = 1) found others
  pure ⟨backend.getD default.backend, verbose.getD default.verbose⟩

/-- The settings that the text of a settings file makes, if it is correct. -/
def parse (source : String) : Except String Settings :=
  match tables? source >>= ofTables? with
  | some settings => .ok settings
  | none => .error ""

end Settings

end Slate.CommandLine
