/-!
# Messages

What the command says about its own work.  A message has a level, a target
that names the part of the command it comes from, a text, and named values.
The text counts as a value named `message` when messages are told apart by the
names of their values.
-/

namespace Slate.CommandLine

/-- How much a message matters, the most important first. -/
inductive Level where
  | error
  | warn
  | info
  | debug
  | trace
deriving DecidableEq

namespace Level

/-- How a level is written. -/
def text : Level → String
  | error => "ERROR"
  | warn => "WARN"
  | info => "INFO"
  | debug => "DEBUG"
  | trace => "TRACE"

/-- The number of a level; a filter shows what its number reaches, and 0 shows
nothing. -/
def number : Level → Nat
  | error => 1
  | warn => 2
  | info => 3
  | debug => 4
  | trace => 5

end Level

/-- A message. -/
structure Message where
  level : Level
  target : String
  text : String
  fields : List (String × String)
deriving DecidableEq

/-- How a message is written: its level, its target, its text and its named
values. -/
def Message.line (m : Message) : String :=
  m.level.text ++ " " ++ m.target ++ ": " ++ m.text ++
    String.join (m.fields.map fun field => " " ++ field.1 ++ "=" ++ field.2)

/-- Whether a message has a value of the name. -/
def Message.has (m : Message) (name : String) : Bool :=
  name = "message" || m.fields.any (·.1 = name)

end Slate.CommandLine
