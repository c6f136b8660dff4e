import Slate.Toml.Number
import Slate.Toml.Token

/-!
# Documents of TOML

A document is a sequence of tables: the entries before the first header, and
for each header the entries behind it.  An entry is a dotted key and a value.
Entries are kept in the order they are written; a dotted key makes tables on
its way.

Values are kept as far as a settings file needs them: strings, truth values
and tables.  Numbers, dates and times are read and then forgotten.

Every reader here takes the tokens that are left and answers with fewer, or
at least no more; the bound that they recur on is the number of tokens at the
start.
-/

namespace Slate.Toml

/-- A value, or the table that dotted keys make (`dotted`). -/
inductive Value where
  | string (text : List Char)
  | bool (value : Bool)
  | number
  | moment
  | array
  | table (dotted : Bool) (entries : List (List Char × Value))
deriving Inhabited

/-- The entries of a table. -/
abbrev Entries := List (List Char × Value)

/-- A table of the document: its header, whether the header stands in double
brackets, and its entries. -/
structure Table where
  header : List (List Char)
  isElement : Bool
  entries : Entries

/-- Passes blanks. -/
def skipBlanks : List Token → List Token
  | .blank _ :: rest => skipBlanks rest
  | ts => ts

/-- Passes the end of a line: a comment, if there is one, and a newline or the
end of the text. -/
def lineEnd? (ts : List Token) : Option (List Token) :=
  let ts := match skipBlanks ts with
    | .comment :: rest => rest
    | ts => ts
  match ts with
  | .newline :: rest => some rest
  | [] => some []
  | _ => none

/-- Passes blanks, newlines and comments; a comment must end its line. -/
def skipLines : List Token → Option (List Token)
  | .blank _ :: rest => skipLines rest
  | .newline :: rest => skipLines rest
  | .comment :: .newline :: rest => skipLines rest
  | .comment :: rest => if rest.isEmpty then some [] else none
  | ts => some ts

/-- Reads one part of a key. -/
def readKeyPart : List Token → Option (List Char × List Token)
  | .word text :: rest => some (text, rest)
  | .quoted text false :: rest => some (text, rest)
  | _ => none

/-- Reads a dotted key, with the blanks behind it; the first argument bounds
the number of its parts. -/
def readKey : Nat → List Token → Option (List (List Char) × List Token)
  | 0, _ => none
  | bound + 1, ts => do
    let (part, rest) ← readKeyPart ts
    match skipBlanks rest with
    | .period :: more => do
      let (parts, left) ← readKey bound (skipBlanks more)
      pure (part :: parts, left)
    | left => pure ([part], left)

/-- Puts a value under a dotted key.  A part of the key on the way must be
new or a table that dotted keys have made. -/
def addEntry : List (List Char) → Value → Entries → Option Entries
  | [], _, _ => none
  | [key], value, entries => some (entries ++ [(key, value)])
  | key :: keys, value, entries =>
    match entries.findIdx? (·.1 = key) with
    | some i =>
      match entries[i]? with
      | some (_, .table true inner) =>
        (addEntry keys value inner).map fun inner => entries.set i (key, .table true inner)
      | _ => none
    | none => (addEntry keys value []).map fun inner => entries ++ [(key, .table true inner)]

/-- Reads a word after an optional token. -/
def wordAfter (mark : Token) : List Token → Option (Option (List Char) × List Token)
  | t :: rest =>
    if t = mark then
      match rest with
      | .word text :: left => some (some text, left)
      | _ => none
    else some (none, t :: rest)
  | [] => some (none, [])

/-- Passes the rest of a date or time whose first word has been read: an hour
behind one space, then minutes, seconds, a fraction and an offset. -/
def skipMoment (colonPassed : Bool) (ts : List Token) : Option (List Token) := do
  let ts := match ts with
    | .blank true :: .word _ :: rest => rest
    | ts => ts
  let (inTime, ts) := match colonPassed, ts with
    | false, .colon :: rest => (true, rest)
    | passed, ts => (passed, ts)
  if !inTime then some ts
  else
    match ts with
    | .word _ :: .colon :: .word _ :: rest => do
      let (_, rest) ← wordAfter .period rest
      let (_, rest) ← wordAfter .plus rest
      let (_, rest) ← wordAfter .colon rest
      pure rest
    | _ => none

/-- Reads the exponent of a float from what is left of a word; the plus sign of
an exponent is a token of its own. -/
def readExponent (suffix : List Char) (ts : List Token) :
    Option (Bool × List Char × List Token) :=
  match suffix with
  | [] => some (false, ['0'], ts)
  | e :: digits =>
    if e ≠ 'e' ∧ e ≠ 'E' then none
    else if digits.isEmpty then
      match ts with
      | .plus :: .word text :: rest => plain text rest
      | .word text :: rest => plain text rest
      | _ => none
    else
      match takeDecimal true true digits with
      | some (negative, ds, []) => some (negative, ds, ts)
      | _ => none
where
  plain (text : List Char) (rest : List Token) : Option (Bool × List Char × List Token) :=
    match takeDecimal false true text with
    | some (_, ds, []) => some (false, ds, rest)
    | _ => none

/-- Passes a float whose first word has been read. -/
def skipFloat (word : List Char) (fraction : Option (List Char)) (ts : List Token) :
    Option (List Token) := do
  let (_, whole, suffix) ← takeDecimal true false word
  let (fraction, suffix) ← match fraction with
    | none => some ([], suffix)
    | some text =>
      if !suffix.isEmpty then none
      else (takeDecimal false true text).map fun (_, ds, left) => (ds, left)
  let (negative, exponent, rest) ← readExponent suffix ts
  if isFloat whole fraction negative exponent then some rest else none

/-- Passes a number whose first word has been read. -/
def skipNumber (word : List Char) (ts : List Token) : Option (List Token) :=
  let mark := word.take 2
  if mark = ['0', 'x'] ∨ mark = ['0', 'o'] ∨ mark = ['0', 'b'] then
    if isInteger word then some ts else none
  else if 'e' ∈ word ∨ 'E' ∈ word then skipFloat word none ts
  else
    match ts with
    | .period :: rest =>
      match rest with
      | .word fraction :: left => skipFloat word (some fraction) left
      | _ => none
    | _ =>
      if word = "inf".toList ∨ word = "-inf".toList ∨ word = "nan".toList ∨
          word = "-nan".toList ∨ isInteger word then some ts
      else none

/-- Whether a word starts a date: it has a `T`, or a dash that is no sign. -/
def startsMoment (word : List Char) : Bool :=
  'T' ∈ word || 't' ∈ word ||
    ('-' ∈ word.drop 1 && !(hasPair 'e' word) && !(hasPair 'E' word))
where
  hasPair (e : Char) (word : List Char) : Bool :=
    (word.zip (word.drop 1)).any fun pair => pair.1 = e && pair.2 = '-'

/-- Reads a value that starts with a bare word. -/
def readBare (word : List Char) (ts : List Token) : Option (Value × List Token) :=
  if word = "true".toList then some (.bool true, ts)
  else if word = "false".toList then some (.bool false, ts)
  else
    let isNumeric := match word with
      | c :: _ => c = '-' || c.isDigit || word = "inf".toList || word = "nan".toList
      | [] => false
    if !isNumeric then none
    else if startsMoment word then (skipMoment false ts).map fun rest => (.moment, rest)
    else
      match ts with
      | .colon :: rest => (skipMoment true rest).map fun rest => (.moment, rest)
      | _ => (skipNumber word ts).map fun rest => (.number, rest)

mutual

/-- Reads a value; the first argument bounds the depth and length of what is
read. -/
def readValue : Nat → List Token → Option (Value × List Token)
  | 0, _ => none
  | bound + 1, ts =>
    match ts with
    | .quoted text _ :: rest => some (.string text, rest)
    | .word word :: rest => readBare word rest
    | .plus :: .word word :: rest => (skipNumber word rest).map fun rest => (.number, rest)
    | .leftBracket :: rest => (readItems bound rest).map fun rest => (.array, rest)
    | .leftBrace :: rest =>
      match skipBlanks rest with
      | .rightBrace :: left => some (.table false [], left)
      | inner => (readInline bound [] inner).map fun (entries, rest) => (.table false entries, rest)
    | _ => none

/-- Passes the items of an array through its closing bracket. -/
def readItems : Nat → List Token → Option (List Token)
  | 0, _ => none
  | bound + 1, ts => do
    match ← skipLines ts with
    | .rightBracket :: rest => pure rest
    | item =>
      let (_, rest) ← readValue bound item
      match ← skipLines rest with
      | .comma :: more => readItems bound more
      | .rightBracket :: left => pure left
      | _ => none

/-- Reads the entries of an inline table through its closing brace. -/
def readInline : Nat → Entries → List Token → Option (Entries × List Token)
  | 0, _, _ => none
  | bound + 1, entries, ts => do
    let (key, rest) ← readKey bound ts
    match rest with
    | .equals :: more =>
      let (value, rest) ← readValue bound (skipBlanks more)
      let entries ← addEntry key value entries
      match skipBlanks rest with
      | .rightBrace :: left => pure (entries, left)
      | .comma :: more => readInline bound entries (skipBlanks more)
      | _ => none
    | _ => none

end

/-- Reads the parts of a header through its closing brackets and the end of the
line. -/
def readHeader (bound : Nat) (ts : List Token) :
    Option (List (List Char) × Bool × List Token) := do
  let (isElement, ts) := match ts with
    | .leftBracket :: rest => (true, rest)
    | ts => (false, ts)
  let (header, rest) ← readKey bound (skipBlanks ts)
  match isElement, rest with
  | false, .rightBracket :: left => (lineEnd? left).map fun left => (header, false, left)
  | true, .rightBracket :: .rightBracket :: left =>
    (lineEnd? left).map fun left => (header, true, left)
  | _, _ => none

/-- Reads the lines of a document.  `current` is the table that entries go to,
if there is one. -/
def readLines : Nat → Option Table → List Token → Option (List Table)
  | 0, _, _ => none
  | bound + 1, current, ts => do
    match ← skipLines ts with
    | [] => pure current.toList
    | .leftBracket :: rest =>
      let (header, isElement, left) ← readHeader bound rest
      let tables ← readLines bound (some ⟨header, isElement, []⟩) left
      pure (current.toList ++ tables)
    | entry =>
      let (key, rest) ← readKey bound entry
      match rest with
      | .equals :: more =>
        let (value, rest) ← readValue bound (skipBlanks more)
        let left ← lineEnd? rest
        let table := current.getD ⟨[], false, []⟩
        let entries ← addEntry key value table.entries
        readLines bound (some { table with entries := entries }) left
      | _ => none

/-- The tables that are written in a text, if it can be read. -/
def readTables? (source : String) : Option (List Table) := do
  let ts ← tokens? source
  readLines (2 * ts.length + 2) none ts

end Slate.Toml
