import Slate.CommandLine.Pattern
import Slate.CommandLine.System
import Slate.Text.Alphanumeric
import Slate.Text.Characters

/-!
# Filters of messages

Which messages are shown is decided by a filter, a text of directives with
commas between them.  A directive is a level, or a target with a level behind
an equals sign, or a target alone, which is then shown in full.  Between the
target and the level there may be brackets with the name of a span of time and,
in braces, the name of a value and what it should be:

    target[span{name=value}]=level

A directive sets the greatest level shown of the messages that it fits.  There
are no spans of time here, and values are not looked at while a message is
filtered; so a directive that asks for either fits no message.  Of those that
fit, the one with the longest target decides, then one that asks for a name;
among equals the name that comes last in the order of text, and of two alike
the later one.  Without any directive a default level holds.

Blanks around a directive do not belong to its shape, but they are not taken
away: places in it are counted from the first character that is not blank, and
the pieces are cut at the same places out of the directive as it is written
(`Written`).  So a blank in front shifts every piece, and a blank behind belongs
to the last one.

This is how the library behaves that the command leaves the filtering to.
-/

namespace Slate.CommandLine

/-- What a directive asks of a value: that there is one of the name, and
perhaps what it should be. -/
structure FieldQuery where
  name : String
  hasValue : Bool
deriving DecidableEq

/-- A directive. -/
structure Directive where
  target : Option String
  span : Option String
  field : Option FieldQuery
  shown : Nat
deriving DecidableEq

/-- Why a directive is refused. -/
inductive FilterFault where
  | shape
  | level
  | field (fault : PatternFault)
deriving DecidableEq

/-- The wording of each reason. -/
def FilterFault.message : FilterFault → String
  | shape => "invalid filter directive"
  | level =>
    "error parsing level filter: expected one of \"off\", \"error\", \"warn\", \"info\", " ++
      "\"debug\", \"trace\", or a number 0-5"
  | field fault => "invalid field filter: " ++ fault.message

/-! ## Levels -/

/-- The value of a text of decimal digits, which a plus sign may come before. -/
def unsigned? (text : List Char) : Option Nat :=
  let digits := match text with
    | '+' :: rest => rest
    | cs => cs
  if digits.isEmpty || !digits.all Char.isDigit then none
  else some (digits.foldl (fun n c => 10 * n + (c.toNat - '0'.toNat)) 0)

/-- The number of the level that is named so, in any case of letters. -/
def levelNamed? (name : List Char) : Option Nat :=
  let lower := name.map Char.toLower
  if lower = "off".toList then some 0
  else if lower = "error".toList then some 1
  else if lower = "warn".toList then some 2
  else if lower = "info".toList then some 3
  else if lower = "debug".toList then some 4
  else if lower = "trace".toList then some 5
  else none

/-- The number that shows everything. -/
def everything : Nat := 5

/-- The number of the level that a name or a number stands for. -/
def levelNumber? (text : List Char) : Option Nat :=
  match unsigned? text with
  | some n => if n ≤ everything then some n else none
  | none => levelNamed? text

/-! ## Places in a directive -/

/-- The number of bytes of a text. -/
def byteLength (cs : List Char) : Nat := (cs.map Char.utf8Size).foldr (· + ·) 0

/-- A text without the blanks at its ends. -/
def trimmed (cs : List Char) : List Char :=
  ((cs.dropWhile Text.isBlank).reverse.dropWhile Text.isBlank).reverse

/-- Cuts a text after so many bytes, unless that is inside a character. -/
def splitBytes : Nat → List Char → Option (List Char × List Char)
  | 0, cs => some ([], cs)
  | _ + 1, [] => none
  | n + 1, c :: cs =>
    if n + 1 < c.utf8Size then none
    else (splitBytes (n + 1 - c.utf8Size) cs).map fun (before, behind) => (c :: before, behind)

/-- A directive as it is written. -/
abbrev Written := List Char

/-- The piece from one place on. -/
def Written.behind (w : Written) (start : Nat) : Except FilterFault (List Char) :=
  match splitBytes start w with
  | some (_, piece) => .ok piece
  | none => .error .shape

/-- The piece between two places. -/
def Written.between (w : Written) (start stop : Nat) : Except FilterFault (List Char) := do
  match splitBytes (stop - start) (← w.behind start) with
  | some (piece, _) => pure piece
  | none => throw .shape

/-! ## Reading directives -/

/-- Whether a directive can start with the character. -/
def startsDirective (c : Char) : Bool :=
  Text.isAlphanumeric c || c = '-' || c = ':' || c = '_'

/-- Reads the level from a place on; without one everything is shown. -/
def Written.levelAt (w : Written) (start : Nat) : Except FilterFault Nat := do
  let text ← w.behind start
  if text.isEmpty then pure everything
  else
    match levelNumber? text with
    | some n => pure n
    | none => throw .level

/-- Reads what stands behind the closing bracket. -/
def Written.afterBracket (w : Written) (start : Nat) (rest : List Char) :
    Except FilterFault Nat :=
  match rest with
  | [] => .ok everything
  | '=' :: _ => w.levelAt (start + 1)
  | _ => .error .shape

/-- What the text between braces asks for.  What the value should be reaches to
the next equals sign; if it is no truth value and no number, it is a pattern. -/
def FieldQuery.parse (text : List Char) : Except FilterFault FieldQuery :=
  let name := String.ofList (text.takeWhile (· ≠ '='))
  match text.dropWhile (· ≠ '=') with
  | [] => .ok ⟨name, false⟩
  | _ :: rest =>
    let value := rest.takeWhile (· ≠ '=')
    if value = "true".toList ∨ value = "false".toList ∨ Pattern.isNumber value then
      .ok ⟨name, true⟩
    else
      match Pattern.faultOf? value with
      | some fault => .error (.field fault)
      | none => .ok ⟨name, true⟩

/-- Reads the query of a value; `start` is the place behind the opening
brace.  The last answers are what is left and its place. -/
def Written.fieldAt (w : Written) (start : Nat) (rest : List Char) :
    Except FilterFault (FieldQuery × Nat × List Char) := do
  let inner := rest.takeWhile (· ≠ '\x7d')
  let stop := start + byteLength inner
  if inner.isEmpty then throw .shape
  match rest.dropWhile (· ≠ '\x7d') with
  | _ :: behind => do
    let field ← FieldQuery.parse (← w.between start stop)
    match behind with
    | ']' :: left => pure (field, stop + 2, left)
    | _ => throw .shape
  | [] => throw .shape

/-- Reads the brackets and what is behind them; `start` is the place behind the
opening one. -/
def Written.spanAt (w : Written) (target : Option String) (start : Nat) (rest : List Char) :
    Except FilterFault Directive := do
  let isName (c : Char) : Bool := c ≠ ']' && c ≠ '\x7b'
  let stop := start + byteLength (rest.takeWhile isName)
  let name ← w.between start stop
  match rest.dropWhile isName with
  | ']' :: left => do
    let shown ← w.afterBracket (stop + 1) left
    pure ⟨target, some (String.ofList name), none, shown⟩
  | '\x7b' :: inner => do
    let (field, place, left) ← w.fieldAt (stop + 1) inner
    let shown ← w.afterBracket place left
    let span := if name.isEmpty then none else some (String.ofList name)
    pure ⟨target, span, some field, shown⟩
  | _ => throw .shape

/-- Reads a directive. -/
def Directive.parse (w : Written) : Except FilterFault Directive :=
  let shape := trimmed w
  match shape with
  | [] => .error .shape
  | c :: rest =>
    if c = '[' then w.spanAt none 1 rest
    else if !startsDirective c then .error .shape
    else
      let isTarget (c : Char) : Bool := c ≠ '=' && c ≠ '['
      let stop := byteLength (shape.takeWhile isTarget)
      match shape.dropWhile isTarget with
      | [] =>
        match levelNumber? w with
        | some n => .ok ⟨none, none, none, n⟩
        | none => .ok ⟨some (String.ofList w), none, none, everything⟩
      | mark :: behind => do
        let target := String.ofList (← w.between 0 stop)
        if mark = '=' then
          let shown ← w.levelAt (stop + 1)
          pure ⟨some target, none, none, shown⟩
        else w.spanAt (some target) (stop + 1) behind

/-- The directives of a filter text as they are written. -/
def writtenDirectives (text : String) : List Written :=
  ((text.splitOn ",").map String.toList).filter (!·.isEmpty)

/-- What is said about a directive that is refused. -/
def refusal? (w : Written) : Option String :=
  match Directive.parse w with
  | .ok _ => none
  | .error fault => some ("ignoring `" ++ String.ofList w ++ "`: " ++ fault.message)

/-- What is said about the directives of a filter text that are refused. -/
def refusals (text : String) : List String :=
  (writtenDirectives text).filterMap refusal?

/-! ## Filters -/

/-- A filter is the directives in their order. -/
structure Filter where
  directives : List Directive
deriving DecidableEq

namespace Directive

/-- The directive that shows all messages up to a level. -/
def upTo (level : Level) : Directive := ⟨none, none, none, level.number⟩

/-- Whether a directive fits a message. -/
def fits (d : Directive) (m : Message) : Bool :=
  d.span.isNone &&
    (d.target.all fun target => target.toList.isPrefixOf m.target.toList) &&
    (d.field.all fun field => !field.hasValue && m.has field.name)

/-- The length by which targets are compared; no target is shorter than any. -/
def weight (d : Directive) : Nat :=
  match d.target with
  | none => 0
  | some target => target.length + 1

/-- Whether of two directives that fit a message the second decides, when it
also comes later. -/
def yieldsTo (d later : Directive) : Bool :=
  if d.weight ≠ later.weight then d.weight < later.weight
  else
    match d.field, later.field with
    | none, _ => true
    | some _, none => false
    | some a, some b => !(b.name < a.name)

end Directive

namespace Filter

/-- The filter of a text, with a level for when the text has no directive. -/
def ofText (text : String) (fallback : Level) : Filter :=
  let directives := (writtenDirectives text).filterMap fun w => (Directive.parse w).toOption
  if directives.isEmpty then ⟨[.upTo fallback]⟩ else ⟨directives⟩

/-- The directive that decides about a message. -/
def deciding? (filter : Filter) (m : Message) : Option Directive :=
  (filter.directives.filter (·.fits m)).foldl (fun best d =>
    match best with
    | none => some d
    | some b => if b.yieldsTo d then some d else some b) none

/-- Whether a message is shown. -/
def shows (filter : Filter) (m : Message) : Bool :=
  (filter.deciding? m).any fun d => m.level.number ≤ d.shown

/-- What is made of a filter text. -/
def listen (text : String) (fallback : Level) : Listening :=
  ⟨refusals text, (ofText text fallback).shows⟩

end Filter

end Slate.CommandLine
