import Slate.Text.Alphanumeric
import Slate.Text.Characters

/-!
# Patterns

What a directive asks of a value is a truth value, a number, or a pattern in
the notation of regular expressions.  Nothing is ever matched against a
pattern here; what matters is whether it is one (`faultOf?`).

A pattern is read by steps that each take at least one character off the front.
`Reading` is what has to be known between two steps: the modes that flags have
switched, those that held outside the groups that are open, how many brackets
are open, and whether there is something that can be repeated.

Inside of brackets the first characters are special: a caret makes the class of
the other characters, dashes stand for themselves, and so does a closing bracket
that comes before all else (`Front`).

A pattern that is well formed can still be refused, when it asks for the edges
of words in the sense of all alphabets.
-/

namespace Slate.CommandLine

/-- What is wrong with a pattern. -/
inductive PatternFault where
  | malformed
  | wordEdge
deriving DecidableEq

/-- The wording of each fault. -/
def PatternFault.message : PatternFault → String
  | malformed => "error building NFA"
  | wordEdge =>
    "unsupported regex feature for DFAs: cannot build DFAs for regexes with Unicode word " ++
      "boundaries; switch to ASCII word boundaries, or heuristically enable Unicode word " ++
      "boundaries or use a different regex engine"

namespace Pattern

/-! ## Numbers -/

/-- What is left behind decimal digits, and whether there was one. -/
def passDigits (cs : List Char) : Bool × List Char :=
  (cs.head?.any Char.isDigit, cs.dropWhile Char.isDigit)

/-- Whether a text is an exponent or nothing. -/
def isExponent : List Char → Bool
  | [] => true
  | e :: rest =>
    let digits := match rest with
      | '+' :: more => more
      | '-' :: more => more
      | more => more
    (e = 'e' || e = 'E') && passDigits digits = (true, [])

/-- Whether a text is a number without a sign: digits with a point among or
around them, and perhaps an exponent; or one of the names of what is no finite
number, in any case of letters. -/
def isUnsigned (cs : List Char) : Bool :=
  let (whole, rest) := passDigits cs
  let (fraction, rest) := match rest with
    | '.' :: more => passDigits more
    | more => (false, more)
  let lower := cs.map Char.toLower
  (whole || fraction) && isExponent rest || lower = "inf".toList ||
    lower = "infinity".toList || lower = "nan".toList

/-- Whether a text is a number. -/
def isNumber : List Char → Bool
  | '+' :: rest => isUnsigned rest
  | '-' :: rest => isUnsigned rest
  | cs => isUnsigned cs

/-- A sign alone is no number. -/
example : isNumber "+1.5e-3".toList = true ∧ isNumber "+".toList = false := by decide

/-! ## Modes -/

/-- The modes that matter for the shape of a pattern: in `spaced` mode blanks and
remarks between its parts are passed; in `bytewise` mode a class holds bytes, and
must not hold one that no character is made of alone. -/
structure Modes where
  spaced : Bool
  bytewise : Bool
deriving DecidableEq

namespace Modes

/-- What is left behind blanks and remarks, which reach to the end of the line. -/
def passSpace (inRemark : Bool) : List Char → List Char
  | [] => []
  | c :: rest =>
    if inRemark then passSpace (c ≠ '\n') rest
    else if Text.isBlank c then passSpace false rest
    else if c = '#' then passSpace true rest
    else c :: rest

/-- What is left behind blanks, if they do not count. -/
def pass (m : Modes) (cs : List Char) : List Char :=
  if m.spaced then passSpace false cs else cs

/-- The modes after flags; those behind a dash are switched off. -/
def switch (m : Modes) (flags : List Char) : Modes :=
  let on := flags.takeWhile (· ≠ '-')
  let off := flags.dropWhile (· ≠ '-')
  ⟨('x' ∈ on) || (m.spaced && !('x' ∈ off)), ('u' ∈ off) || (m.bytewise && !('u' ∈ on))⟩

end Modes

/-! ## Single parts -/

/-- The kinds of single parts: a character, one of several characters, a place, and
the edge of a word. -/
inductive Part where
  | literal (c : Char)
  | oneOf
  | anchor
  | wordEdge
deriving DecidableEq

/-- Reads so many hexadecimal digits. -/
def readHex (m : Modes) : Nat → Nat → List Char → Option (Nat × List Char)
  | 0, value, cs => some (value, cs)
  | count + 1, value, cs =>
    match m.pass cs with
    | c :: rest => do readHex m count (16 * value + (← Text.hexDigit? c)) rest
    | [] => none

/-- The character that so many hexadecimal digits name.  Two digits name a byte
in bytewise mode. -/
def readCode (m : Modes) (count : Nat) (cs : List Char) : Option (Part × List Char) := do
  let (code, rest) ← readHex m count 0 cs
  if !code.isValidChar || (m.bytewise && count = 2 && 0x80 ≤ code) then none
  else some (.literal (Char.ofNat code), rest)

/-- The control character that a letter behind a backslash stands for. -/
def control? : Char → Option Char
  | 'a' => some '\x07'
  | 'f' => some '\x0c'
  | 'n' => some '\n'
  | 'r' => some '\r'
  | 't' => some '\t'
  | 'v' => some '\x0b'
  | _ => none

/-- Reads what stands behind a backslash. -/
def readEscape (m : Modes) : List Char → Option (Part × List Char)
  | [] => none
  | c :: rest =>
    if c = 'x' then readCode m 2 rest
    else if c = 'u' then readCode m 4 rest
    else if c = 'U' then readCode m 8 rest
    else if c = 'p' ∨ c = 'P' then
      match m.pass rest with
      | letter :: left =>
        if !m.bytewise && letter ∈ "CLMNPSZclmnpsz".toList then some (.oneOf, left) else none
      | [] => none
    else if c ∈ "dsw".toList then some (.oneOf, rest)
    else if c ∈ "DSW".toList then if m.bytewise then none else some (.oneOf, rest)
    else if c ∈ "Az".toList then some (.anchor, rest)
    else if c ∈ "bB<>".toList then some (.wordEdge, rest)
    else
      match control? c with
      | some control => some (.literal control, rest)
      | none =>
        if c.isAlphanum || 0x80 ≤ c.toNat then none else some (.literal c, rest)

/-! ## Reading patterns -/

/-- How much of the front of a bracket has been read: nothing; a caret; dashes
that stand for themselves; or all of it. -/
inductive Front where
  | untouched
  | caret
  | dashes
  | passed
deriving DecidableEq

/-- What has to be known of a pattern that is read up to some place. -/
structure Reading where
  modes : Modes
  outer : List Modes
  names : List (List Char)
  brackets : Nat
  front : Front
  repeatable : Bool
  asksWordEdge : Bool
deriving DecidableEq

namespace Reading

/-- Nothing has been read. -/
def start : Reading := ⟨⟨false, false⟩, [], [], 0, .passed, false, false⟩

/-- Behind a part that can be repeated. -/
def atPart (r : Reading) : Reading := { r with repeatable := true }

/-- Within a further group, of which the modes are given. -/
def entered (r : Reading) (modes : Modes) : Reading :=
  { r with modes := modes, outer := r.modes :: r.outer, repeatable := false }

/-- Whether a character may stand in the name of a group. -/
def isNameChar (c : Char) : Bool := c ∈ "_.[]".toList || Text.isAlphanumeric c

/-- Whether a text is a name for a group. -/
def isName : List Char → Bool
  | [] => false
  | c :: rest =>
    (c = '_' || (Text.isAlphanumeric c && !c.isDigit)) && rest.all isNameChar

/-- Enters a group with a name, of which the opening angle has been read. -/
def openNamed (r : Reading) (cs : List Char) : Option (Reading × List Char) :=
  let name := cs.takeWhile (· ≠ '>')
  match cs.dropWhile (· ≠ '>') with
  | _ :: rest =>
    if isName name && !(name ∈ r.names) then
      some ({ r with names := name :: r.names }.entered r.modes, rest)
    else none
  | [] => none

/-- Reads flags, which hold for the group that they open or, if a closing
parenthesis ends them, for what is left of the present one. -/
def openFlags (r : Reading) (cs : List Char) : Option (Reading × List Char) :=
  let isFlag (c : Char) : Bool := c ≠ ':' && c ≠ ')'
  let flags := cs.takeWhile isFlag
  if !(flags.all (· ∈ "-imsUuRx".toList)) || !flags.Nodup || flags.getLast? = some '-' then none
  else
    match cs.dropWhile isFlag with
    | ':' :: rest => some (r.entered (r.modes.switch flags), rest)
    | ')' :: rest =>
      if flags.isEmpty then none
      else some ({ r with modes := r.modes.switch flags, repeatable := false }, rest)
    | _ => none

/-- Enters a group, of which the parenthesis has been read. -/
def openGroup (r : Reading) (cs : List Char) : Option (Reading × List Char) :=
  match r.modes.pass cs with
  | '?' :: 'P' :: '<' :: rest => r.openNamed rest
  | '?' :: '<' :: rest => r.openNamed rest
  | '?' :: rest => r.openFlags rest
  | rest => some (r.entered r.modes, rest)

/-- Leaves a group. -/
def closeGroup (r : Reading) : Option Reading :=
  match r.outer with
  | modes :: outer => some { r with modes := modes, outer := outer, repeatable := true }
  | [] => none

/-- Opens a bracket. -/
def openBracket (r : Reading) : Reading :=
  { r with brackets := r.brackets + 1, front := .untouched }

/-- Closes a bracket. -/
def closeBracket (r : Reading) : Reading :=
  { r with brackets := r.brackets - 1, repeatable := true }

/-- Reads a part outside of brackets. -/
def stepOutside (r : Reading) (c : Char) (rest : List Char) : Option (Reading × List Char) :=
  match c with
  | '(' => r.openGroup rest
  | ')' => r.closeGroup.map (·, rest)
  | '|' => some ({ r with repeatable := false }, rest)
  | '[' => some (r.openBracket, rest)
  | '\x7b' => none
  | '\\' => do
    let (part, left) ← readEscape r.modes rest
    let isEdge := part = .wordEdge && !r.modes.bytewise
    pure ({ r with asksWordEdge := r.asksWordEdge || isEdge }.atPart, left)
  | '.' => if r.modes.bytewise then none else some (r.atPart, rest)
  | _ =>
    if c = '?' ∨ c = '*' ∨ c = '+' then
      if r.repeatable then some (r, if rest.head? = some '?' then rest.drop 1 else rest) else none
    else some (r.atPart, rest)

/-- The names of classes within brackets. -/
def classNames : List (List Char) :=
  ["alnum", "alpha", "ascii", "blank", "cntrl", "digit", "graph", "lower", "print", "punct",
    "space", "upper", "word", "xdigit"].map String.toList

/-- What is left behind a named class, of which the bracket has been read. -/
def passNamed? : List Char → Option (List Char)
  | ':' :: cs =>
    let cs := match cs with
      | '^' :: rest => rest
      | rest => rest
    match cs.dropWhile (· ≠ ':') with
    | ':' :: ']' :: left => if cs.takeWhile (· ≠ ':') ∈ classNames then some left else none
    | _ => none
  | _ => none

/-- Reads a member of a class. -/
def readMember (m : Modes) (c : Char) (rest : List Char) : Option (Part × List Char) := do
  let (part, left) ← if c = '\\' then readEscape m rest else some (.literal c, rest)
  match part with
  | .literal member => if m.bytewise && 0x80 ≤ member.toNat then none else some (part, left)
  | .oneOf => some (part, left)
  | .anchor => none
  | .wordEdge => none

/-- Reads a member of a class or a range of them, whose ends must be characters
in their order. -/
def readRange (m : Modes) (c : Char) (rest : List Char) : Option (List Char) := do
  let (first, left) ← readMember m c rest
  match m.pass left with
  | [] => none
  | '-' :: more =>
    match m.pass more with
    | [] => none
    | d :: behind =>
      if d = ']' ∨ d = '-' then some left
      else
        match first, ← readMember m d behind with
        | .literal low, (.literal high, left) => if low ≤ high then some left else none
        | _, _ => none
  | _ => some left

/-- Reads a part within brackets, behind their front. -/
def stepInside (r : Reading) (c : Char) (rest : List Char) : Option (Reading × List Char) :=
  let r := { r with front := .passed }
  if c = '[' then
    match passNamed? rest with
    | some left => some (r, left)
    | none => some (r.openBracket, rest)
  else if c = ']' then some (r.closeBracket, rest)
  else if (c = '&' ∨ c = '-' ∨ c = '~') ∧ rest.head? = some c then some (r, rest.drop 1)
  else (readRange r.modes c rest).map (r, ·)

/-- Reads a part within brackets. -/
def stepBracket (r : Reading) (c : Char) (rest : List Char) : Option (Reading × List Char) :=
  match r.front, c with
  | .untouched, '^' => if r.modes.bytewise then none else some ({ r with front := .caret }, rest)
  | .untouched, ']' => some ({ r with front := .passed }, rest)
  | .caret, ']' => some ({ r with front := .passed }, rest)
  | .passed, _ => r.stepInside c rest
  | _, '-' => some ({ r with front := .dashes }, rest)
  | _, _ => r.stepInside c rest

/-- Reads a part. -/
def step (r : Reading) (c : Char) (rest : List Char) : Option (Reading × List Char) :=
  if r.brackets = 0 then r.stepOutside c rest else r.stepBracket c rest

/-- Whether a pattern may end here. -/
def isFinished (r : Reading) : Bool := r.outer.isEmpty && r.brackets = 0

/-- Reads to the end of a pattern; the first argument bounds the steps.  As a
step takes a character at least, the length of the pattern is enough. -/
def run : Nat → Reading → List Char → Option Reading
  | bound, r, cs =>
    match bound, r.modes.pass cs with
    | _, [] => if r.isFinished then some r else none
    | 0, _ :: _ => none
    | bound + 1, c :: rest => do
      let (r, left) ← r.step c rest
      run bound r left

end Reading

/-- What is wrong with the pattern that a text is meant to be. -/
def faultOf? (text : List Char) : Option PatternFault :=
  match Reading.start.run text.length text with
  | none => some .malformed
  | some r => if r.asksWordEdge then some .wordEdge else none

/-- A bracket that comes first in a class belongs to it, and a class can be
repeated. -/
example : faultOf? "a*|[^]b-d]+".toList = none := by decide

/-- There must be something to repeat. -/
example : faultOf? "a|*".toList = some .malformed := by decide

/-- A group must be closed. -/
example : faultOf? "(a".toList = some .malformed := by decide

/-- Edges of words are only known for bytes. -/
example : faultOf? "\\b".toList = some .wordEdge ∧ faultOf? "(?-u)\\b".toList = none := by decide

end Pattern

end Slate.CommandLine
