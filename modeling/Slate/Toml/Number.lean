import Slate.Text.Characters

/-!
# Numbers of TOML

Which bare words are numbers.  Digits may be grouped by single underscores
between them; a decimal number may have a sign and no leading zeros; and
integers must fit into 64 bits, floats into the range of double precision.

Only whether a word is a number is asked here: no setting is a number.
-/

namespace Slate.Toml

/-- Digits of a radix with underscores between them, cut off the front of a
word: the digits, and what is left.  There must be a digit, and an underscore
only between digits. -/
def takeDigits (isDigit : Char → Bool) : List Char → Option (List Char × List Char)
  | [] => none
  | c :: '_' :: rest =>
    if isDigit c then (takeDigits isDigit rest).map fun (ds, left) => (c :: ds, left) else none
  | c :: rest =>
    if !isDigit c then none
    else if rest.head?.any isDigit then
      (takeDigits isDigit rest).map fun (ds, left) => (c :: ds, left)
    else some ([c], rest)

/-- A decimal number cut off the front of a word: whether it is negative, its
digits, and what is left. -/
def takeDecimal (signed leadingZeros : Bool) (word : List Char) :
    Option (Bool × List Char × List Char) := do
  let (negative, unsigned) := match word with
    | '-' :: rest => if signed then (true, rest) else (false, word)
    | '+' :: rest => if signed then (false, rest) else (false, word)
    | _ => (false, word)
  let (digits, left) ← takeDigits Char.isDigit unsigned
  match digits with
  | '0' :: _ :: _ => if leadingZeros then some (negative, digits, left) else none
  | _ => some (negative, digits, left)

/-- The number that digits denote. -/
def digitsValue (radix : Nat) (digits : List Char) : Nat :=
  digits.foldl (fun n c =>
    radix * n + (if c.isDigit then c.toNat - '0'.toNat else c.toLower.toNat - 'a'.toNat + 10)) 0

/-- Whether a word of another radix, without its mark, is a 64-bit integer. -/
def isRadixInteger (radix : Nat) (isDigit : Char → Bool) (word : List Char) : Bool :=
  match takeDigits isDigit word with
  | some (digits, []) => digitsValue radix digits < Nat.pow 2 63
  | _ => false

/-- Whether a character is a hexadecimal digit. -/
def isHexDigit (c : Char) : Bool := (Text.hexDigit? c).isSome

/-- Whether a word is a 64-bit integer. -/
def isInteger (word : List Char) : Bool :=
  match word with
  | '0' :: 'x' :: rest => isRadixInteger 16 isHexDigit rest
  | '0' :: 'o' :: rest => isRadixInteger 8 (fun c => '0' ≤ c && c ≤ '7') rest
  | '0' :: 'b' :: rest => isRadixInteger 2 (fun c => c = '0' || c = '1') rest
  | _ =>
    match takeDecimal true false word with
    | some (negative, digits, []) =>
      digitsValue 10 digits < Nat.pow 2 63 + (if negative then 1 else 0)
    | _ => false

/-- Whether digits, shifted by a power of ten, stay below what rounds to
infinity in double precision. -/
def isFinite (digits : List Char) (exponent : Int) : Bool :=
  let n := digitsValue 10 digits
  let magnitude := (Nat.toDigits 10 n).length + exponent
  if n = 0 || magnitude < 300 then true
  else if 320 < magnitude then false
  else
    let bound := Nat.pow 2 1024 - Nat.pow 2 970
    if 0 ≤ exponent then n * Nat.pow 10 exponent.toNat < bound
    else n < bound * Nat.pow 10 (-exponent).toNat

/-- Whether a whole part, a fraction and an exponent make a float. -/
def isFloat (whole fraction : List Char) (negativeExponent : Bool) (exponent : List Char) : Bool :=
  let e : Int := digitsValue 10 exponent
  isFinite (whole ++ fraction) ((if negativeExponent then -e else e) - fraction.length)

end Slate.Toml
