import Slate.Text.Characters

/-!
# Tokens of TOML

TOML is the format of the settings file.  Its text is cut into tokens: the
punctuation, runs of spaces and tabs, newlines, comments, quoted strings, and
bare words of letters, digits, dashes and underscores.  Numbers and dates are
not tokens; they are put together from bare words and punctuation later.

A carriage return before a newline belongs to it; any other control character
outside a string is refused, and so is a string that does not end.
-/

namespace Slate.Toml

/-- One token.  A blank says whether it is a single space, and a quoted string
whether its quotes were tripled. -/
inductive Token where
  | blank (single : Bool)
  | newline
  | comment
  | equals
  | period
  | comma
  | colon
  | plus
  | leftBrace
  | rightBrace
  | leftBracket
  | rightBracket
  | word (text : List Char)
  | quoted (text : List Char) (multiline : Bool)
deriving DecidableEq

/-- The characters of bare words. -/
def isWordChar (c : Char) : Bool := c.isAlphanum || c = '-' || c = '_'

/-- Newlines without the carriage returns before them. -/
def foldNewlines : List Char → List Char
  | [] => []
  | '\r' :: '\n' :: rest => '\n' :: foldNewlines rest
  | c :: rest => c :: foldNewlines rest

/-- Whether a character may stand in a comment. -/
def isRemark (c : Char) : Bool := c = '\t' || 0x20 ≤ c.toNat

/-- Whether a character may stand in a string as it is. -/
def isPlain (c : Char) : Bool := c = '\t' || (0x20 ≤ c.toNat && c ≠ '\x7f')

/-- The character that exactly `count` hexadecimal digits name, and the text
behind them. -/
def hexChar? (count : Nat) (cs : List Char) : Option (Char × List Char) := do
  let digits := cs.take count
  if digits.length < count then none
  else
    let values ← digits.mapM Text.hexDigit?
    let code := values.foldl (fun n d => 16 * n + d) 0
    if code.isValidChar then some (Char.ofNat code, cs.drop count) else none

/-- What a backslash and the text behind it stand for: characters of the
string, and the text that is left.  In a tripled string a backslash at the end
of a line takes the line end and all blanks behind it away. -/
def escape? (multiline : Bool) : List Char → Option (List Char × List Char)
  | '"' :: rest => some (['"'], rest)
  | '\\' :: rest => some (['\\'], rest)
  | 'b' :: rest => some (['\x08'], rest)
  | 'f' :: rest => some (['\x0c'], rest)
  | 'n' :: rest => some (['\n'], rest)
  | 'r' :: rest => some (['\r'], rest)
  | 't' :: rest => some (['\t'], rest)
  | 'u' :: rest => (hexChar? 4 rest).map fun (c, left) => ([c], left)
  | 'U' :: rest => (hexChar? 8 rest).map fun (c, left) => ([c], left)
  | rest =>
    if multiline then
      match rest.dropWhile fun c => c = ' ' || c = '\t' with
      | '\n' :: left => some ([], left.dropWhile fun c => c = ' ' || c = '\t' || c = '\n')
      | _ => none
    else none

/-- Takes up to `count` further quotes, which belong to the string. -/
def takeQuotes (quote : Char) : Nat → List Char → List Char × List Char
  | 0, cs => ([], cs)
  | _, [] => ([], [])
  | count + 1, c :: rest =>
    if c = quote then
      let (taken, left) := takeQuotes quote count rest
      (c :: taken, left)
    else ([], c :: rest)

/-- The contents of a string up to its closing quotes, and the text behind
them.  The first argument bounds the number of characters and escapes; only
double quotes know escapes. -/
def takeString (quote : Char) (multiline : Bool) : Nat → List Char → Option (List Char × List Char)
  | 0, _ => none
  | _, [] => none
  | bound + 1, c :: rest =>
    let goOn (taken : List Char) (left : List Char) : Option (List Char × List Char) :=
      (takeString quote multiline bound left).map fun (more, behind) => (taken ++ more, behind)
    if c = quote then
      if !multiline then some ([], rest)
      else
        match rest with
        | second :: third :: behind =>
          if second = quote ∧ third = quote then some (takeQuotes quote 2 behind)
          else goOn [c] rest
        | _ => goOn [c] rest
    else if c = '\n' then
      if multiline then goOn [c] rest else none
    else if c = '\\' ∧ quote = '"' then
      match escape? multiline rest with
      | some (taken, left) => goOn taken left
      | none => none
    else if isPlain c then goOn [c] rest
    else none

/-- The string that opens with a quote already taken, and the text behind it. -/
def takeQuoted (quote : Char) (cs : List Char) : Option (Token × List Char) :=
  match cs with
  | second :: third :: rest =>
    if second = quote ∧ third = quote then
      let contents := match rest with
        | '\n' :: left => left
        | left => left
      (takeString quote true (contents.length + 1) contents).map fun (text, left) =>
        (.quoted text true, left)
    else if second = quote then some (.quoted [] false, third :: rest)
    else single cs
  | [second] => if second = quote then some (.quoted [] false, []) else none
  | [] => none
where
  single (cs : List Char) : Option (Token × List Char) :=
    (takeString quote false (cs.length + 1) cs).map fun (text, left) => (.quoted text false, left)

/-- The token that starts with `c`, and the text behind it. -/
def takeToken (c : Char) (rest : List Char) : Option (Token × List Char) :=
  match c with
  | '\n' => some (.newline, rest)
  | '=' => some (.equals, rest)
  | '.' => some (.period, rest)
  | ',' => some (.comma, rest)
  | ':' => some (.colon, rest)
  | '+' => some (.plus, rest)
  | '{' => some (.leftBrace, rest)
  | '}' => some (.rightBrace, rest)
  | '[' => some (.leftBracket, rest)
  | ']' => some (.rightBracket, rest)
  | '#' => some (.comment, rest.dropWhile isRemark)
  | '"' => takeQuoted '"' rest
  | '\'' => takeQuoted '\'' rest
  | _ =>
    if c = ' ' ∨ c = '\t' then
      let isBlank (c : Char) : Bool := c = ' ' || c = '\t'
      some (.blank (c = ' ' && !rest.head?.any isBlank), rest.dropWhile isBlank)
    else if isWordChar c then
      some (.word (c :: rest.takeWhile isWordChar), rest.dropWhile isWordChar)
    else none

/-- Cuts a text into tokens; the first argument bounds their number. -/
def takeTokens : Nat → List Char → Option (List Token)
  | _, [] => some []
  | 0, _ => none
  | bound + 1, c :: rest => do
    let (token, left) ← takeToken c rest
    let tokens ← takeTokens bound left
    pure (token :: tokens)

/-- The tokens of a text, if all of it can be cut into tokens.  A byte order
mark at its start is passed. -/
def tokens? (source : String) : Option (List Token) :=
  let cs := foldNewlines source.toList
  let cs := match cs with
    | '\ufeff' :: rest => rest
    | cs => cs
  takeTokens cs.length cs

end Slate.Toml
