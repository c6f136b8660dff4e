import Slate.Source.Position

/-!
# Tokens

A token is a lexeme of the source text together with its kind and the span
of text it was written in.  The kind says what the grammar may do with it;
the text tells tokens of one kind apart.  The text of a string token is what
stands between the quotes; for every other kind it is the lexeme itself.
-/

namespace Slate

/-- What a lexeme is for the grammar. -/
inductive TokenKind where
  | semicolon
  | string
  | leftParen
  | rightParen
  | leftBracket
  | rightBracket
  | leftBrace
  | rightBrace
  | typeIndicator
  | number
  | identifier
  | assign
  | comma
  | operator
  | keyword
  | unknown
deriving DecidableEq, Inhabited

/-- One token of a source text. -/
structure Token where
  kind : TokenKind
  text : String
  span : Span
deriving DecidableEq, Inhabited

namespace Token

/-- The words that are not identifiers. -/
def keywords : List String :=
  ["var", "if", "else", "while", "return", "true", "false", "builtin"]

/-- Whether the token is the given keyword. -/
def isKeyword (t : Token) (word : String) : Bool :=
  t.kind = .keyword && t.text = word

end Token

end Slate
