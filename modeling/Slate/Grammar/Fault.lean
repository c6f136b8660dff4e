import Slate.Diagnostic
import Slate.Text.Quoted
import Slate.Token.Basic

/-!
# Faults in the token sequence

Why a token sequence is not a program.  Reading stops at the first fault; it
says where the fault is, unless the tokens ran out, and `SyntaxFault.message`
words it.  A token that the lexer could not make sense of is a fault of its
own wherever a definite kind of token is wanted (`SyntaxFault.unexpected`).
-/

namespace Slate

/-- What the grammar wants at a place. -/
inductive Wanted where
  | typeName
  | variableName
  | functionName
  | statement
  | expression
  | colon
  | semicolon
  | openParen
  | closeParen
  | commaOrCloseParen
  | openBrace
  | closeBrace
deriving DecidableEq

/-- How a fault names what was wanted. -/
def Wanted.text : Wanted → String
  | typeName => "a type name"
  | variableName => "a variable name"
  | functionName => "a function name"
  | statement => "a statement"
  | expression => "an expression"
  | colon => "':'"
  | semicolon => "';'"
  | openParen => "'('"
  | closeParen => "')'"
  | commaOrCloseParen => "')' or ','"
  | openBrace => "'\x7b'"
  | closeBrace => "'\x7d'"

/-- The ways in which a token sequence fails to be a program. -/
inductive SyntaxCause where
  | unterminatedString
  | unknownCharacter (text : String)
  | unexpectedToken (wanted : Wanted) (found : String)
  | endOfInput (wanted : Wanted)
  | integerTooLarge
  | arrayType
  | reservedName
  | functionRedefined
  | argumentRepeated
  | builtinWithBody
deriving DecidableEq

/-- The wording of each cause. -/
def SyntaxCause.message : SyntaxCause → String
  | unterminatedString => "unterminated string literal"
  | unknownCharacter text => "unknown character " ++ Text.quote text
  | unexpectedToken wanted found =>
    "expected " ++ wanted.text ++ ", found " ++ Text.quote found
  | endOfInput wanted => "expected " ++ wanted.text ++ ", found end of input"
  | integerTooLarge => "invalid integer literal"
  | arrayType => "array types are not supported"
  | reservedName => "syscall is a reserved name"
  | functionRedefined => "Function already defined"
  | argumentRepeated => "Duplicate argument name"
  | builtinWithBody => "builtin functions cannot have a body"

/-- A cause and, unless the tokens ran out, the span it is found at. -/
structure SyntaxFault where
  cause : SyntaxCause
  span : Option Span
deriving DecidableEq

namespace SyntaxFault

/-- A fault at a span. -/
def found (span : Span) (cause : SyntaxCause) : SyntaxFault := ⟨cause, some span⟩

/-- The fault of tokens that do not go on with what is wanted. -/
def unexpected (wanted : Wanted) : List Token → SyntaxFault
  | [] => ⟨.endOfInput wanted, none⟩
  | t :: _ =>
    if t.kind = .unknown then
      if t.text.startsWith "\"" then found t.span .unterminatedString
      else found t.span (.unknownCharacter t.text)
    else found t.span (.unexpectedToken wanted t.text)

/-- The fault as a diagnostic about a file. -/
def diagnostic (f : SyntaxFault) (file : Option String) : Diagnostic :=
  ⟨f.cause.message, f.span, file⟩

end SyntaxFault

end Slate
