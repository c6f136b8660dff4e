import Slate.Proofs.Grammar.Levels
import Slate.Proofs.Token.Spelled

/-!
# Programs written as text

A tree is written as lexemes, and the lexemes as text.  Parentheses are written only where
the place of an expression asks for a stronger level than the expression has of itself
(`enclosed`): an operand of an operator is at the level that the grammar has for it, and an
argument, a condition or a value between marks is at the weakest one.  A conditional that
stands alone behind an `else` is written without braces.

Not every tree can be written.  `Program.Writable` says which can: those of the shape that
reading gives.  A name is a word that is no keyword, a type is a name, an integer is not
negative, there is no quote in a string, and declarations and blocks are only where
statements have them.
-/

namespace Slate

/-! ## Lexemes of the language -/

namespace Lexeme

def semicolon : Lexeme := whole .semicolon [';']

def leftParen : Lexeme := whole .leftParen ['(']

def rightParen : Lexeme := whole .rightParen [')']

def leftBrace : Lexeme := whole .leftBrace ['{']

def rightBrace : Lexeme := whole .rightBrace ['}']

def colon : Lexeme := whole .typeIndicator [':']

def comma : Lexeme := whole .comma [',']

def assignSign : Lexeme := whole .assign ['=']

/-- An operator, from how it is written. -/
def operator (symbol : String) : Lexeme := whole .operator symbol.toList

/-- A keyword or an identifier. -/
def word (name : String) : Lexeme := whole (wordKind name.toList) name.toList

/-- A number in decimal digits. -/
def number (n : Nat) : Lexeme := whole .number (Nat.toDigits 10 n)

/-- A string between quotes. -/
def quoted (s : String) : Lexeme := ⟨.string, '"' :: s.toList ++ ['"'], s.toList⟩

/-- Lexemes between two marks. -/
def between (opening closing : Lexeme) (xs : List Lexeme) : List Lexeme :=
  opening :: (xs ++ [closing])

def parens : List Lexeme → List Lexeme := between leftParen rightParen

def braces : List Lexeme → List Lexeme := between leftBrace rightBrace

/-- Phrases with commas between them. -/
def commas : List (List Lexeme) → List Lexeme
  | [] => []
  | [xs] => xs
  | xs :: ys :: rest => xs ++ comma :: commas (ys :: rest)

/-- A phrase of its own level where a level is wanted. -/
def enclosed (wanted own : Level) (xs : List Lexeme) : List Lexeme :=
  if own.rank < wanted.rank then parens xs else xs

end Lexeme

open Lexeme

/-! ## Trees as lexemes -/

def Var.lexemes (v : Var) : List Lexeme := [word v.name, colon, word v.type.name]

def Literal.lexeme : Literal → Lexeme
  | .bool true => word "true"
  | .bool false => word "false"
  | .int value => number value.toNatClampNeg
  | .string value => quoted value

mutual

/-- The expression as an expression of the wanted level. -/
def Expr.phrase (wanted : Level) : Expr → List Lexeme
  | .literal _ value => [value.lexeme]
  | .declare _ v => word "var" :: v.lexemes
  | .var _ name => [word name]
  | .assign _ left right =>
    enclosed wanted .assignment
      (left.phrase .equality ++ assignSign :: right.phrase .assignment)
  | .call _ name args => word name :: parens (commas (argumentPhrases args))
  | .binary _ op left right =>
    enclosed wanted op.level
      (left.phrase op.level ++ operator op.symbol :: right.phrase op.level.next)
  | .unary _ op operand => enclosed wanted .unary (operator op.symbol :: operand.phrase .unary)
  | .cast _ operand => operand.phrase wanted

/-- The arguments, each as an expression of the weakest level. -/
def argumentPhrases : List Expr → List (List Lexeme)
  | [] => []
  | e :: es => e.phrase .assignment :: argumentPhrases es

end

/-- The condition of a conditional or a loop. -/
def Expr.condition (e : Expr) : List Lexeme := parens (e.phrase .assignment)

/-- Whether the statements are a conditional alone. -/
def isLoneConditional : List Stmt → Bool
  | [.ifThen _ _ _] => true
  | [.ifElse _ _ _ _] => true
  | _ => false

mutual

/-- The statement; a block is written as it is behind `else`. -/
def Stmt.lexemes : Stmt → List Lexeme
  | .expression _ e => e.phrase .assignment ++ [semicolon]
  | .ret _ none => [word "return", semicolon]
  | .ret _ (some e) => word "return" :: (e.phrase .assignment ++ [semicolon])
  | .ifThen _ condition body => word "if" :: (condition.condition ++ braces (bodyLexemes body))
  | .ifElse _ condition body otherwise =>
    word "if" :: (condition.condition ++
      (braces (bodyLexemes body) ++ word "else" :: otherwise.lexemes))
  | .loop _ condition body => word "while" :: (condition.condition ++ braces (bodyLexemes body))
  | .block _ body =>
    if isLoneConditional body then bodyLexemes body else braces (bodyLexemes body)

/-- The statements one after the other. -/
def bodyLexemes : List Stmt → List Lexeme
  | [] => []
  | s :: ss => s.lexemes ++ bodyLexemes ss

end

/-- What the definition of a function ends in: a semicolon or a block. -/
def Function.ending (f : Function) : List Lexeme :=
  if f.builtin then [semicolon] else braces (bodyLexemes f.body)

def Function.lexemes (f : Function) : List Lexeme :=
  (if f.builtin then [word "builtin"] else []) ++
    word f.result.name :: word f.name ::
      (parens (commas (f.arguments.map Var.lexemes)) ++ f.ending)

def Program.lexemes (p : Program) : List Lexeme := p.functions.flatMap Function.lexemes

/-- The program as a source text. -/
def Program.written (p : Program) : String := String.ofList (spelled p.lexemes)

/-! ## Spans are not written -/

mutual

/-- An expression is written the same without its spans. -/
theorem Expr.phrase_spanless (wanted : Level) :
    ∀ e : Expr, e.spanless.phrase wanted = e.phrase wanted
  | .literal _ _ => rfl
  | .declare _ _ => rfl
  | .var _ _ => rfl
  | .assign _ left right => by
      rw [Expr.spanless, Expr.phrase, Expr.phrase, left.phrase_spanless, right.phrase_spanless]
  | .call _ _ args => by
      rw [Expr.spanless, Expr.phrase, Expr.phrase, argumentPhrases_spanless args]
  | .binary _ _ left right => by
      rw [Expr.spanless, Expr.phrase, Expr.phrase, left.phrase_spanless, right.phrase_spanless]
  | .unary _ _ operand => by
      rw [Expr.spanless, Expr.phrase, Expr.phrase, operand.phrase_spanless]
  | .cast _ operand => operand.phrase_spanless wanted

/-- The same for the arguments of a call. -/
theorem argumentPhrases_spanless :
    ∀ es : List Expr, argumentPhrases (spanlessArguments es) = argumentPhrases es
  | [] => rfl
  | e :: es => by
      rw [spanlessArguments, argumentPhrases, argumentPhrases, e.phrase_spanless,
        argumentPhrases_spanless es]

end

/-- A lone conditional stays one. -/
theorem isLoneConditional_spanless (body : List Stmt) :
    isLoneConditional (spanlessBody body) = isLoneConditional body := by
  rcases body with _ | ⟨s, _ | ⟨t, rest⟩⟩
  · rfl
  · cases s <;> rfl
  · cases s <;> rfl

mutual

/-- A statement is written the same without its spans. -/
theorem Stmt.lexemes_spanless : ∀ s : Stmt, s.spanless.lexemes = s.lexemes
  | .expression _ e => by
      rw [Stmt.spanless, Stmt.lexemes, Stmt.lexemes, e.phrase_spanless]
  | .ret _ none => rfl
  | .ret _ (some e) => by
      rw [Stmt.spanless, Option.map_some, Stmt.lexemes, Stmt.lexemes, e.phrase_spanless]
  | .ifThen _ condition body => by
      rw [Stmt.spanless, Stmt.lexemes, Stmt.lexemes, Expr.condition, Expr.condition,
        condition.phrase_spanless, bodyLexemes_spanless body]
  | .ifElse _ condition body otherwise => by
      rw [Stmt.spanless, Stmt.lexemes, Stmt.lexemes, Expr.condition, Expr.condition,
        condition.phrase_spanless, bodyLexemes_spanless body, otherwise.lexemes_spanless]
  | .loop _ condition body => by
      rw [Stmt.spanless, Stmt.lexemes, Stmt.lexemes, Expr.condition, Expr.condition,
        condition.phrase_spanless, bodyLexemes_spanless body]
  | .block _ body => by
      rw [Stmt.spanless, Stmt.lexemes, Stmt.lexemes, isLoneConditional_spanless,
        bodyLexemes_spanless body]

/-- The same for a list of statements. -/
theorem bodyLexemes_spanless : ∀ ss : List Stmt, bodyLexemes (spanlessBody ss) = bodyLexemes ss
  | [] => rfl
  | s :: ss => by
      rw [spanlessBody, bodyLexemes, bodyLexemes, s.lexemes_spanless, bodyLexemes_spanless ss]

end

/-- The same for a function. -/
theorem Function.lexemes_spanless (f : Function) : f.spanless.lexemes = f.lexemes := by
  have hbody : bodyLexemes f.spanless.body = bodyLexemes f.body := bodyLexemes_spanless f.body
  unfold Function.lexemes Function.ending
  rw [hbody]
  rfl

/-- The same for a program. -/
theorem Program.lexemes_spanless (p : Program) : p.spanless.lexemes = p.lexemes := by
  simp only [Program.lexemes, Program.spanless, List.flatMap_map, Function.lexemes_spanless]

/-! ## Trees that can be written -/

/-- Whether the text is a word. -/
def isWord (name : String) : Bool :=
  match name.toList with
  | [] => false
  | c :: more => isWordStart c && more.all isWordPart

/-- Whether the text is a word that is no keyword. -/
def isName (name : String) : Bool := isWord name && name ∉ Token.keywords

/-- The type is a name. -/
def Ty.Writable (t : Ty) : Prop := isName t.name = true ∧ t.isReference = false

def Var.Writable (v : Var) : Prop := isName v.name = true ∧ v.type.Writable

def Literal.Writable : Literal → Prop
  | .bool _ => True
  | .int value => 0 ≤ value
  | .string value => '"' ∉ value.toList

mutual

/-- The expression can be written where a value is: it declares nothing. -/
def Expr.Writable : Expr → Prop
  | .literal n value => n.type = none ∧ value.Writable
  | .declare _ _ => False
  | .var n name => n.type = none ∧ isName name = true
  | .assign n left right => n.type = none ∧ left.Writable ∧ right.Writable
  | .call n name args => n.type = none ∧ isName name = true ∧ ArgumentsWritable args
  | .binary n _ left right => n.type = none ∧ left.Writable ∧ right.Writable
  | .unary n _ operand => n.type = none ∧ operand.Writable
  | .cast _ _ => False

def ArgumentsWritable : List Expr → Prop
  | [] => True
  | e :: es => e.Writable ∧ ArgumentsWritable es

end

/-- The expression can be written as a declaration. -/
def Expr.Declares : Expr → Prop
  | .declare n v => n.type = none ∧ v.Writable
  | _ => False

/-- The expression can be written as a statement. -/
def Expr.StatementWritable : Expr → Prop
  | .assign n left right => n.type = none ∧ (left.Declares ∨ left.Writable) ∧ right.Writable
  | e => e.Declares ∨ e.Writable

mutual

/-- The statement can be written; a block is none of its own. -/
def Stmt.Writable : Stmt → Prop
  | .expression _ e => e.StatementWritable
  | .ret _ none => True
  | .ret _ (some e) => e.Writable
  | .ifThen _ condition body => condition.Writable ∧ BodyWritable body
  | .ifElse _ condition body otherwise =>
    condition.Writable ∧ BodyWritable body ∧ otherwise.BranchWritable
  | .loop _ condition body => condition.Writable ∧ BodyWritable body
  | .block _ _ => False

/-- The statement can be written behind `else`: it is a block. -/
def Stmt.BranchWritable : Stmt → Prop
  | .block _ body => BodyWritable body
  | _ => False

def BodyWritable : List Stmt → Prop
  | [] => True
  | s :: ss => s.Writable ∧ BodyWritable ss

end

structure Function.Writable (f : Function) : Prop where
  name : isName f.name = true
  free : f.name ≠ syscallName
  result : f.result.Writable
  arguments : ∀ v ∈ f.arguments, v.Writable
  distinct : (f.arguments.map Var.name).Nodup
  locals : f.locals = []
  builtin : f.builtin = true → f.body = []
  body : BodyWritable f.body

structure Program.Writable (p : Program) : Prop where
  distinct : (p.functions.map Function.name).Nodup
  each : ∀ f ∈ p.functions, f.Writable

end Slate
