import Slate.Text.Quoted
import Slate.Tree.Basic

/-!
# The written form of expressions

An expression is written with its operator first and parentheses around every
inner node: `(= (var x: i32) (+ 1 (call f x)))`.  Here an assignment shows its
left side first, although it is evaluated last.  Strings are quoted
(`Text.quote`), so the written form is one line.
-/

namespace Slate

/-- A truth value is written as its keyword. -/
def boolText (b : Bool) : String := if b then "true" else "false"

/-- An integer is written in decimal digits, after a minus sign if it is
negative. -/
def intText (i : Int32) : String := toString i.toInt

/-- The written form of a literal. -/
def Literal.text : Literal → String
  | bool b => boolText b
  | int i => intText i
  | string s => Text.quote s

namespace Expr

mutual

/-- The written form of an expression. -/
def text : Expr → String
  | literal _ value => value.text
  | declare _ declared => "(var " ++ declared.name ++ ": " ++ declared.type.text ++ ")"
  | var _ name => name
  | assign _ left right => "(= " ++ left.text ++ " " ++ right.text ++ ")"
  | call _ name args => "(call " ++ name ++ argumentsText args ++ ")"
  | binary _ op left right =>
    "(" ++ op.symbol ++ " " ++ left.text ++ " " ++ right.text ++ ")"
  | unary _ op operand => "(" ++ op.symbol ++ " " ++ operand.text ++ ")"
  | cast _ operand => "(cast " ++ operand.text ++ ")"

/-- The written forms of arguments, each after a space. -/
def argumentsText : List Expr → String
  | [] => ""
  | e :: es => " " ++ e.text ++ argumentsText es

end

end Expr

end Slate
