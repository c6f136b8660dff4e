import Slate.Tree.Text

/-!
# Values

What expressions evaluate to.  A value carries the type that the checker
noted, and data; the two agree in checked programs, but nothing here relies
on it.  The data of a reference is a slot of the frame it was made in.
-/

namespace Slate

/-- The data of a value. -/
inductive Data where
  | bool (value : Bool)
  | int (value : Int32)
  | string (value : String)
  | ref (slot : Nat)
  | void
deriving DecidableEq, Inhabited

/-- A value: data and the type it has. -/
structure Value where
  type : Ty
  data : Data
deriving DecidableEq, Inhabited

namespace Value

/-- An integer as a value. -/
def int (i : Int32) : Value := ⟨.int, .int i⟩

/-- A truth value. -/
def bool (b : Bool) : Value := ⟨.bool, .bool b⟩

/-- A string as a value. -/
def string (s : String) : Value := ⟨.string, .string s⟩

/-- The value of a function that returns nothing. -/
def void : Value := ⟨.void, .void⟩

/-- The value that a fresh variable of a type holds. -/
def zero (t : Ty) : Value :=
  ⟨t.value,
    if t.name = "i32" then .int 0
    else if t.name = "bool" then .bool false
    else if t.name = "string" then .string ""
    else .void⟩

/-- The written form of a value; a string is quoted. -/
def text (v : Value) : String :=
  match v.data with
  | .bool b => boolText b
  | .int i => intText i
  | .string s => Text.quote s
  | .ref slot => "<" ++ v.type.text ++ " at slot " ++ toString slot ++ ">"
  | .void => "void"

end Value

/-- The value of a literal, with the type noted at it. -/
def Literal.data : Literal → Data
  | bool b => .bool b
  | int i => .int i
  | string s => .string s

end Slate
