import Slate.Eval.Outcome

/-!
# Frames

The variables of one call.  A frame is a sequence of named cells; the place of
a cell is its slot, and references hold slots.  Declaring a name that the
frame has already, as a declaration in a loop does in every round, makes its
cell fresh again instead of adding one.  So every name has one cell, and a
slot once given out stays valid while the frame lives.
-/

namespace Slate

/-- The named cells of one call, in the order of their first declarations. -/
structure Frame where
  cells : List (String × Value)
deriving DecidableEq, Inhabited

namespace Frame

/-- The frame without variables. -/
def empty : Frame := ⟨[]⟩

/-- The slot of a name. -/
def slot? (frame : Frame) (name : String) : Option Nat :=
  frame.cells.findIdx? (·.1 = name)

/-- Declares a name with a value, and answers with its slot. -/
def declare (frame : Frame) (name : String) (value : Value) : Nat × Frame :=
  match frame.slot? name with
  | some slot => (slot, ⟨frame.cells.set slot (name, value)⟩)
  | none => (frame.cells.length, ⟨frame.cells ++ [(name, value)]⟩)

/-- The slot of a variable that must have been declared. -/
def lookup (frame : Frame) (name : String) : Except EvalError Nat :=
  match frame.slot? name with
  | some slot => .ok slot
  | none => .error (.unknownVariable name)

/-- The value in a slot. -/
def load (frame : Frame) (slot : Nat) : Except EvalError Value :=
  match frame.cells[slot]? with
  | some cell => .ok cell.2
  | none => .error (.dangling slot)

/-- Stores data in a slot; its type stays. -/
def store (frame : Frame) (slot : Nat) (data : Data) : Except EvalError Frame :=
  match frame.cells[slot]? with
  | some (name, value) => .ok ⟨frame.cells.set slot (name, { value with data := data })⟩
  | none => .error (.dangling slot)

/-- A value, or what lies in the slot that it refers to. -/
def valueOf (frame : Frame) (value : Value) : Except EvalError Value :=
  match value.data with
  | .ref slot => frame.load slot
  | _ => .ok value

/-- The frame of a call: the arguments with the values given for them. -/
def ofArguments : List Var → List Value → Frame → Frame
  | v :: vs, value :: values, frame => ofArguments vs values (frame.declare v.name value).2
  | _, _, frame => frame

end Frame

end Slate
