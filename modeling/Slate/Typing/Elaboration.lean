import Slate.Typing.Program

/-!
# Checking in place

The functions of a program can be checked one at a time, in any order and as
often as one likes.  A check leaves its function as far as it was elaborated,
in the place where it stood, also when it fails.  The signatures are those that
the functions had at the start; no check changes them.

* `name_check`, `signature_check` — a check keeps what its function is called and
  how it is called.
-/

namespace Slate

/-- Functions under check, and the signatures that they are checked against. -/
structure Elaboration where
  signatures : Signatures
  functions : List Function

/-- What the check of one function leaves: the function, and a verdict. -/
abbrev FunctionCheck := Function × Except TypeFault Unit

/-- A check keeps the name of its function. -/
theorem Function.name_check (signatures : Signatures) (f : Function) :
    (f.check signatures).1.name = f.name := by
  unfold Function.check
  split
  · rfl
  · split <;> rfl

/-- A check keeps what calls of its function depend on. -/
theorem Function.signature_check (signatures : Signatures) (f : Function) :
    (f.check signatures).1.signature = f.signature := by
  unfold Function.check
  split
  · rfl
  · split <;> rfl

namespace Elaboration

/-- The functions of a program, none of them checked yet. -/
def ofProgram (p : Program) : Elaboration := ⟨p.signatures, p.functions⟩

/-- Checks the function at an index where it stands.  Where there is none,
nothing is checked. -/
def checkAt (work : Elaboration) (index : Nat) : Elaboration × Option FunctionCheck :=
  match work.functions[index]? with
  | none => (work, none)
  | some f =>
    let checked := f.check work.signatures
    ({ work with functions := work.functions.set index checked.1 }, some checked)

/-- Checks functions in the order of the given indices.  An index may come
again: its function is then checked as the last check of it left it. -/
def checkEach (work : Elaboration) : List Nat → List (Option FunctionCheck)
  | [] => []
  | index :: indices =>
    let (work, checked) := work.checkAt index
    checked :: work.checkEach indices

end Elaboration

end Slate
