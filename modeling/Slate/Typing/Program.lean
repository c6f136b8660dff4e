import Slate.Typing.Statement

/-!
# Typing of programs

A function is checked by itself: of the other functions it needs only the
signatures.  Its declared types come first, then its body, whose declarations
become its locals.  A builtin has no body to check, and keeps the locals it
came with.

`Function.check` answers with a function also when it fails (`Checked`), so a
check can be repeated on what an earlier one left.
-/

namespace Slate

/-- What the declared types of a function fail, if they fail something. -/
def Function.declarationCause? (f : Function) : Option TypeCause :=
  if !f.result.isVoid && !f.result.isStorable then some (.unknownResult f.result)
  else if f.name = "main" ∧ f.result ≠ .int ∧ f.result ≠ .bool then some .mainResult
  else (f.arguments.find? fun v => !v.type.isStorable).map .unknownType

/-- Checks a function against the signatures of its program. -/
def Function.check (signatures : Signatures) (f : Function) : Function × Except TypeFault Unit :=
  match f.declarationCause? with
  | some cause => (f, .error ⟨cause, f.span⟩)
  | none =>
    if f.builtin then (f, .ok ())
    else
      let b := checkStmts ⟨signatures, f.arguments, f.result⟩ [] f.body
      ({ f with locals := b.locals, body := b.tree }, b.verdict)

/-- Checks functions in order, up to the first that fails. -/
def checkFunctions (signatures : Signatures) :
    List Function → Except TypeFault (List Function)
  | [] => .ok []
  | f :: fs =>
    match f.check signatures with
    | (_, .error fault) => .error fault
    | (g, .ok ()) => (checkFunctions signatures fs).map (g :: ·)

/-- Checks a program. -/
def Program.check (p : Program) : Except Diagnostic Program :=
  match checkFunctions p.signatures p.functions with
  | .error fault => .error (fault.diagnostic p.file)
  | .ok functions => .ok { p with functions := functions }

end Slate
