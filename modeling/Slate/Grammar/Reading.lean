import Slate.Grammar.Fault
import Slate.Tree.Basic

/-!
# Reading from a token sequence

Every phrase of the grammar is read off the front of a token sequence.  A
reading answers with a tree and the tokens left after it, and the type of the
answer says that these are fewer: so the readers of this library recur on the
number of tokens, and none of them can loop.

* `bind_eq_ok`, `bind_eq_error` — readings one after the other succeed when
  each does, and fail with the fault of the first that fails.
-/

namespace Slate

/-- What is left of `ts` after at least one token has been read. -/
abbrev Rest (ts : List Token) := { rest : List Token // rest.length < ts.length }

/-- The answer of reading a phrase off the front of `ts`. -/
abbrev Reading (α : Type) (ts : List Token) := Except SyntaxFault (α × Rest ts)

/-- Two steps that can fail succeed together when each does. -/
theorem bind_eq_ok {ε α β : Type} {x : Except ε α} {f : α → Except ε β} {b : β} :
    (x >>= f) = .ok b ↔ ∃ a, x = .ok a ∧ f a = .ok b := by
  cases x <;> simp [bind, Except.bind]

/-- Two steps that can fail fail together with the first failure. -/
theorem bind_eq_error {ε α β : Type} {x : Except ε α} {f : α → Except ε β} {e : ε} :
    (x >>= f) = .error e ↔ x = .error e ∨ ∃ a, x = .ok a ∧ f a = .error e := by
  cases x <;> simp [bind, Except.bind]

/-- What a step that can fail has answered. -/
theorem toOption_eq_some {ε α : Type} {x : Except ε α} {a : α} :
    x.toOption = some a ↔ x = .ok a := by
  cases x <;> simp [Except.toOption]

/-! ## Lengths of what is left -/

section

variable {t : Token} {xs ys zs : List Token}

theorem Rest.le (h : xs.length < ys.length) : xs.length ≤ ys.length := Nat.le_of_lt h

theorem Rest.le_trans (h : xs.length < ys.length) (h' : ys.length < zs.length) :
    xs.length ≤ zs.length :=
  Nat.le_of_lt (Nat.lt_trans h h')

theorem Rest.le_cons : xs.length ≤ (t :: xs).length := Nat.le_succ _

theorem Rest.le_cons_trans (h : xs.length ≤ ys.length) (h' : ys.length < zs.length) :
    xs.length ≤ (t :: zs).length :=
  Nat.le_succ_of_le (Nat.le_trans h (Nat.le_of_lt h'))

end

/-- A reading of later tokens is one of all tokens. -/
def Rest.within {ts later : List Token} (rest : Rest later) (h : later.length ≤ ts.length) :
    Rest ts :=
  ⟨rest.val, Nat.lt_of_lt_of_le rest.property h⟩

/-- Reads one token of a kind. -/
def readKind (kind : TokenKind) (wanted : Wanted) (ts : List Token) : Reading Token ts :=
  match ts with
  | [] => .error (.unexpected wanted [])
  | t :: rest =>
    if t.kind = kind then .ok (t, ⟨rest, Nat.lt_succ_self _⟩)
    else .error (.unexpected wanted (t :: rest))

/-- Whether the tokens start with one of a kind. -/
def startsWith (kind : TokenKind) : List Token → Bool
  | [] => false
  | t :: _ => t.kind = kind

/-- Reads the name of a type; the bracket of an array type is refused. -/
def readType (ts : List Token) : Reading (Ty × Span) ts := do
  let (name, rest) ← readKind .identifier .typeName ts
  match rest.val with
  | [] => pure ((Ty.named name.text, name.span), rest)
  | t :: _ =>
    if t.kind = .leftBracket then .error (.found t.span .arrayType)
    else pure ((Ty.named name.text, name.span), rest)

/-- Reads the declaration of a variable: its name, a colon and its type. -/
def readVar (ts : List Token) : Reading (Var × Span) ts := do
  let (name, ⟨afterName, _⟩) ← readKind .identifier .variableName ts
  let (_, ⟨afterColon, _⟩) ← readKind .typeIndicator .colon afterName
  let ((type, typeSpan), rest) ← readType afterColon
  pure ((⟨name.text, type⟩, name.span.through typeSpan), rest.within (by omega))

end Slate
