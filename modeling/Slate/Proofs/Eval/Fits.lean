import Slate.Eval.Operator
import Slate.Proofs.Eval.Cells
import Slate.Proofs.Eval.Meets
import Slate.Proofs.Typing.Judgment

/-!
# Values and frames that fit their types

A value fits a type of values when it has the type and data of the kind that the
type asks for.  A frame fits its function when every cell fits the type that its
name was declared with.  Inside one function a value may also denote a place: it is
of reference type then, and its slot holds a cell of the type that it refers to.

Operators are defined on operands that fit, and their answers fit whatever they are given.
-/

namespace Slate

/-- The data is of the kind that values of the type have. -/
inductive Data.Fits : Data → Ty → Prop
  | int (i : Int32) : Fits (.int i) .int
  | bool (b : Bool) : Fits (.bool b) .bool
  | string (s : String) : Fits (.string s) .string
  | void : Fits .void .void

/-- The value has the type, and data of its kind. -/
def Value.Fits (v : Value) (t : Ty) : Prop := v.type = t ∧ v.data.Fits t

/-- There is one value for every type, and it fits. -/
inductive ValuesFit : List Value → List Ty → Prop
  | nil : ValuesFit [] []
  | cons {v : Value} {t : Ty} {vs : List Value} {ts : List Ty} (first : v.Fits t)
      (others : ValuesFit vs ts) : ValuesFit (v :: vs) (t :: ts)

/-! ## Values -/

/-- Data fits no type of references. -/
theorem Data.Fits.isReference {d : Data} {t : Ty} (h : d.Fits t) : t.isReference = false := by
  cases h <;> rfl

/-- Data that fits the type of integers is an integer. -/
theorem Data.Fits.eq_int {d : Data} (h : d.Fits .int) : ∃ i, d = .int i := by
  generalize ht : Ty.int = t at h
  cases h with
  | int i => exact ⟨i, rfl⟩
  | bool => exact absurd ht (by decide)
  | string => exact absurd ht (by decide)
  | void => exact absurd ht (by decide)

/-- Data that fits the type of truth values is one. -/
theorem Data.Fits.eq_bool {d : Data} (h : d.Fits .bool) : ∃ b, d = .bool b := by
  generalize ht : Ty.bool = t at h
  cases h with
  | int => exact absurd ht (by decide)
  | bool b => exact ⟨b, rfl⟩
  | string => exact absurd ht (by decide)
  | void => exact absurd ht (by decide)

/-- Fitting values are as many as their types. -/
theorem ValuesFit.length_eq {vs : List Value} {ts : List Ty} (h : ValuesFit vs ts) :
    vs.length = ts.length := by
  induction h with
  | nil => rfl
  | cons _ _ ih => simp [ih]

/-- A literal fits its type. -/
theorem Literal.fits (value : Literal) : Value.Fits ⟨value.type, value.data⟩ value.type := by
  cases value with
  | bool b => exact ⟨rfl, .bool b⟩
  | int i => exact ⟨rfl, .int i⟩
  | string s => exact ⟨rfl, .string s⟩

/-- The value a variable begins with fits its type. -/
theorem Value.zero_fits {t : Ty} (hstorable : t.isStorable = true)
    (hplain : t.isReference = false) : (Value.zero t).Fits t := by
  rcases Ty.eq_of_isStorable hstorable hplain with rfl | rfl | rfl
  · exact ⟨rfl, .int 0⟩
  · exact ⟨rfl, .bool false⟩
  · exact ⟨rfl, .string ""⟩

/-- A value of a fitting kind is not looked behind. -/
theorem Frame.valueOf_eq_ok {frame : Frame} {v : Value} {t : Ty} (h : v.Fits t) :
    frame.valueOf v = .ok v := by
  obtain ⟨type, data⟩ := v
  obtain ⟨_, hdata⟩ := h
  cases hdata <;> rfl

/-- A truth value is a condition. -/
theorem Value.condition_eq_ok {v : Value} (h : v.Fits .bool) : ∃ b, v.condition = .ok b := by
  obtain ⟨type, data⟩ := v
  obtain ⟨b, rfl⟩ := h.2.eq_bool
  exact ⟨b, rfl⟩

/-! ## Operators -/

/-- Data of types that are compared are both integers or both truth values. -/
theorem Data.Fits.comparable {a b : Data} {t : Ty} (ha : a.Fits t) (hb : b.Fits t)
    (hstring : t ≠ .string) (hvoid : t.isVoid = false) :
    (∃ i j, a = .int i ∧ b = .int j) ∨ ∃ p q, a = .bool p ∧ b = .bool q := by
  cases ha with
  | int i =>
      obtain ⟨j, rfl⟩ := hb.eq_int
      exact .inl ⟨i, j, rfl, rfl⟩
  | bool p =>
      obtain ⟨q, rfl⟩ := hb.eq_bool
      exact .inr ⟨p, q, rfl, rfl⟩
  | string s => exact (hstring rfl).elim
  | void => cases hvoid

/-- A binary operator is defined on operands of a type that it has a result for. -/
theorem BinaryOp.apply_fits {op : BinaryOp} {operand result : Ty} {l r : Value}
    (h : op.resultType operand = .ok result) (hl : l.Fits operand) (hr : r.Fits operand) :
    ∃ v, op.apply l r = .ok v ∧ v.Fits result := by
  obtain ⟨lt, ld⟩ := l
  obtain ⟨rt, rd⟩ := r
  rcases op.resultType_eq_ok h with ⟨hcomparison, hstring, hvoid, rfl⟩ | ⟨harith, rfl, rfl⟩
  · unfold BinaryOp.apply
    rw [if_pos hcomparison]
    rcases hl.2.comparable hr.2 hstring hvoid with ⟨i, j, rfl, rfl⟩ | ⟨p, q, rfl, rfl⟩
    · exact ⟨_, rfl, rfl, .bool _⟩
    · exact ⟨_, rfl, rfl, .bool _⟩
  · unfold BinaryOp.apply
    rw [harith]
    obtain ⟨i, rfl⟩ := hl.2.eq_int
    obtain ⟨j, rfl⟩ := hr.2.eq_int
    exact ⟨_, rfl, rfl, .int _⟩

/-- A unary operator is defined on operands of its type. -/
theorem UnaryOp.apply_fits {op : UnaryOp} {v : Value} (h : v.Fits op.operandType) :
    ∃ w, op.apply v = .ok w ∧ w.Fits op.operandType := by
  obtain ⟨type, data⟩ := v
  cases op with
  | negate =>
      obtain ⟨i, rfl⟩ := h.2.eq_int
      exact ⟨_, rfl, rfl, .int _⟩
  | complement =>
      obtain ⟨i, rfl⟩ := h.2.eq_int
      exact ⟨_, rfl, rfl, .int _⟩
  | not =>
      obtain ⟨b, rfl⟩ := h.2.eq_bool
      exact ⟨_, rfl, rfl, .bool _⟩

/-- What a binary operator answers with fits its result, whatever the operands. -/
theorem BinaryOp.fits_of_apply {op : BinaryOp} {operand result : Ty} {l r v : Value}
    (h : op.resultType operand = .ok result) (hv : op.apply l r = .ok v) : v.Fits result := by
  unfold BinaryOp.apply at hv
  rcases op.resultType_eq_ok h with ⟨hcomparison, _, _, rfl⟩ | ⟨harithmetic, _, rfl⟩
  · rw [if_pos hcomparison] at hv
    split at hv <;> cases hv
    exact ⟨rfl, .bool _⟩
  · rw [harithmetic, if_neg Bool.false_ne_true] at hv
    split at hv <;> cases hv
    exact ⟨rfl, .int _⟩

/-- The same of a unary operator. -/
theorem UnaryOp.fits_of_apply {op : UnaryOp} {v w : Value} (h : op.apply v = .ok w) :
    w.Fits op.operandType := by
  unfold UnaryOp.apply at h
  split at h <;> cases h
  · exact ⟨rfl, .int _⟩
  · exact ⟨rfl, .int _⟩
  · exact ⟨rfl, .bool _⟩

/-- The errors of operators and conditions, which are those of operands that do not suit. -/
def EvalError.IsOperandError : EvalError → Prop
  | incomparable _ _ | unsupportedOperand _ _ | invalidCast _ _ => True
  | _ => False

/-- A binary operator fails on its operands only. -/
theorem BinaryOp.apply_error {op : BinaryOp} {l r : Value} {e : EvalError}
    (h : op.apply l r = .error e) : e.IsOperandError := by
  unfold BinaryOp.apply at h
  split at h <;> split at h <;> cases h <;> trivial

/-- So does a unary one. -/
theorem UnaryOp.apply_error {op : UnaryOp} {v : Value} {e : EvalError}
    (h : op.apply v = .error e) : e.IsOperandError := by
  unfold UnaryOp.apply at h
  split at h <;> cases h
  trivial

/-- So does a condition. -/
theorem Value.condition_error {v : Value} {e : EvalError} (h : v.condition = .error e) :
    e.IsOperandError := by
  unfold Value.condition at h
  split at h <;> cases h
  trivial

/-! ## Frames -/

/-- Every cell fits the type that its name was declared with. -/
def Frame.Fits (frame : Frame) (env : Env) (locals : List Var) : Prop :=
  ∀ cell ∈ frame.cells, ∃ v, env.find? locals cell.1 = some v ∧ cell.2.Fits v.type

/-- In the frame the value is one of the type, or a place for values of it. -/
inductive Frame.Denotes (frame : Frame) : Value → Ty → Prop
  | value {v : Value} {t : Ty} (fits : v.Fits t) : Denotes frame v t
  | place {name : String} {held : Value} {slot : Nat} {t : Ty} (reference : t.isReference = true)
      (cell : frame.cells[slot]? = some (name, held)) (type : held.type = t.value) :
      Denotes frame ⟨t, .ref slot⟩ t

/-- What is of a type of values denotes a value. -/
theorem Frame.Denotes.fits {frame : Frame} {v : Value} {t : Ty} (h : frame.Denotes v t)
    (hplain : t.isReference = false) : v.Fits t := by
  cases h with
  | value fits => exact fits
  | place reference _ _ =>
      rw [hplain] at reference
      cases reference

end Slate
