import Slate.Proofs.Compile.Represents
import Slate.Proofs.Machine.Steps

/-!
# Code of operators

The code of an operator computes the word for what the operator makes of its operands.
Arithmetic is that of words on both sides.  A comparison subtracts and asks for the
zero flag; integers and truth values are equal when their words are.
-/

namespace Slate

variable {a : Assembly} {loading : Loading a.listing} {m : Machine}

/-- The zero flag of a difference says whether two words are the same. -/
theorem Flags.zero_sub (x y : Word) : (Flags.ofWord (x - y)).zero = decide (x = y) := by
  have hiff : x - y = 0 ↔ x = y := by
    rw [BitVec.sub_eq_iff_eq_add]
    show x = 0#32 + y ↔ x = y
    rw [BitVec.zero_add]
  show decide (x - y = 0) = decide (x = y)
  exact decide_eq_decide.2 hiff

/-- The truth value of a condition on the flags. -/
theorem reaches_truth {condition : Condition} {flags : Flags} (hflags : m.flags = some flags)
    (hstands : Stands a.listing.lines m.line (codeLines [.set condition .al, .widen .eax .al])) :
    loading.Reaches
      (m.Computes 2 (if condition.holds flags = true then 1 else 0)) m := by
  have hset : loading.execute m (.set condition .al) =
      .next (m.setByte .al (if condition.holds flags then 1 else 0)).advance := by
    simp only [Loading.execute, hflags]
  refine .instr hstands hset (.instr hstands.2 rfl (.here ?_))
  refine ⟨rfl, ?_, ?_, ?_, rfl, rfl⟩
  · show BitVec.ofNat 32 (((m.setByte .al _).byte .al).toNat) = _
    rw [Machine.byte_setByte]
    cases condition.holds flags <;> rfl
  · simp [Machine.setByte, Machine.wide]
  · simp [Machine.setByte, Machine.wide]

/-- The truth value of a comparison of `ecx` with `eax`. -/
theorem reaches_comparison {condition : Condition} (hstands : Stands a.listing.lines m.line
    (codeLines [.compare .ecx .eax, .set condition .al, .widen .eax .al])) :
    loading.Reaches (m.Computes 3
      (if condition.holds (.ofWord (m.registers .ecx - m.registers .eax)) = true then 1 else 0))
      m := by
  have htruth : loading.Reaches _
      { m with
        line := m.line + 1
        flags := some (.ofWord (m.registers .ecx - m.registers .eax)) } :=
    reaches_truth rfl hstands.2
  refine .instr hstands rfl (.after htruth ?_)
  intro m' hm'
  exact .here ⟨hm'.line, hm'.result, hm'.stack, hm'.base, hm'.memory, hm'.output⟩

/-- Data of one kind that is compared is equal when the words are. -/
theorem Encodes.equal? {x y : Data} {same : Bool} {t : Ty} {v w : Word} (hx : Encodes loading x v)
    (hy : Encodes loading y w) (hfits : x.Fits t) (hfits' : y.Fits t) (hstring : t ≠ .string)
    (hvoid : t.isVoid = false) (h : x.equal? y = some same) : same = decide (v = w) := by
  rcases hfits.comparable hfits' hstring hvoid with ⟨i, j, rfl, rfl⟩ | ⟨p, q, rfl, rfl⟩
  · rw [hx.int_eq, hy.int_eq]
    cases h
    exact decide_eq_decide.2 Int32.toBitVec_inj.symm
  · rw [hx.bool_eq, hy.bool_eq]
    cases h
    cases p <;> cases q <;> decide

/-- **Binary operators.** -/
theorem BinaryOp.reaches_code {op : BinaryOp} {left right v : Value} {operand result : Ty}
    (hdefined : op.resultType operand = .ok result) (hleft : left.Fits operand)
    (hright : right.Fits operand) (happly : op.apply left right = .ok v)
    (hecx : Encodes loading left.data (m.registers .ecx))
    (heax : Encodes loading right.data (m.registers .eax))
    (hstands : Stands a.listing.lines m.line (codeLines op.code)) :
    loading.Reaches
      (fun m' => ∃ w, Encodes loading v.data w ∧ m.Computes op.code.length w m') m := by
  obtain ⟨leftType, leftData⟩ := left
  obtain ⟨rightType, rightData⟩ := right
  unfold BinaryOp.apply at happly
  rcases op.resultType_eq_ok hdefined with ⟨hcomparison, hstring, hvoid, rfl⟩ | ⟨harith, rfl, rfl⟩
  · rw [if_pos hcomparison] at happly
    dsimp only at happly
    cases hequal : leftData.equal? rightData with
    | none => simp [hequal] at happly
    | some same =>
        rw [hequal] at happly
        cases happly
        have hsame := hecx.equal? heax hleft.2 hright.2 hstring hvoid hequal
        have hzero := Flags.zero_sub (m.registers .ecx) (m.registers .eax)
        rw [← hsame] at hzero
        cases op with
        | equal =>
            refine .after (reaches_comparison hstands) fun m' hm' => ?_
            rw [show Condition.equal.holds _ = same from hzero] at hm'
            exact .here ⟨_, .bool same, hm'⟩
        | notEqual =>
            refine .after (reaches_comparison hstands) fun m' hm' => ?_
            rw [show Condition.notEqual.holds _ = !same from congrArg not hzero] at hm'
            exact .here ⟨_, .bool (!same), hm'⟩
        | plus => cases hcomparison
        | minus => cases hcomparison
        | times => cases hcomparison
  · obtain ⟨i, rfl⟩ := hleft.2.eq_int
    obtain ⟨j, rfl⟩ := hright.2.eq_int
    rw [harith] at happly
    cases happly
    have hi := hecx.int_eq
    have hj := heax.int_eq
    cases op with
    | plus =>
        have hsum : m.registers .eax + m.registers .ecx = (i + j).toBitVec := by
          rw [hi, hj, Int32.toBitVec_add, BitVec.add_comm]
        refine .instr hstands rfl (.here ⟨_, .int (i + j), rfl, ?_, rfl, rfl, rfl, rfl⟩)
        exact hsum
    | minus =>
        have hdifference : m.registers .ecx - m.registers .eax = (i - j).toBitVec := by
          rw [hi, hj, Int32.toBitVec_sub]
        refine .instr hstands rfl (.instr hstands.2 rfl
          (.here ⟨_, .int (i - j), rfl, ?_, rfl, rfl, rfl, rfl⟩))
        exact hdifference
    | times =>
        have hproduct : m.registers .eax * m.registers .ecx = (i * j).toBitVec := by
          rw [hi, hj, Int32.toBitVec_mul, BitVec.mul_comm]
        refine .instr hstands rfl (.here ⟨_, .int (i * j), rfl, ?_, rfl, rfl, rfl, rfl⟩)
        exact hproduct
    | equal => cases harith
    | notEqual => cases harith

/-- **Unary operators.** -/
theorem UnaryOp.reaches_code {op : UnaryOp} {operand v : Value}
    (hfits : operand.Fits op.operandType) (happly : op.apply operand = .ok v)
    (heax : Encodes loading operand.data (m.registers .eax))
    (hstands : Stands a.listing.lines m.line (codeLines op.code)) :
    loading.Reaches
      (fun m' => ∃ w, Encodes loading v.data w ∧ m.Computes op.code.length w m') m := by
  obtain ⟨type, data⟩ := operand
  cases op with
  | negate =>
      obtain ⟨i, rfl⟩ := hfits.2.eq_int
      cases happly
      have hnegative : -m.registers .eax = (-i).toBitVec := by
        rw [heax.int_eq, Int32.toBitVec_neg]
      refine .instr hstands rfl (.here ⟨_, .int (-i), rfl, ?_, rfl, rfl, rfl, rfl⟩)
      exact hnegative
  | complement =>
      obtain ⟨i, rfl⟩ := hfits.2.eq_int
      cases happly
      have hcomplement : ~~~m.registers .eax = (~~~i).toBitVec := by
        rw [heax.int_eq, Int32.toBitVec_not]
      refine .instr hstands rfl (.here ⟨_, .int (~~~i), rfl, ?_, rfl, rfl, rfl, rfl⟩)
      exact hcomplement
  | not =>
      obtain ⟨b, rfl⟩ := hfits.2.eq_bool
      cases happly
      have hzero : Condition.equal.holds (.ofWord (m.registers .eax - BitVec.ofNat 32 0)) = !b := by
        rw [heax.bool_eq]
        cases b <;> decide
      have htruth : loading.Reaches _
          { m with
            line := m.line + 1
            flags := some (.ofWord (m.registers .eax - BitVec.ofNat 32 0)) } :=
        reaches_truth rfl hstands.2
      rw [hzero] at htruth
      refine .instr hstands rfl (.after htruth ?_)
      intro m' hm'
      exact .here ⟨_, .bool (!b), hm'.line, hm'.result, hm'.stack, hm'.base, hm'.memory, hm'.output⟩

end Slate
