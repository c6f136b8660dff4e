import Slate.Proofs.Machine.Leads

/-!
# Steps of instructions

What single instructions do, for those that can fail or that touch more than one
register.  A push is the one instruction here that can overflow the stack, and the rule
for it says what is known if it does not.

Most code computes a word and changes nothing that anyone relies on:
`Machine.Computes` says so of two states.
-/

namespace Slate

/-! ## Words -/

/-- Four below a word is so as a number where the word is large enough. -/
theorem Word.toNat_sub_four {w : Word} (h : 4 ≤ w.toNat) : (w - 4).toNat = w.toNat - 4 := by
  have hw : w.toNat < 2 ^ 32 := w.isLt
  rw [BitVec.toNat_sub]
  show (2 ^ 32 - 4 + w.toNat) % 2 ^ 32 = w.toNat - 4
  omega

/-- Four above a word is so as a number where it stays an address. -/
theorem Word.toNat_add_four {w : Word} (h : w.toNat + 4 < addressSpace) :
    (w + 4).toNat = w.toNat + 4 := by
  rw [BitVec.toNat_add]
  exact Nat.mod_eq_of_lt h

/-- So is any number below a word that is large enough. -/
theorem Word.toNat_sub_ofNat {w : Word} {n : Nat} (h : n ≤ w.toNat) :
    (w - BitVec.ofNat 32 n).toNat = w.toNat - n := by
  have hw : w.toNat < 2 ^ 32 := w.isLt
  rw [BitVec.toNat_sub, BitVec.toNat_ofNat]
  omega

namespace Machine

/-- The machine has computed a word, over `count` lines, and changed nothing but
registers for intermediate results. -/
structure Computes (m : Machine) (count : Nat) (w : Word) (m' : Machine) : Prop where
  line : m'.line = m.line + count
  result : m'.registers .eax = w
  stack : m'.registers .esp = m.registers .esp
  base : m'.registers .ebp = m.registers .ebp
  memory : m'.memory = m.memory
  output : m'.output = m.output

/-- The address of a register is what it holds. -/
theorem address_of (m : Machine) (r : Register) : m.address (.of r) = (m.registers r).toNat := by
  show (m.registers r + BitVec.ofInt 32 0).toNat = _
  rw [show BitVec.ofInt 32 0 = 0#32 from rfl, BitVec.add_zero]

/-- A byte that is set is read back. -/
theorem byte_setByte (m : Machine) (r : ByteRegister) (b : UInt8) : (m.setByte r b).byte r = b := by
  have hb : b.toNat < 256 := b.toNat_lt
  have hw : (m.registers (wide r)).toNat < 2 ^ 32 := (m.registers (wide r)).isLt
  apply UInt8.toNat_inj.1
  unfold byte setByte
  rw [set_registers, if_pos rfl, UInt8.toNat_ofNat', BitVec.toNat_ofNat]
  omega

end Machine

namespace Loading

variable {a : Listing} {loading : Loading a} {m final : Machine} {Q : Machine → Prop}
  {X : Word → ByteArray → Prop} {remark : Option String} {rest : List Line}

/-- An instruction that goes on is executed. -/
theorem Leads.instr {i : Instr} (h : Stands a.lines m.line (.instr i remark :: rest))
    (hexecute : loading.execute m i = .next final) (hrest : loading.Leads Q X final) :
    loading.Leads Q X m :=
  .next ((step_instr h).trans hexecute) hrest

/-- A label is passed. -/
theorem Leads.label {l : Label} (h : Stands a.lines m.line (.label l :: rest))
    (hrest : loading.Leads Q X m.advance) : loading.Leads Q X m :=
  .next (step_label h) hrest

/-- A push, if it does not overflow. -/
theorem reaches_push {r : Register} (h : Stands a.lines m.line (.instr (.push r) remark :: rest)) :
    loading.Reaches (fun m' => loading.low + 4 ≤ (m.registers .esp).toNat ∧
      m' = (m.pushed (m.registers r)).advance) m := by
  by_cases hspace : (m.registers .esp).toNat < loading.low + 4
  · refine .overflows ((step_instr h).trans ?_)
    simp only [execute, push, if_pos hspace]
  · refine .instr h ?_ (.here ⟨Nat.le_of_not_lt hspace, rfl⟩)
    simp only [execute, push, if_neg hspace]

/-- A pop takes the word at the top into its register. -/
theorem execute_pop {r : Register} (h : (m.registers .esp).toNat + 4 ≤ addressSpace) :
    loading.execute m (.pop r) =
      .next ((m.set .esp (m.registers .esp + 4)).set r
        (m.memory.word (m.registers .esp).toNat)).advance := by
  simp only [execute, fetch, if_pos h]

/-- A load takes the word at its address into its register. -/
theorem execute_load {r : Register} {src : Address} (h : m.address src + 4 ≤ addressSpace) :
    loading.execute m (.load r src) = .next (m.set r (m.memory.word (m.address src))).advance := by
  simp only [execute, fetch, if_pos h]

/-- A store puts its register at its address. -/
theorem execute_store {r : Register} {dst : Address} (h : m.address dst + 4 ≤ addressSpace) :
    loading.execute m (.store dst r) = .next
      { m with
        line := m.line + 1
        memory := m.memory.setWord (m.address dst) (m.registers r) } := by
  simp only [execute, if_pos h]

/-- It may put a constant there. -/
theorem execute_storeConst {n : Int32} {dst : Address} (h : m.address dst + 4 ≤ addressSpace) :
    loading.execute m (.storeConst dst n) = .next
      { m with line := m.line + 1, memory := m.memory.setWord (m.address dst) n.toBitVec } := by
  simp only [execute, if_pos h]

/-- A jump goes to the line of its label. -/
theorem execute_jump {l : Label} {n : Nat} (h : a.target? l = some n) :
    loading.execute m (.jump l) = .next { m with line := n } := by
  simp only [execute, jump, h]

/-- A word is divided by another one that is not zero. -/
theorem execute_divide {r : Register} (hhigh : m.registers .edx = 0)
    (hdivisor : (m.registers r).toNat ≠ 0) :
    loading.execute m (.divide r) = .next
      { (m.set .eax (BitVec.ofNat 32 ((m.registers .eax).toNat / (m.registers r).toNat))).set .edx
          (BitVec.ofNat 32 ((m.registers .eax).toNat % (m.registers r).toNat)) with
        line := m.line + 1
        flags := none } := by
  have hword : (m.registers .eax).toNat < addressSpace := (m.registers .eax).isLt
  have hquotient := Nat.div_le_self (m.registers .eax).toNat (m.registers r).toNat
  have hdividend : (m.registers .edx).toNat * addressSpace + (m.registers .eax).toNat =
      (m.registers .eax).toNat := by
    rw [hhigh]
    show 0 * addressSpace + _ = _
    rw [Nat.zero_mul, Nat.zero_add]
  simp only [execute, divide, hdividend]
  rw [if_neg (by omega)]

/-- A conditional jump, taken or not. -/
theorem execute_jumpIf {condition : Condition} {l : Label} {n : Nat} {flags : Flags}
    (hflags : m.flags = some flags) (h : a.target? l = some n) :
    loading.execute m (.jumpIf condition l) =
      .next (if condition.holds flags then { m with line := n } else m.advance) := by
  simp only [execute, jump, hflags, h]
  split <;> rfl

/-- A call, if it does not overflow: the address of the next line is pushed. -/
theorem reaches_call {l : Label} {n : Nat}
    (h : Stands a.lines m.line (.instr (.call l) remark :: rest)) (htarget : a.target? l = some n) :
    loading.Reaches (fun m' => loading.low + 4 ≤ (m.registers .esp).toNat ∧
      m' = { m.pushed (loading.code (m.line + 1)) with line := n }) m := by
  by_cases hspace : (m.registers .esp).toNat < loading.low + 4
  · refine .overflows ((step_instr h).trans ?_)
    simp only [execute, push, if_pos hspace]
  · refine .instr h ?_ (.here ⟨Nat.le_of_not_lt hspace, rfl⟩)
    simp only [execute, push, if_neg hspace, jump, htarget]

/-- Space on the stack, if it does not overflow. -/
theorem reaches_reserve {n : Nat}
    (h : Stands a.lines m.line (.instr (.subConst .esp n) remark :: rest)) :
    loading.Reaches (fun m' => loading.low + n ≤ (m.registers .esp).toNat ∧
      m' = { m.set .esp (m.registers .esp - BitVec.ofNat 32 n) with
        line := m.line + 1
        flags := some (.ofWord (m.registers .esp - BitVec.ofNat 32 n)) }) m := by
  by_cases hspace : (m.registers .esp).toNat < loading.low + n
  · refine .overflows ((step_instr h).trans ?_)
    simp only [execute, true_and, if_pos hspace]
  · refine .instr h ?_ (.here ⟨Nat.le_of_not_lt hspace, rfl⟩)
    simp only [execute, true_and, if_neg hspace, result]

/-- A system call with one in the first register exits. -/
theorem execute_exit (h : m.registers .eax = 1) :
    loading.execute m .systemCall = .exits (m.registers .ebx) m.output := by
  simp only [execute, systemCall, if_pos h]

/-- A return goes to the line whose address is at the top. -/
theorem execute_ret {n : Nat} (h : (m.registers .esp).toNat + 4 ≤ addressSpace)
    (hback : loading.locate (m.memory.word (m.registers .esp).toNat) = some n) :
    loading.execute m .ret = .next { m.set .esp (m.registers .esp + 4) with line := n } := by
  simp only [execute, fetch, if_pos h, hback]

end Loading

end Slate
