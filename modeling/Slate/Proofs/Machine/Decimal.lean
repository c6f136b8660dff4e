import Slate.Assembly.PrintRoutine
import Slate.Proofs.Machine.Confined
import Slate.Tree.Text

/-!
# Decimal digits

The bytes of an integer in decimal digits, and the loop of the print routine that
computes them.

The routine builds its text backwards in the sixteen bytes above the stack pointer: what
has been written so far lies from `ecx` up to the end of the buffer, and `ebx` counts its
bytes (`Buffered`).  A round of the loop puts the last digit of what is left in `eax` in
front and leaves the other digits; it goes on until nothing is left, so the number 0 has
one digit.  The loop ends because what is left gets smaller, and the buffer is large
enough because a word has ten digits at most.
-/

namespace Slate

/-! ## Bytes of an integer -/

/-- The bytes of a number in decimal digits. -/
def decimalBytes (n : Nat) : List UInt8 := (Nat.toDigits 10 n).flatMap String.utf8EncodeChar

/-- The bytes of an integer in decimal digits, after a minus sign if it is negative. -/
def intBytes (i : Int32) : List UInt8 :=
  (if i.toInt < 0 then [45] else []) ++ decimalBytes i.toInt.natAbs

theorem encode_digit {d : Nat} (h : d < 10) :
    String.utf8EncodeChar d.digitChar = [UInt8.ofNat d + 48] := by
  have hall : ∀ d : Fin 10, String.utf8EncodeChar d.val.digitChar = [UInt8.ofNat d.val + 48] := by
    decide
  exact hall ⟨d, h⟩

/-- A number of one digit. -/
theorem decimalBytes_of_lt {n : Nat} (h : n < 10) : decimalBytes n = [UInt8.ofNat n + 48] := by
  unfold decimalBytes
  rw [Nat.toDigits_of_lt_base h, List.flatMap_singleton, encode_digit h]

/-- The last digit of a number stands behind the others. -/
theorem decimalBytes_of_le {n : Nat} (h : 10 ≤ n) :
    decimalBytes n = decimalBytes (n / 10) ++ [UInt8.ofNat (n % 10) + 48] := by
  have hdigit : n % 10 < 10 := Nat.mod_lt n (by omega)
  unfold decimalBytes
  rw [Nat.toDigits_of_base_le (by omega) h, List.flatMap_append, List.flatMap_singleton,
    encode_digit hdigit]

/-- The text of an integer with a newline, in bytes. -/
theorem intText_bytes (i : Int32) :
    (intText i ++ "\n").toUTF8 = (intBytes i ++ [10]).toByteArray := by
  have hdigits : ∀ n : Nat, n.repr.toUTF8 = (decimalBytes n).toByteArray := by
    intro n
    show n.repr.toByteArray = _
    rw [Nat.repr_eq_ofList_toDigits, String.toByteArray_ofList]
    rfl
  have hnewline : "\n".toUTF8 = [10].toByteArray := by
    decide
  have hsign : "-".toUTF8 = [45].toByteArray := by
    decide
  have htext : (intText i).toUTF8 = (intBytes i).toByteArray := by
    unfold intText intBytes
    rw [Int.toString_eq_repr, Int.repr_eq_if]
    by_cases hnegative : i.toInt < 0
    · rw [if_neg (by omega), if_pos hnegative, List.toByteArray_append, ← hsign, ← hdigits,
        show (-i.toInt).toNat = i.toInt.natAbs by omega]
      exact String.toByteArray_append
    · rw [if_pos (by omega), if_neg hnegative, List.nil_append, ← hdigits,
        show i.toInt.toNat = i.toInt.natAbs by omega]
  rw [List.toByteArray_append, ← htext, ← hnewline]
  exact String.toByteArray_append

/-! ## The buffer -/

variable {m₀ m m' : Machine} {text : List UInt8}

/-- Some text has been written into the buffer since the state `m₀`. -/
structure Buffered (m₀ : Machine) (text : List UInt8) (m : Machine) : Prop where
  stack : m.registers .esp = m₀.registers .esp
  number : m.registers .edi = m₀.registers .edi
  cursor : (m.registers .ecx).toNat + text.length = (m₀.registers .esp).toNat + 16
  count : (m.registers .ebx).toNat = text.length
  bytes : ∀ (i : Nat) (b : UInt8), text[i]? = some b →
    m.memory ((m.registers .ecx).toNat + i) = b
  kept : ∀ q, (q < (m₀.registers .esp).toNat ∨ (m₀.registers .esp).toNat + 16 ≤ q) →
    m.memory q = m₀.memory q
  output : m.output = m₀.output

/-- A byte is written in front. -/
theorem Buffered.cons {b : UInt8} (h : Buffered m₀ text m) (hroom : text.length < 16)
    (hstack : m'.registers .esp = m.registers .esp)
    (hnumber : m'.registers .edi = m.registers .edi)
    (hcursor : m'.registers .ecx = m.registers .ecx - 1)
    (hcount : m'.registers .ebx = m.registers .ebx + 1)
    (hmemory : m'.memory = m.memory.setByte (m.registers .ecx - 1).toNat b)
    (houtput : m'.output = m.output) : Buffered m₀ (b :: text) m' := by
  have hat := h.cursor
  have hlength := h.count
  have hsub : (m.registers .ecx - 1).toNat = (m.registers .ecx).toNat - 1 :=
    @Word.toNat_sub_ofNat _ 1 (by omega)
  refine ⟨hstack.trans h.stack, hnumber.trans h.number, ?_, ?_, ?_, ?_, houtput.trans h.output⟩
  · rw [hcursor, List.length_cons]
    omega
  · rw [hcount, BitVec.toNat_add, List.length_cons, hlength]
    exact Nat.mod_eq_of_lt (Nat.lt_trans (Nat.succ_lt_succ hroom) (by decide))
  · intro i b' hb'
    rw [hmemory, hcursor]
    cases i with
    | zero =>
        cases hb'
        exact Memory.setByte_same _ _ _
    | succ i =>
        rw [Memory.setByte_apart _ (by omega)]
        have hold := h.bytes i b' hb'
        rw [show (m.registers .ecx).toNat + i = (m.registers .ecx - 1).toNat + (i + 1) by omega]
          at hold
        exact hold
  · intro q hq
    rw [hmemory, Memory.setByte_apart _ (by omega)]
    exact h.kept q hq

/-- There is room for another byte in front. -/
theorem Buffered.front (h : Buffered m₀ text m) (hroom : text.length < 16) :
    (m₀.registers .esp).toNat ≤ (m.registers .ecx - 1).toNat ∧
      (m.registers .ecx - 1).toNat < (m₀.registers .esp).toNat + 16 := by
  have hat := h.cursor
  have hsub : (m.registers .ecx - 1).toNat = (m.registers .ecx).toNat - 1 :=
    @Word.toNat_sub_ofNat _ 1 (by omega)
  omega

/-- Neither the line nor the flags matter. -/
theorem Buffered.same (h : Buffered m₀ text m) (hregisters : m'.registers = m.registers)
    (hmemory : m'.memory = m.memory) (houtput : m'.output = m.output) : Buffered m₀ text m' := by
  obtain ⟨hstack, hnumber, hcursor, hcount, hbytes, hkept, hsame⟩ := h
  rw [← hregisters] at hstack hnumber hcursor hcount hbytes
  rw [← hmemory] at hbytes hkept
  exact ⟨hstack, hnumber, hcursor, hcount, hbytes, hkept, houtput.trans hsame⟩

/-! ## The loop -/

variable {a : Listing} {loading : Loading a} {top depth : Nat}

/-- What is left is divided by ten: the quotient is left, and the rest is the digit. -/
theorem reaches_quotient (hstands : Stands a.lines m.line (printRoutine.drop 15))
    (h : Buffered m₀ text m) :
    loading.Confined top depth (fun m' => m'.line = m.line + 4 ∧
      (m'.registers .eax).toNat = (m.registers .eax).toNat / 10 ∧
        (m'.registers .edx).toNat = (m.registers .eax).toNat % 10 ∧ Buffered m₀ text m') [] m := by
  have hword : (m.registers .eax).toNat < 2 ^ 32 := (m.registers .eax).isLt
  have hclear : m.registers .edx ^^^ m.registers .edx = 0 := BitVec.xor_self
  have hten : (10 : Int32).toBitVec.toNat ≠ 0 := by
    decide
  refine .label hstands (.instr hstands.2 rfl rfl (.instr hstands.2.2 rfl rfl ?_))
  refine .instr hstands.2.2.2 rfl (Loading.execute_divide hclear hten) (.here ⟨rfl, ?_, ?_, ?_⟩)
  · show (BitVec.ofNat 32 ((m.registers .eax).toNat / 10)).toNat = _
    rw [BitVec.toNat_ofNat]
    omega
  · show (BitVec.ofNat 32 ((m.registers .eax).toNat % 10)).toNat = _
    rw [BitVec.toNat_ofNat]
    omega
  · exact ⟨h.stack, h.number, h.cursor, h.count, h.bytes, h.kept, h.output⟩

section

variable (hlow : top ≤ (m₀.registers .esp).toNat + depth)
  (hhigh : (m₀.registers .esp).toNat + 16 ≤ top)
include hlow hhigh

/-- The digit in `edx` is written, and what is left is tested. -/
theorem reaches_tested_digit (hstands : Stands a.lines m.line (printRoutine.drop 19))
    (h : Buffered m₀ text m) (hroom : text.length < 16) :
    loading.Confined top depth (fun m' => m'.line = m.line + 5 ∧
      m'.registers .eax = m.registers .eax ∧ m'.flags = some (.ofWord (m.registers .eax)) ∧
        Buffered m₀ ((UInt8.ofNat (m.registers .edx).toNat + 48) :: text) m') [] m := by
  have hfront := h.front hroom
  refine .instr hstands rfl rfl (.instr hstands.2 rfl rfl (.store hstands.2.2 rfl rfl ?_ ?_))
  · intro q hq
    obtain rfl := List.mem_singleton.1 hq
    rw [Machine.address_of]
    show top ≤ (m.registers .ecx - 1).toNat + depth ∧ (m.registers .ecx - 1).toNat < top
    omega
  refine .instr hstands.2.2.2 rfl rfl (.instr hstands.2.2.2.2 rfl rfl (.here ⟨rfl, rfl, ?_, ?_⟩))
  · show some (Flags.ofWord (m.registers .eax &&& m.registers .eax)) = _
    rw [BitVec.and_self]
  · refine h.cons hroom rfl rfl rfl rfl ?_ rfl
    rw [← m.byte_setByte .dl (UInt8.ofNat (m.registers .edx).toNat + 48)]
    show m.memory.setByte (Machine.address _ (.of .ecx)) _ = _
    rw [Machine.address_of]
    rfl

/-- **Digits.**  A round writes the last digit of what is left, and goes on with the
others. -/
theorem reaches_digit (hstands : Stands a.lines m.line (printRoutine.drop 15))
    (htarget : a.target? (.inner "digit") = some m.line) (h : Buffered m₀ text m)
    (hroom : text.length < 16) :
    loading.Confined top depth (fun m' =>
      m'.line = (if (m.registers .eax).toNat < 10 then m.line + 10 else m.line) ∧
        (m'.registers .eax).toNat = (m.registers .eax).toNat / 10 ∧
          Buffered m₀ ((UInt8.ofNat ((m.registers .eax).toNat % 10) + 48) :: text) m') [] m := by
  refine .after (reaches_quotient hstands h) fun m₁ hm₁ => ?_
  obtain ⟨hline₁, hquotient, hdigit, hbuffered₁⟩ := hm₁
  have hstands₁ : Stands a.lines m₁.line (printRoutine.drop 19) := by
    rw [hline₁]
    exact hstands.2.2.2.2
  refine .after (reaches_tested_digit hlow hhigh hstands₁ hbuffered₁ hroom) fun m₂ hm₂ => ?_
  obtain ⟨hline₂, hsame, hflags, hbuffered₂⟩ := hm₂
  have hstands₂ : Stands a.lines m₂.line (printRoutine.drop 24) := by
    rw [hline₂]
    exact hstands₁.2.2.2.2.2
  have hjump : loading.execute m₂ (.jumpIf .notZero (.inner "digit")) = _ :=
    Loading.execute_jumpIf hflags htarget
  rw [hdigit] at hbuffered₂
  rw [← hsame] at hquotient hjump
  by_cases hlast : (m.registers .eax).toNat < 10
  · have hzero : m₂.registers .eax = 0 := by
      apply BitVec.eq_of_toNat_eq
      rw [hquotient, Nat.div_eq_of_lt hlast]
      rfl
    have hholds : Condition.notZero.holds (.ofWord (m₂.registers .eax)) = false := by
      rw [hzero]
      rfl
    rw [hholds] at hjump
    refine .instr hstands₂ rfl hjump (.here ⟨?_, hquotient, ?_⟩)
    · show m₂.line + 1 = _
      rw [if_pos hlast, hline₂, hline₁]
    · exact hbuffered₂.same rfl rfl rfl
  · have hmore : m₂.registers .eax ≠ 0 := by
      intro hzero
      rw [hzero] at hquotient
      have hnone : 0 = (m.registers .eax).toNat / 10 := hquotient
      omega
    have hholds : Condition.notZero.holds (.ofWord (m₂.registers .eax)) = true := by
      show (!decide (m₂.registers .eax = 0)) = true
      rw [decide_eq_false hmore]
      rfl
    rw [hholds] at hjump
    refine .instr hstands₂ rfl hjump (.here ⟨?_, hquotient, ?_⟩)
    · rw [if_neg hlast]
      rfl
    · exact hbuffered₂.same rfl rfl rfl

/-- **The loop.**  It writes all digits of what is left. -/
theorem reaches_digits {line : Nat} (hstands : Stands a.lines line (printRoutine.drop 15))
    (htarget : a.target? (.inner "digit") = some line) (more : Nat) :
    ∀ {text : List UInt8} {m : Machine}, m.line = line → Buffered m₀ text m →
      (m.registers .eax).toNat < Nat.pow 10 (more + 1) → text.length + (more + 1) ≤ 16 →
        loading.Confined top depth (fun m' => m'.line = line + 10 ∧
          (decimalBytes (m.registers .eax).toNat).length ≤ more + 1 ∧
            Buffered m₀ (decimalBytes (m.registers .eax).toNat ++ text) m') [] m := by
  induction more with
  | zero =>
      intro text m hline h hleft hroom
      rw [← hline] at hstands htarget
      refine .after (reaches_digit hlow hhigh hstands htarget h (by omega)) fun m' hm' => ?_
      obtain ⟨hline', _, hbuffered⟩ := hm'
      have hlast : (m.registers .eax).toNat < 10 := hleft
      rw [if_pos hlast, hline] at hline'
      rw [Nat.mod_eq_of_lt hlast] at hbuffered
      rw [decimalBytes_of_lt hlast]
      exact .here ⟨hline', Nat.le_refl _, hbuffered⟩
  | succ more ih =>
      intro text m hline h hleft hroom
      have hstands' := hstands
      have htarget' := htarget
      rw [← hline] at hstands' htarget'
      refine .after (reaches_digit hlow hhigh hstands' htarget' h (by omega)) fun m₁ hm₁ => ?_
      obtain ⟨hline₁, hquotient, hbuffered₁⟩ := hm₁
      by_cases hlast : (m.registers .eax).toNat < 10
      · rw [if_pos hlast, hline] at hline₁
        rw [Nat.mod_eq_of_lt hlast] at hbuffered₁
        rw [decimalBytes_of_lt hlast]
        exact .here ⟨hline₁, by simp, hbuffered₁⟩
      · rw [if_neg hlast, hline] at hline₁
        have hleft' : (m.registers .eax).toNat < Nat.pow 10 (more + 1) * 10 := hleft
        rw [decimalBytes_of_le (Nat.le_of_not_lt hlast), ← hquotient, List.append_assoc]
        refine .after (ih hline₁ hbuffered₁ ?_ ?_) fun m₂ hm₂ => ?_
        · omega
        · rw [List.length_cons]
          omega
        · obtain ⟨hline₂, hlength, hbuffered₂⟩ := hm₂
          refine .here ⟨hline₂, ?_, hbuffered₂⟩
          rw [List.length_append, List.length_singleton]
          omega

end

end Slate
