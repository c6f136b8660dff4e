import Slate.Proofs.Compile.Calls
import Slate.Proofs.Machine.Decimal

/-!
# The print routine

The routine saves what it changes, makes room for a buffer, and writes the text of its
argument there, from the newline at the end to the sign at the front.  Then the buffer
from `ecx` on is written to the standard output.

The buffer lies below everything that has been saved, so the saved registers and the return
address are found again.  For the least integer the absolute value is no positive
integer, but the division takes the word as it is, without a sign.

All that the routine stores lies in the 32 bytes below the return address: four words that are
saved, and the buffer.

* `print_confined` — what the routine does, store by store and write by write.
* `print_follows` — the machine follows the builtin.
-/

namespace Slate

variable {a : Assembly} {loading : Loading a.listing} {m m₀ m₁ m₂ : Machine} {i : Int32}
  {text : List UInt8} {top depth : Nat}

/-! ## Saving and taking back -/

/-- The state after a push. -/
structure Stacked (loading : Loading a.listing) (m : Machine) (w : Word) (m' : Machine) : Prop where
  line : m'.line = m.line + 1
  stack : (m'.registers .esp).toNat + 4 = (m.registers .esp).toNat
  others : ∀ r, r ≠ .esp → m'.registers r = m.registers r
  word : m'.memory.word (m'.registers .esp).toNat = w
  keeps : Keeps loading (m.registers .esp).toNat nowhere m.memory m'.memory
  output : m'.output = m.output

/-- A push inside the frame of the routine is confined to it. -/
theorem reaches_stacked {r : Register} {remark : Option String} {rest : List Line}
    (hstands : Stands a.listing.lines m.line (.instr (.push r) remark :: rest))
    (hlow : top + 4 ≤ (m.registers .esp).toNat + depth)
    (hhigh : (m.registers .esp).toNat ≤ top) :
    loading.Confined top depth (Stacked loading m (m.registers r)) [] m := by
  refine .push hstands hlow hhigh fun hspace => ?_
  have hsub : (m.registers .esp - 4).toNat = (m.registers .esp).toNat - 4 :=
    Word.toNat_sub_four (by omega)
  refine .here ⟨rfl, ?_, ?_, ?_, ?_, rfl⟩
  · show (m.registers .esp - 4).toNat + 4 = _
    omega
  · intro other hother
    exact if_neg hother
  · show (m.memory.setWord ((m.registers .esp).toNat - 4) (m.registers r)).word
      (m.registers .esp - 4).toNat = _
    rw [hsub, Memory.word_setWord]
  · exact .store_free _ (by omega) (by omega)

/-- The state after a pop. -/
structure Unstacked (m : Machine) (r : Register) (m' : Machine) : Prop where
  line : m'.line = m.line + 1
  stack : (m'.registers .esp).toNat = (m.registers .esp).toNat + 4
  word : m'.registers r = m.memory.word (m.registers .esp).toNat
  others : ∀ other, other ≠ .esp → other ≠ r → m'.registers other = m.registers other
  memory : m'.memory = m.memory
  output : m'.output = m.output

/-- A pop stores nothing. -/
theorem reaches_unstacked {r : Register} {remark : Option String} {rest : List Line} (hr : r ≠ .esp)
    (hstands : Stands a.listing.lines m.line (.instr (.pop r) remark :: rest))
    (hspace : (m.registers .esp).toNat + 4 < addressSpace) :
    loading.Confined top depth (Unstacked m r) [] m := by
  refine .instr hstands rfl (Loading.execute_pop (by omega)) (.here ⟨rfl, ?_, ?_, ?_, rfl, rfl⟩)
  · have hsum : (m.registers .esp + 4).toNat = _ := Word.toNat_add_four hspace
    rw [← hsum]
    exact congrArg BitVec.toNat (if_neg hr.symm)
  · exact if_pos rfl
  · intro other hesp hother
    exact (if_neg hother).trans (if_neg hesp)

/-- The words below the stack pointer of `m₁` hold what its registers held. -/
structure Spilled (m₁ m : Machine) : Prop where
  ebp : m.memory.word ((m₁.registers .esp).toNat - 4) = m₁.registers .ebp
  ebx : m.memory.word ((m₁.registers .esp).toNat - 8) = m₁.registers .ebx
  esi : m.memory.word ((m₁.registers .esp).toNat - 12) = m₁.registers .esi
  edi : m.memory.word ((m₁.registers .esp).toNat - 16) = m₁.registers .edi

/-- Registers stay saved while the bytes stay that hold them. -/
theorem Spilled.congr (h : Spilled m₁ m) (hroom : 16 ≤ (m₁.registers .esp).toNat)
    (hsame : ∀ q, (m₁.registers .esp).toNat ≤ q + 16 → q < (m₁.registers .esp).toNat →
      m₂.memory q = m.memory q) : Spilled m₁ m₂ := by
  have hword : ∀ p, (m₁.registers .esp).toNat ≤ p + 16 → p + 4 ≤ (m₁.registers .esp).toNat →
      m₂.memory.word p = m.memory.word p := fun p hlow hhigh =>
    Memory.word_congr fun q hfrom hto => hsame q (by omega) (by omega)
  refine ⟨(hword _ ?_ ?_).trans h.ebp, (hword _ ?_ ?_).trans h.ebx, (hword _ ?_ ?_).trans h.esi,
    (hword _ ?_ ?_).trans h.edi⟩ <;> omega

/-! ## The beginning -/

/-- The state in which there is a buffer above the stack pointer, and the argument has
been loaded. -/
structure Prepared (loading : Loading a.listing) (i : Int32) (m₁ m₀ : Machine) : Prop where
  stack : (m₀.registers .esp).toNat + 32 = (m₁.registers .esp).toNat
  low : loading.low ≤ (m₀.registers .esp).toNat
  left : m₀.registers .eax = i.toBitVec
  number : m₀.registers .edi = i.toBitVec
  saved : Spilled m₁ m₀
  keeps : Keeps loading (m₁.registers .esp).toNat nowhere m₁.memory m₀.memory
  output : m₀.output = m₁.output

/-- The state in which the registers of the caller have been saved. -/
structure Prologue (loading : Loading a.listing) (m₁ s : Machine) : Prop where
  line : s.line = m₁.line + 5
  stack : (s.registers .esp).toNat + 16 = (m₁.registers .esp).toNat
  base : (s.registers .ebp).toNat + 4 = (m₁.registers .esp).toNat
  saved : Spilled m₁ s
  keeps : Keeps loading (m₁.registers .esp).toNat nowhere m₁.memory s.memory
  output : s.output = m₁.output

/-- The beginning saves the registers and makes room for the buffer. -/
theorem reaches_prologue (hstands : Stands a.listing.lines m₁.line printRoutine) :
    loading.Confined (m₁.registers .esp).toNat 32 (Prologue loading m₁) [] m₁ := by
  refine .after (reaches_stacked hstands (by omega) (by omega)) fun s₁ h₁ => ?_
  have hstack₁ := h₁.stack
  have hstands₁ : Stands a.listing.lines s₁.line (printRoutine.drop 1) := h₁.line ▸ hstands.2
  refine .instr hstands₁ rfl rfl ?_
  refine .after (reaches_stacked hstands₁.2 ?_ ?_) fun s₂ h₂ => ?_
  · show (m₁.registers .esp).toNat + 4 ≤ (s₁.registers .esp).toNat + 32
    omega
  · show (s₁.registers .esp).toNat ≤ (m₁.registers .esp).toNat
    omega
  have hstack₂ : (s₂.registers .esp).toNat + 4 = (s₁.registers .esp).toNat := h₂.stack
  have hstands₂ : Stands a.listing.lines s₂.line (printRoutine.drop 3) := h₂.line ▸ hstands₁.2.2
  refine .after (reaches_stacked hstands₂ (by omega) (by omega)) fun s₃ h₃ => ?_
  have hstack₃ := h₃.stack
  have hstands₃ : Stands a.listing.lines s₃.line (printRoutine.drop 4) := h₃.line ▸ hstands₂.2
  refine .after (reaches_stacked hstands₃ (by omega) (by omega)) fun s₄ h₄ => ?_
  have hstack₄ := h₄.stack
  have hbase : s₄.registers .ebp = s₁.registers .esp := by
    rw [h₄.others _ (by decide), h₃.others _ (by decide), h₂.others _ (by decide)]
    rfl
  -- Behind each saved register, every change is one of the free part of the stack.
  have hkeeps₂ : Keeps loading (s₁.registers .esp).toNat nowhere s₁.memory s₂.memory := h₂.keeps
  have hlater₃ : Keeps loading (s₂.registers .esp).toNat nowhere s₂.memory s₄.memory :=
    h₃.keeps.trans (h₄.keeps.mono (by omega) fun _ hno => hno)
  have hlater : Keeps loading (s₁.registers .esp).toNat nowhere s₁.memory s₄.memory :=
    hkeeps₂.trans (hlater₃.mono (by omega) fun _ hno => hno)
  refine .here ⟨?_, by omega, ?_, ⟨?_, ?_, ?_, ?_⟩, ?_, ?_⟩
  · rw [h₄.line, h₃.line, h₂.line]
    show s₁.line + 1 + 1 + 1 + 1 = _
    rw [h₁.line]
  · rw [hbase]
    exact hstack₁
  · rw [hlater.word (by omega) fun _ _ _ hno => hno, ← h₁.word]
    congr 1
    omega
  · have hebx : s₁.registers .ebx = m₁.registers .ebx := h₁.others _ (by decide)
    have hword : s₂.memory.word (s₂.registers .esp).toNat = s₁.registers .ebx := h₂.word
    rw [hlater₃.word (by omega) fun _ _ _ hno => hno, ← hebx, ← hword]
    congr 1
    omega
  · have hesi : s₂.registers .esi = m₁.registers .esi :=
      (h₂.others _ (by decide)).trans (h₁.others _ (by decide))
    rw [h₄.keeps.word (by omega) fun _ _ _ hno => hno, ← hesi, ← h₃.word]
    congr 1
    omega
  · have hedi : s₃.registers .edi = m₁.registers .edi :=
      (h₃.others _ (by decide)).trans
        ((h₂.others _ (by decide)).trans (h₁.others _ (by decide)))
    rw [← hedi, ← h₄.word]
    congr 1
    omega
  · exact h₁.keeps.trans (hlater.mono (by omega) fun _ hno => hno)
  · exact (h₄.output.trans (h₃.output.trans h₂.output)).trans h₁.output

/-- **The beginning.**  The argument lies behind the return address. -/
theorem reaches_prepared (hspace : (m₁.registers .esp).toNat + 8 ≤ addressSpace)
    (hargument : m₁.memory.word ((m₁.registers .esp).toNat + 4) = i.toBitVec)
    (hstands : Stands a.listing.lines m₁.line printRoutine) :
    loading.Confined (m₁.registers .esp).toNat 32
      (fun m₀ => m₀.line = m₁.line + 8 ∧ Prepared loading i m₁ m₀) [] m₁ := by
  refine .after (reaches_prologue hstands) fun s hs => ?_
  have hstands₁ : Stands a.listing.lines s.line (printRoutine.drop 5) :=
    hs.line ▸ stands_drop 5 hstands
  have hstack := hs.stack
  have hbase := hs.base
  refine .reserve hstands₁ (by omega) fun hroom => ?_
  have hreserved : (s.registers .esp - BitVec.ofNat 32 16).toNat =
      (s.registers .esp).toNat - 16 := Word.toNat_sub_ofNat (by omega)
  have haddress : (s.registers .ebp + BitVec.ofInt 32 8).toNat = (m₁.registers .esp).toNat + 4 := by
    rw [BitVec.toNat_add]
    show ((s.registers .ebp).toNat + 8) % 2 ^ 32 = _
    unfold addressSpace at hspace
    omega
  have hloaded : s.memory.word (s.registers .ebp + BitVec.ofInt 32 8).toNat = i.toBitVec := by
    rw [haddress, hs.keeps.word (by omega) fun _ _ _ hno => hno, hargument]
  have hload := @Loading.execute_load a.listing loading
    { s.set .esp (s.registers .esp - BitVec.ofNat 32 16) with
      line := s.line + 1
      flags := some (.ofWord (s.registers .esp - BitVec.ofNat 32 16)) } .eax ⟨.ebp, 8⟩
    (by show (s.registers .ebp + BitVec.ofInt 32 8).toNat + 4 ≤ addressSpace; omega)
  refine .instr hstands₁.2 rfl hload
    (.instr hstands₁.2.2 rfl rfl (.here ⟨?_, ?_, ?_, ?_, ?_, ?_, ?_, ?_⟩))
  · show s.line + 3 = _
    rw [hs.line]
  · show (s.registers .esp - BitVec.ofNat 32 16).toNat + 32 = _
    omega
  · show loading.low ≤ (s.registers .esp - BitVec.ofNat 32 16).toNat
    omega
  · exact hloaded
  · exact hloaded
  · exact hs.saved.congr (by omega) fun _ _ _ => rfl
  · exact hs.keeps
  · exact hs.output

/-! ## The text -/

/-- The sign bit of a word. -/
theorem Flags.negative_ofWord (i : Int32) :
    (Flags.ofWord i.toBitVec).negative = decide (i.toInt < 0) := by
  show i.toBitVec.msb = decide (i.toBitVec.toInt < 0)
  exact BitVec.msb_eq_toInt

/-- A conditional jump on a nonnegative word. -/
theorem execute_jumpIf_sign {label : Label} {n : Nat} (htarget : a.listing.target? label = some n)
    (hflags : m.flags = some (.ofWord i.toBitVec)) :
    loading.execute m (.jumpIf .notNegative label) =
      .next (if i.toInt < 0 then m.advance else { m with line := n }) := by
  rw [Loading.execute_jumpIf hflags htarget]
  show Effect.next (if (!(Flags.ofWord i.toBitVec).negative) = true then _ else _) = _
  rw [Flags.negative_ofWord]
  by_cases hnegative : i.toInt < 0
  · rw [if_pos hnegative, decide_eq_true hnegative]
    rfl
  · rw [if_neg hnegative, decide_eq_false hnegative]
    rfl

/-- The absolute value of an integer, as the machine computes it. -/
theorem toNat_neg_toBitVec (h : i.toInt < 0) : (-i.toBitVec).toNat = i.toInt.natAbs := by
  have hlt : i.toBitVec.toNat < 2 ^ 32 := i.toBitVec.isLt
  have hint : i.toInt = _ := i.toBitVec.toInt_eq_toNat_cond
  rw [hint] at h ⊢
  rw [BitVec.toNat_neg]
  split at h
  · omega
  · next hlarge =>
    rw [if_neg hlarge]
    omega

/-- A number that is not negative is its own magnitude. -/
theorem toNat_toBitVec (h : ¬ i.toInt < 0) : i.toBitVec.toNat = i.toInt.natAbs := by
  have hint : i.toInt = _ := i.toBitVec.toInt_eq_toNat_cond
  have hlt : i.toBitVec.toNat < 2 ^ 32 := i.toBitVec.isLt
  rw [hint] at h ⊢
  split at h
  · next hsmall =>
    rw [if_pos hsmall]
    omega
  · omega

/-- The state in which the newline has been written and the sign has been tested. -/
structure Terminated (i : Int32) (m₀ m : Machine) : Prop where
  line : m.line = m₀.line + 5
  left : m.registers .eax = i.toBitVec
  flags : m.flags = some (.ofWord i.toBitVec)
  buffered : Buffered m₀ [10] m

/-- The end of the text is stored first, at the end of the buffer. -/
theorem reaches_terminated (h : Prepared loading i m₁ m₀)
    (hspace : (m₁.registers .esp).toNat < addressSpace)
    (hstands : Stands a.listing.lines m₀.line (printRoutine.drop 8)) :
    loading.Confined (m₁.registers .esp).toNat 32 (Terminated i m₀) [] m₀ := by
  have hroom := h.stack
  have hword : (m₀.registers .esp).toNat < 2 ^ 32 := (m₀.registers .esp).isLt
  have haddress : m₀.address ⟨.esp, 16⟩ = (m₀.registers .esp).toNat + 16 := by
    unfold Machine.address
    rw [BitVec.toNat_add]
    show ((m₀.registers .esp).toNat + 16) % 2 ^ 32 = _
    unfold addressSpace at hspace
    omega
  have hcursor : (BitVec.ofNat 32 (m₀.address ⟨.esp, 16⟩) - 1).toNat =
      (m₀.registers .esp).toNat + 15 := by
    rw [haddress]
    unfold addressSpace at hspace
    have hend : (BitVec.ofNat 32 ((m₀.registers .esp).toNat + 16)).toNat =
        (m₀.registers .esp).toNat + 16 := by
      rw [BitVec.toNat_ofNat]
      omega
    have hsub := @Word.toNat_sub_ofNat (BitVec.ofNat 32 ((m₀.registers .esp).toNat + 16)) 1
      (by omega)
    rw [hend] at hsub
    exact hsub
  have hmemory : ∀ q, (m₀.memory.setByte (Machine.address
      ((m₀.set .ecx (BitVec.ofNat 32 (m₀.address ⟨.esp, 16⟩))).set .ecx
        (BitVec.ofNat 32 (m₀.address ⟨.esp, 16⟩) - 1)) (.of .ecx)) 10) q =
      if q = (m₀.registers .esp).toNat + 15 then 10 else m₀.memory q := by
    intro q
    rw [Machine.address_of]
    show (m₀.memory.setByte (BitVec.ofNat 32 (m₀.address ⟨.esp, 16⟩) - 1).toNat 10) q = _
    rw [hcursor]
    rfl
  refine .instr hstands rfl rfl (.instr hstands.2 rfl rfl (.store hstands.2.2 rfl rfl ?_ ?_))
  · intro q hq
    obtain rfl := List.mem_singleton.1 hq
    rw [Machine.address_of]
    show _ ≤ (BitVec.ofNat 32 (m₀.address ⟨.esp, 16⟩) - 1).toNat + 32 ∧
      (BitVec.ofNat 32 (m₀.address ⟨.esp, 16⟩) - 1).toNat < _
    omega
  refine .instr hstands.2.2.2 rfl rfl
    (.instr hstands.2.2.2.2 rfl rfl (.here ⟨rfl, h.left, ?_, ?_⟩))
  · show some (Flags.ofWord (m₀.registers .eax &&& m₀.registers .eax)) = _
    rw [BitVec.and_self, h.left]
  · refine ⟨rfl, rfl, ?_, rfl, ?_, ?_, rfl⟩
    · show (BitVec.ofNat 32 (m₀.address ⟨.esp, 16⟩) - 1).toNat + 1 = _
      omega
    · intro k b hb
      cases k with
      | zero =>
          cases hb
          refine (hmemory _).trans (if_pos ?_)
          exact hcursor
      | succ k => cases hb
    · intro q hq
      refine (hmemory q).trans (if_neg ?_)
      omega

/-- **The newline.**  It is written first, and the sign is taken off the argument. -/
theorem reaches_newline (h : Prepared loading i m₁ m₀)
    (hspace : (m₁.registers .esp).toNat < addressSpace)
    (hstands : Stands a.listing.lines m₀.line (printRoutine.drop 8))
    (htarget : a.listing.target? (.inner "digit") = some (m₀.line + 7)) :
    loading.Confined (m₁.registers .esp).toNat 32 (fun m => m.line = m₀.line + 7 ∧
      (m.registers .eax).toNat = i.toInt.natAbs ∧ Buffered m₀ [10] m) [] m₀ := by
  refine .after (reaches_terminated h hspace hstands) fun m hm => ?_
  obtain ⟨hline, hleft, hflags, hbuffered⟩ := hm
  have hjump : Stands a.listing.lines m.line (printRoutine.drop 13) := by
    rw [hline]
    exact hstands.2.2.2.2.2
  have hexecute := @execute_jumpIf_sign a loading m i _ _ htarget hflags
  by_cases hnegative : i.toInt < 0
  · rw [if_pos hnegative] at hexecute
    refine .instr hjump rfl hexecute (.instr hjump.2 rfl rfl (.here ⟨?_, ?_, ?_⟩))
    · show m.line + 1 + 1 = _
      rw [hline]
    · show (-m.registers .eax).toNat = _
      rw [hleft, toNat_neg_toBitVec hnegative]
    · exact ⟨hbuffered.stack, hbuffered.number, hbuffered.cursor, hbuffered.count,
        hbuffered.bytes, hbuffered.kept, hbuffered.output⟩
  · rw [if_neg hnegative] at hexecute
    refine .instr hjump rfl hexecute (.here ⟨rfl, ?_, hbuffered.same rfl rfl rfl⟩)
    show (m.registers .eax).toNat = _
    rw [hleft, toNat_toBitVec hnegative]

/-- **The sign.**  It is written in front of the digits. -/
theorem reaches_sign (h : Buffered m₀ text m) (hnumber : m₀.registers .edi = i.toBitVec)
    (hroom : text.length < 16) (hlow : top ≤ (m₀.registers .esp).toNat + depth)
    (hhigh : (m₀.registers .esp).toNat + 16 ≤ top)
    (hstands : Stands a.listing.lines m.line (printRoutine.drop 25))
    (htarget : a.listing.target? (.inner "write") = some (m.line + 5)) :
    loading.Confined top depth (fun m' => m'.line = m.line + 5 ∧
      Buffered m₀ ((if i.toInt < 0 then [45] else []) ++ text) m') [] m := by
  have hfront := h.front hroom
  have hflags : some (Flags.ofWord (m.registers .edi &&& m.registers .edi)) =
      some (.ofWord i.toBitVec) := by
    rw [BitVec.and_self, h.number, hnumber]
  have hexecute := @execute_jumpIf_sign a loading
    { m with
      line := m.line + 1
      flags := some (Flags.ofWord (m.registers .edi &&& m.registers .edi)) } i _ _ htarget hflags
  by_cases hnegative : i.toInt < 0
  · rw [if_pos hnegative] at hexecute ⊢
    refine .instr hstands rfl rfl (.instr hstands.2 rfl hexecute (.instr hstands.2.2 rfl rfl ?_))
    refine .store hstands.2.2.2 rfl rfl ?_ (.instr hstands.2.2.2.2 rfl rfl (.here ⟨rfl, ?_⟩))
    · intro q hq
      obtain rfl := List.mem_singleton.1 hq
      rw [Machine.address_of]
      show top ≤ (m.registers .ecx - 1).toNat + depth ∧ (m.registers .ecx - 1).toNat < top
      omega
    refine h.cons hroom rfl rfl rfl rfl ?_ rfl
    show m.memory.setByte (Machine.address _ (.of .ecx)) _ = _
    rw [Machine.address_of]
    rfl
  · rw [if_neg hnegative] at hexecute ⊢
    exact .instr hstands rfl rfl
      (.instr hstands.2 rfl hexecute (.here ⟨rfl, h.same rfl rfl rfl⟩))

/-! ## The end -/

/-- The text in the buffer is what lies at the cursor. -/
theorem Buffered.bytes_eq (h : Buffered m₀ text m) :
    m.memory.bytes (m.registers .ecx).toNat (m.registers .ebx).toNat = text.toByteArray := by
  rw [h.count, Memory.bytes_eq (Nat.le_refl _) fun k b hb _ => h.bytes k b hb, List.take_length]
  apply ByteArray.ext
  rw [List.data_toByteArray]

/-- The state in which the routine returns, with the registers of its caller. -/
structure Restored (m₁ m m' : Machine) : Prop where
  line : m'.line = m.line + 4
  preserves : ∀ r ∈ [Register.ebx, .esi, .edi, .ebp, .esp], m'.registers r = m₁.registers r
  memory : m'.memory = m.memory
  output : m'.output = m.output

/-- What was saved is taken back, from the last register to the first. -/
theorem reaches_restored (hsaved : Spilled m₁ m)
    (hstack : (m.registers .esp).toNat + 16 = (m₁.registers .esp).toNat)
    (hspace : (m₁.registers .esp).toNat < addressSpace)
    (hstands : Stands a.listing.lines m.line (printRoutine.drop 36)) :
    loading.Confined top depth (Restored m₁ m) [] m := by
  refine .after (reaches_unstacked (by decide) hstands (by omega)) fun s₁ h₁ => ?_
  have hstack₁ := h₁.stack
  have hstands₁ : Stands a.listing.lines s₁.line (printRoutine.drop 37) := h₁.line ▸ hstands.2
  refine .after (reaches_unstacked (by decide) hstands₁ (by omega)) fun s₂ h₂ => ?_
  have hstack₂ := h₂.stack
  have hstands₂ : Stands a.listing.lines s₂.line (printRoutine.drop 38) := h₂.line ▸ hstands₁.2
  refine .after (reaches_unstacked (by decide) hstands₂ (by omega)) fun s₃ h₃ => ?_
  have hstack₃ := h₃.stack
  have hstands₃ : Stands a.listing.lines s₃.line (printRoutine.drop 39) := h₃.line ▸ hstands₂.2
  refine .after (reaches_unstacked (by decide) hstands₃ (by omega)) fun s₄ h₄ => ?_
  have hmemory₂ : s₂.memory = m.memory := h₂.memory.trans h₁.memory
  have hmemory₃ : s₃.memory = m.memory := h₃.memory.trans hmemory₂
  have hedi : s₁.registers .edi = m₁.registers .edi := by
    rw [h₁.word, ← hsaved.edi,
      show (m.registers .esp).toNat = (m₁.registers .esp).toNat - 16 by omega]
  have hesi : s₂.registers .esi = m₁.registers .esi := by
    rw [h₂.word, h₁.memory, ← hsaved.esi,
      show (s₁.registers .esp).toNat = (m₁.registers .esp).toNat - 12 by omega]
  have hebx : s₃.registers .ebx = m₁.registers .ebx := by
    rw [h₃.word, hmemory₂, ← hsaved.ebx,
      show (s₂.registers .esp).toNat = (m₁.registers .esp).toNat - 8 by omega]
  have hebp : s₄.registers .ebp = m₁.registers .ebp := by
    rw [h₄.word, hmemory₃, ← hsaved.ebp,
      show (s₃.registers .esp).toNat = (m₁.registers .esp).toNat - 4 by omega]
  refine .here ⟨?_, ?_, h₄.memory.trans hmemory₃, ?_⟩
  · rw [h₄.line, h₃.line, h₂.line, h₁.line]
  · simp only [List.forall_mem_cons]
    refine ⟨?_, ?_, ?_, hebp, ?_, List.forall_mem_nil _⟩
    · rw [h₄.others _ (by decide) (by decide), hebx]
    · rw [h₄.others _ (by decide) (by decide), h₃.others _ (by decide) (by decide), hesi]
    · rw [h₄.others _ (by decide) (by decide), h₃.others _ (by decide) (by decide),
        h₂.others _ (by decide) (by decide), hedi]
    · apply BitVec.eq_of_toNat_eq
      rw [h₄.stack]
      omega
  · rw [h₄.output, h₃.output, h₂.output, h₁.output]

/-- The state in which the routine returns, with what it leaves to its caller. -/
structure Printed (loading : Loading a.listing) (m₁ : Machine) (bytes : ByteArray) (m' : Machine) :
    Prop where
  stands : Stands a.listing.lines m'.line [.of .ret]
  room : loading.low + 32 ≤ (m₁.registers .esp).toNat
  preserves : ∀ r ∈ [Register.ebx, .esi, .edi, .ebp, .esp], m'.registers r = m₁.registers r
  keeps : Keeps loading (m₁.registers .esp).toNat nowhere m₁.memory m'.memory
  output : m'.output = m₁.output ++ bytes

/-- **The end.**  The text is written, and what was saved is taken back. -/
theorem reaches_written (h : Buffered m₀ text m) (hprepared : Prepared loading i m₁ m₀)
    (hspace : (m₁.registers .esp).toNat < addressSpace)
    (hstands : Stands a.listing.lines m.line (printRoutine.drop 30)) :
    loading.Confined top depth (Printed loading m₁ text.toByteArray) [text.toByteArray] m := by
  have hroom := hprepared.stack
  have hlow := hprepared.low
  have hcursor := h.cursor
  have hcount := h.count
  have hbytes := h.bytes_eq
  -- The system is asked to write, from the cursor on, as many bytes as have been counted.
  have hwrite : ∀ m' : Machine, m'.registers .eax = 4 → m'.registers .ebx = 1 →
      m'.registers .ecx = m.registers .ecx → m'.registers .edx = m.registers .ebx →
        m'.memory = m.memory → m'.output = m.output →
          loading.execute m' .systemCall = .next { m'.set .eax (m.registers .ebx) with
            line := m'.line + 1
            output := m₀.output ++ text.toByteArray } := by
    intro m' heax hebx hecx hedx hmemory houtput
    simp only [Loading.execute, Loading.systemCall]
    rw [if_neg (by rw [heax]; decide), hecx, hedx, if_pos ⟨heax, hebx, by omega⟩, hmemory, hbytes,
      houtput, h.output]
  refine .label hstands (.instr hstands.2 rfl rfl (.instr hstands.2.2 rfl rfl ?_))
  refine .instr hstands.2.2.2 rfl rfl (.write hstands.2.2.2.2 ?_
    (hwrite _ rfl rfl rfl rfl rfl rfl) ?_)
  · exact congrArg (fun bytes => [bytes]) hbytes
  refine .instr hstands.2.2.2.2.2 rfl rfl ?_
  have hreleased : (m.registers .esp + BitVec.ofNat 32 16).toNat + 16 =
      (m₁.registers .esp).toNat := by
    rw [show m.registers .esp = m₀.registers .esp from h.stack, BitVec.toNat_add]
    show ((m₀.registers .esp).toNat + 16) % 2 ^ 32 + 16 = _
    unfold addressSpace at hspace
    omega
  -- The buffer has left the saved words as they were.
  have hsaved : Spilled m₁ m := hprepared.saved.congr (by omega) fun q _ _ => h.kept q (by omega)
  have hpops := hstands.2.2.2.2.2.2
  refine .after (reaches_restored (hsaved.congr (by omega) fun _ _ _ => rfl) hreleased hspace hpops)
    fun m' hm' => ?_
  refine .here ⟨hm'.line ▸ hpops.2.2.2.2, by omega, hm'.preserves, ?_, ?_⟩
  · intro q hq hno
    rw [hm'.memory]
    exact (h.kept q (by omega)).trans (hprepared.keeps q hq hno)
  · rw [hm'.output, ← hprepared.output]
    rfl

/-! ## The routine -/

/-- **The routine.**  It writes the text of its argument and a newline in one piece, stores
nowhere but below the return address, and comes to its return. -/
theorem print_confined (hstands : Stands a.listing.lines m₁.line printRoutine)
    (hlabels : ∀ k l, printRoutine[k]? = some (.label l) → a.listing.target? l = some (m₁.line + k))
    (hspace : (m₁.registers .esp).toNat + 8 ≤ addressSpace)
    (hargument : m₁.memory.word ((m₁.registers .esp).toNat + 4) = i.toBitVec) :
    loading.Confined (m₁.registers .esp).toNat 32
      (Printed loading m₁ (intText i ++ "\n").toUTF8) [(intText i ++ "\n").toUTF8] m₁ := by
  have hloop : Stands a.listing.lines (m₁.line + 15) (printRoutine.drop 15) :=
    stands_drop 15 hstands
  have hwrite : Stands a.listing.lines (m₁.line + 30) (printRoutine.drop 30) :=
    stands_drop 30 hstands
  have hdigitAt : a.listing.target? (.inner "digit") = some (m₁.line + 15) := hlabels 15 _ rfl
  have hwriteAt : a.listing.target? (.inner "write") = some (m₁.line + 30) := hlabels 30 _ rfl
  refine .after (reaches_prepared hspace hargument hstands) fun m₀ hm₀ => ?_
  obtain ⟨hline₀, hprepared⟩ := hm₀
  have hroom := hprepared.stack
  have hstands₀ : Stands a.listing.lines m₀.line (printRoutine.drop 8) :=
    hline₀ ▸ stands_drop 8 hstands
  refine .after (reaches_newline hprepared (by omega) hstands₀ (hline₀ ▸ hdigitAt)) fun s₁ hs₁ => ?_
  obtain ⟨hline₁, hleft, hbuffered₁⟩ := hs₁
  -- A word has ten digits at most.
  have habs : (s₁.registers .eax).toNat < Nat.pow 10 (9 + 1) :=
    Nat.lt_trans (s₁.registers .eax).isLt (by decide)
  rw [hline₀] at hline₁
  refine .after (reaches_digits (by omega) (by omega) hloop hdigitAt 9 hline₁ hbuffered₁ habs
    (by decide)) fun s₂ hs₂ => ?_
  obtain ⟨hline₂, hlength, hbuffered₂⟩ := hs₂
  rw [hleft] at hlength hbuffered₂
  have hstands₂ : Stands a.listing.lines s₂.line (printRoutine.drop 25) :=
    hline₂ ▸ stands_drop 25 hstands
  refine .after (reaches_sign hbuffered₂ hprepared.number ?_ (by omega) (by omega) hstands₂
    (hline₂ ▸ hwriteAt)) fun s₃ hs₃ => ?_
  · rw [List.length_append, List.length_singleton]
    omega
  obtain ⟨hline₃, hbuffered₃⟩ := hs₃
  rw [hline₂] at hline₃
  have htext : intBytes i ++ [10] =
      (if i.toInt < 0 then [45] else []) ++ (decimalBytes i.toInt.natAbs ++ [10]) :=
    List.append_assoc _ _ _
  rw [intText_bytes, htext]
  exact reaches_written hbuffered₃ hprepared (by omega) (hline₃ ▸ hwrite)

/-- **Printing.**  The routine writes what the builtin writes. -/
theorem print_follows {f : Function} {v : Value} {top : Nat} (h : Called loading m [v] top m₁)
    (hname : f.name = "print") (hv : v.Fits .int) (hunambiguous : a.listing.Unambiguous)
    (hstands : Stands a.listing.lines m₁.line printRoutine) :
    loading.Follows m₁ (Returned loading m top)
      (callBuiltin (.ofSink .collect) f [v] m₁.output) := by
  obtain ⟨type, data⟩ := v
  obtain ⟨i, rfl⟩ := hv.2.eq_int
  have hcalled : callBuiltin (.ofSink .collect) f [⟨type, .int i⟩] m₁.output =
      .done .void (m₁.output ++ (intText i ++ "\n").toUTF8) := by
    unfold callBuiltin
    dsimp only
    rw [if_pos hname]
    rfl
  rw [hcalled]
  have hcaller := h.stack
  have hcount : (m.registers .esp).toNat + 4 = top := h.count
  have hhigh := h.high
  have hend := loading.top_lt
  have hargument : m₁.memory.word ((m₁.registers .esp).toNat + 4) = i.toBitVec := by
    rw [← h.pushed.1.int_eq, show (m₁.registers .esp).toNat + 4 = top - 4 by omega]
  have hlabels : ∀ k l, printRoutine[k]? = some (.label l) →
      a.listing.target? l = some (m₁.line + k) :=
    fun k l hk => hunambiguous.target?_eq (stands_getElem? hstands hk)
  refine .after (print_confined hstands hlabels (by omega) hargument).reaches fun s hs => ?_
  have hroom := hs.room
  have hresult : Encodes loading Value.void.data (s.registers .eax) := .void _
  refine .after (h.returns hs.stands (hs.preserves _ (by decide)) (hs.preserves _ (by decide)) ?_
    hresult ?_) fun m' hm' => ?_
  · exact hs.keeps.word (by omega) fun _ _ _ hno => hno
  · exact fun q hq hno => hs.keeps q (by omega) hno
  · exact .here ⟨hm'.1.trans hs.output, hm'.2⟩

end Slate
