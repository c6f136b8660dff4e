import Slate.Proofs.Compile.Operators

/-!
# The system call

The arguments of a call are pushed in order, so the last one lies lowest (`Pushed`).  A
system call pops them into its registers, the last one first, and enters the system;
what the system then does is what the evaluator does with the same arguments.

A string is written from the data line of a literal that is equal to it.  The empty
string may be represented by any word, as no byte of it is ever written.
-/

namespace Slate

variable {a : Assembly} {loading : Loading a.listing} {m : Machine}

/-! ## Arguments on the stack -/

/-- The values lie on the stack below `top`, the first one highest. -/
def Pushed (loading : Loading a.listing) : List Value → Nat → Memory → Prop
  | [], _, _ => True
  | v :: vs, top, memory =>
    Encodes loading v.data (memory.word (top - 4)) ∧ Pushed loading vs (top - 4) memory

/-- Arguments stay as long as their words do. -/
theorem Pushed.keep {values : List Value} {top : Nat} {memory other : Memory}
    (h : Pushed loading values top memory) (hspace : 4 * values.length ≤ top)
    (hkept : ∀ q, top - 4 * values.length ≤ q → q < top → other q = memory q) :
    Pushed loading values top other := by
  induction values generalizing top with
  | nil => trivial
  | cons v vs ih =>
      rw [List.length_cons] at hspace hkept
      refine ⟨?_, ih h.2 (by omega) fun q hlow hhigh => hkept q (by omega) (by omega)⟩
      rw [Memory.word_congr fun q hlow hhigh => hkept q (by omega) (by omega)]
      exact h.1

/-- The state after pops: the registers hold the values, and the stack is at `top`. -/
structure Popped (loading : Loading a.listing) (m : Machine) (registers : List Register)
    (values : List Value) (top : Nat) (m' : Machine) : Prop where
  line : m'.line = m.line + registers.length
  stack : (m'.registers .esp).toNat = top
  base : m'.registers .ebp = m.registers .ebp
  held : ∀ (i : Nat) (r : Register) (v : Value), registers[i]? = some r → values[i]? = some v →
    Encodes loading v.data (m'.registers r)
  memory : m'.memory = m.memory
  output : m'.output = m.output

/-- Pushed values are popped in the opposite order. -/
theorem reaches_pops {registers : List Register} (hnodup : registers.Nodup)
    (hstack : .esp ∉ registers) (hbase : .ebp ∉ registers) :
    ∀ {values : List Value} {top : Nat} {m : Machine}, values.length = registers.length →
      Stands a.listing.lines m.line (codeLines (registers.reverse.map .pop)) →
      (m.registers .esp).toNat + 4 * values.length = top → top ≤ loading.top →
      Pushed loading values top m.memory →
      loading.Reaches (Popped loading m registers values top) m := by
  induction registers with
  | nil =>
      intro values top m hlength _ htop _ _
      have hnone : values = [] := List.length_eq_zero_iff.1 hlength
      subst hnone
      exact .here ⟨rfl, htop, rfl, by simp, rfl, rfl⟩
  | cons r rs ih =>
      intro values top m hlength hstands htop hspace hpushed
      obtain ⟨v, vs, rfl⟩ := List.exists_cons_of_length_eq_add_one hlength
      obtain ⟨hnew, hrest⟩ := List.nodup_cons.1 hnodup
      rw [List.mem_cons, not_or] at hstack hbase
      rw [List.length_cons, List.length_cons] at hlength
      rw [List.length_cons] at htop
      rw [List.reverse_cons, List.map_append, codeLines_append, stands_append] at hstands
      have hothers : loading.Reaches (Popped loading m rs vs (top - 4)) m :=
        ih hrest hstack.2 hbase.2 (by omega) hstands.1 (by omega) (by omega) hpushed.2
      refine .after hothers fun m₁ h₁ => ?_
      have hlast : Stands a.listing.lines m₁.line [.of (.pop r)] := by
        have hstands' := hstands.2
        rw [length_codeLines, List.length_map, List.length_reverse] at hstands'
        rw [h₁.line]
        exact hstands'
      have hend := loading.top_lt
      have hat := h₁.stack
      have hpop : loading.execute m₁ (.pop r) = _ := Loading.execute_pop (by omega)
      refine .instr hlast hpop (.here ⟨?_, ?_, ?_, ?_, h₁.memory, h₁.output⟩)
      · show m₁.line + 1 = _
        rw [h₁.line, List.length_cons]
        omega
      · have hne : Register.esp ≠ r := hstack.1
        have hsum : (m₁.registers .esp + 4).toNat = (m₁.registers .esp).toNat + 4 :=
          Word.toNat_add_four (by omega)
        simp only [Machine.advance_registers, Machine.set_registers, if_neg hne, if_true, hsum,
          h₁.stack]
        omega
      · have hne : Register.ebp ≠ r := hbase.1
        simp [hne, h₁.base]
      · intro i r' v' hr' hv'
        cases i with
        | zero =>
            cases hr'
            cases hv'
            have hword : Encodes loading v.data (m₁.memory.word (m₁.registers .esp).toNat) := by
              rw [h₁.memory, h₁.stack]
              exact hpushed.1
            simpa using hword
        | succ i =>
            have hmem : r' ∈ rs := List.mem_of_getElem? hr'
            have hne : r' ≠ r := fun heq => hnew (heq ▸ hmem)
            have hne' : r' ≠ .esp := fun heq => hstack.2 (heq ▸ hmem)
            have hheld := h₁.held i r' v' hr' hv'
            simpa [hne, hne'] using hheld

/-! ## What the system does -/

/-- An argument read as an integer is one. -/
theorem intArgument_eq_ok {args : List Value} {index : Nat} {n : Int32}
    (h : intArgument args index = .ok n) : ∃ t, args[index]? = some ⟨t, .int n⟩ := by
  unfold intArgument at h
  split at h
  · next t i heq =>
    cases h
    exact ⟨t, heq⟩
  · cases h

/-- An argument read as a string is one. -/
theorem stringArgument_eq_ok {args : List Value} {index : Nat} {s : String}
    (h : stringArgument args index = .ok s) : ∃ t, args[index]? = some ⟨t, .string s⟩ := by
  unfold stringArgument at h
  split at h
  · next t i heq =>
    cases h
    exact ⟨t, heq⟩
  · cases h

/-- Reading an integer never exits. -/
theorem intArgument_ne_exit {args : List Value} {index : Nat} {e : EvalError}
    (h : intArgument args index = .error e) (code : Int32) : e ≠ .exit code := by
  unfold intArgument at h
  split at h
  · cases h
  · cases h
    simp

/-- Nor does reading a string. -/
theorem stringArgument_ne_exit {args : List Value} {index : Nat} {e : EvalError}
    (h : stringArgument args index = .error e) (code : Int32) : e ≠ .exit code := by
  unfold stringArgument at h
  split at h
  · cases h
  · cases h
    simp

/-- Arguments that are refused do not end the process. -/
theorem writeArguments_ne_exit {args : List Value} {e : EvalError}
    (h : writeArguments args = .error e) (code : Int32) : e ≠ .exit code := by
  unfold writeArguments at h
  rcases bind_eq_error.1 h with h | ⟨descriptor, _, h⟩
  · exact intArgument_ne_exit h code
  · rcases bind_eq_error.1 h with h | ⟨length, _, h⟩
    · exact intArgument_ne_exit h code
    · rcases bind_eq_error.1 h with h | ⟨s, _, h⟩
      · exact stringArgument_ne_exit h code
      · dsimp only at h
        split at h
        · cases h
          simp
        · split at h
          · cases h
            simp
          · cases h

/-- What is written is the beginning of a string among the arguments. -/
theorem writeArguments_eq_ok {args : List Value} {bytes : ByteArray} {length : Int32}
    (h : writeArguments args = .ok (bytes, length)) :
    ∃ s, intArgument args 1 = .ok 1 ∧ stringArgument args 2 = .ok s ∧
      intArgument args 3 = .ok length ∧ 0 ≤ length ∧ length.toNatClampNeg ≤ s.toUTF8.size ∧
      bytes = s.toUTF8.extract 0 length.toNatClampNeg := by
  unfold writeArguments at h
  obtain ⟨descriptor, hdescriptor, h⟩ := bind_eq_ok.1 h
  obtain ⟨given, hgiven, h⟩ := bind_eq_ok.1 h
  obtain ⟨s, hs, h⟩ := bind_eq_ok.1 h
  dsimp only at h
  split at h
  · cases h
  · next hone =>
    split at h
    · cases h
    · next hbounds =>
      obtain ⟨hnonneg, hsize⟩ := not_or.1 hbounds
      cases h
      have hdone : descriptor = 1 := Decidable.byContradiction hone
      exact ⟨s, hdone ▸ hdescriptor, hs, hgiven, Int32.not_lt.1 hnonneg, Nat.le_of_not_lt hsize,
        rfl⟩

/-- The bytes at a word that stands for a string are those of the string. -/
theorem Encodes.bytes {s : String} {w : Word} {memory : Memory}
    (h : Encodes loading (.string s) w) (hloaded : loading.Loaded memory) {count : Nat}
    (hcount : count ≤ s.toUTF8.size) :
    memory.bytes w.toNat count = s.toUTF8.extract 0 count ∧ w.toNat + count ≤ addressSpace := by
  cases h with
  | empty w =>
      have hnone : count = 0 := Nat.le_zero.1 hcount
      subst hnone
      refine ⟨?_, Nat.le_of_lt w.isLt⟩
      rw [ByteArray.extract_same]
      unfold Memory.bytes
      rw [List.range_zero, Array.map_empty]
      rfl
  | @string _ index literal =>
      have hlength : (dataBytes s).length = s.toUTF8.size + 1 := by
        simp [dataBytes]
      refine ⟨?_, ?_⟩
      · have hread : memory.bytes (loading.data index).toNat count =
            ⟨((dataBytes s).take count).toArray⟩ :=
          Memory.bytes_eq (by omega) fun k b hb _ =>
            hloaded index _ (Assembly.listing_data literal) k b hb
        have hfront : (dataBytes s).take count = s.toUTF8.data.toList.take count :=
          List.take_append_of_le_length hcount
        rw [hread, hfront]
        apply ByteArray.ext
        rw [ByteArray.data_extract]
        apply Array.toList_inj.1
        simp
      · have haside := loading.aside index _ (Assembly.listing_data literal)
        dsimp only at haside
        have hlow := loading.low_le_top
        have htop := loading.top_lt
        omega

/-- The state after a system call, which has changed `eax` and nothing else but the
output. -/
structure Served (loading : Loading a.listing) (m : Machine) (v : Value) (m' : Machine) : Prop where
  line : m'.line = m.line + 1
  result : Encodes loading v.data (m'.registers .eax)
  stack : m'.registers .esp = m.registers .esp
  base : m'.registers .ebp = m.registers .ebp
  memory : m'.memory = m.memory

/-- **System calls.**  With its arguments in registers, the machine follows the system
call of the evaluator. -/
theorem systemCall_follows {values : List Value} {remark : Option String} {rest : List Line}
    (hheld : ∀ (i : Nat) (r : Register) (v : Value), syscallRegisters[i]? = some r →
      values[i]? = some v → Encodes loading v.data (m.registers r))
    (hloaded : loading.Loaded m.memory)
    (hstands : Stands a.listing.lines m.line (.instr .systemCall remark :: rest)) :
    loading.Follows m (Served loading m) (systemCall (.ofSink .collect) values m.output) := by
  have hinteger : ∀ (i : Nat) (r : Register) (n : Int32), syscallRegisters[i]? = some r →
      intArgument values i = .ok n → m.registers r = n.toBitVec := by
    intro i r n hr hn
    obtain ⟨t, hvalue⟩ := intArgument_eq_ok hn
    exact (hheld i r _ hr hvalue).int_eq
  have hstep : loading.step m = loading.execute m .systemCall := Loading.step_instr hstands
  have hexecute : loading.step m = Loading.systemCall m := hstep
  unfold systemCall
  refine .ofExcept_bind (fun e => intArgument_ne_exit) fun number hnumber => ?_
  split
  · next hexit =>
    subst hexit
    have heax : m.registers .eax = 1 := hinteger 0 .eax 1 rfl hnumber
    refine .ofExcept_bind (fun e => intArgument_ne_exit) fun status hstatus => ?_
    have hebx := hinteger 1 .ebx status rfl hstatus
    refine .exits (hexecute.trans ?_) ⟨hebx, rfl⟩
    unfold Loading.systemCall
    rw [if_pos heax]
  · split
    · next hwrite =>
      subst hwrite
      have heax : m.registers .eax = 4 := hinteger 0 .eax 4 rfl hnumber
      refine .ofExcept_bind (fun e => writeArguments_ne_exit) fun written hwritten => ?_
      obtain ⟨bytes, length⟩ := written
      obtain ⟨s, hone, hs, hlength, hnonneg, hsize, rfl⟩ := writeArguments_eq_ok hwritten
      have hebx : m.registers .ebx = 1 := hinteger 1 .ebx 1 rfl hone
      have hedx := hinteger 3 .edx length rfl hlength
      have hcount : (m.registers .edx).toNat = length.toNatClampNeg := by
        rw [hedx]
        exact Int32.toNat_toBitVec_of_le hnonneg
      obtain ⟨t, hstring⟩ := stringArgument_eq_ok hs
      have hecx : Encodes loading (.string s) (m.registers .ecx) := hheld 2 .ecx _ rfl hstring
      obtain ⟨hbytes, hend⟩ := hecx.bytes hloaded hsize
      have heffect : loading.step m = .next { m.set .eax (m.registers .edx) with
          line := m.line + 1
          output := m.output ++ s.toUTF8.extract 0 length.toNatClampNeg } := by
        rw [hexecute]
        unfold Loading.systemCall
        rw [if_neg (by rw [heax]; decide), hcount, if_pos ⟨heax, hebx, hend⟩, hbytes]
      refine .next heffect (.here ⟨rfl, rfl, ?_, rfl, rfl, rfl⟩)
      show Encodes loading (.int length) (m.registers .edx)
      rw [hedx]
      exact .int length
    · exact .fail (by simp)

end Slate
