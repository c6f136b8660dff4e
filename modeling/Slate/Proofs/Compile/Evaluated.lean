import Slate.Proofs.Compile.SystemCall

/-!
# States after code

What the pieces that the code of expressions is made of lead to.  The state after the
code of an expression holds the frame after the evaluation, with the value in `eax` and
the stack pointer where it was (`Evaluated`).  Nothing else of memory has changed but
the variables of the function and the free part of the stack.

An operand that waits on the stack for another one is found there again, because the
other one's code leaves everything at and above its own stack pointer (`follows_saved`).
Arguments wait in the same way for the call (`Pushes`).
-/

namespace Slate

variable {a : Assembly} {loading : Loading a.listing} {l : Layout} {env : Env} {final : List Var}
  {calls : Calls ByteArray} {frame : Frame} {m m₁ m₂ : Machine}

/-! ## States after code -/

/-- The state after the code of an expression. -/
structure Evaluated (loading : Loading a.listing) (l : Layout) (m : Machine) (count : Nat)
    (r : Value × Frame) (m' : Machine) : Prop where
  line : m'.line = m.line + count
  stack : m'.registers .esp = m.registers .esp
  value : Represents loading l r.2 r.1.data (m'.registers .eax)
  holds : Holds loading l r.2 m'
  keeps : Keeps loading (m.registers .esp).toNat l.Own m.memory m'.memory

/-- A state that has only computed a word holds the same frame. -/
theorem Holds.computes (h : Holds loading l frame m) (hl : l.Sound loading) {count : Nat} {w : Word}
    (hm : m.Computes count w m₁) : Holds loading l frame m₁ := by
  have hstack := hm.stack
  refine h.keep hl hm.base (hstack ▸ h.low) (hstack ▸ h.high) ?_ (Nat.le_refl l.floor)
  rw [hm.memory]
  exact .refl _ _ _

/-- Code that only computes a word for a value. -/
theorem Holds.evaluated (h : Holds loading l frame m) (hl : l.Sound loading) {count : Nat}
    {w : Word} {v : Value} (hm : m.Computes count w m₁) (hv : Represents loading l frame v.data w) :
    Evaluated loading l m count (v, frame) m₁ := by
  refine ⟨hm.line, hm.stack, ?_, h.computes hl hm, ?_⟩
  · rw [hm.result]
    exact hv
  · rw [hm.memory]
    exact .refl _ _ _

/-- Code behind an expression that only computes a word for another value. -/
theorem Evaluated.computes {r : Value × Frame} {count more : Nat}
    (h : Evaluated loading l m count r m₁) (hl : l.Sound loading) {w : Word} {v : Value}
    (hm : m₁.Computes more w m₂) (hv : Represents loading l r.2 v.data w) :
    Evaluated loading l m (count + more) (v, r.2) m₂ := by
  refine ⟨?_, hm.stack.trans h.stack, ?_, h.holds.computes hl hm, ?_⟩
  · rw [hm.line, h.line, Nat.add_assoc]
  · rw [hm.result]
    exact hv
  · rw [hm.memory]
    exact h.keeps

/-- Code in front of an expression that keeps the stack pointer. -/
theorem Evaluated.behind {r : Value × Frame} {first count : Nat}
    (h : Evaluated loading l m₁ count r m₂) (hline : m₁.line = m.line + first)
    (hstack : m₁.registers .esp = m.registers .esp)
    (hkeeps : Keeps loading (m.registers .esp).toNat l.Own m.memory m₁.memory) :
    Evaluated loading l m (first + count) r m₂ := by
  refine ⟨?_, h.stack.trans hstack, h.value, h.holds, ?_⟩
  · rw [h.line, hline, Nat.add_assoc]
  · rw [← hstack] at hkeeps ⊢
    exact hkeeps.trans h.keeps

/-- What is pushed lies below the frame. -/
theorem Holds.pushed (h : Holds loading l frame m) (hl : l.Sound loading) (w : Word)
    (hspace : loading.low + 4 ≤ (m.registers .esp).toNat) :
    Holds loading l frame (m.pushed w).advance ∧
      ((m.pushed w).advance.registers .esp).toNat + 4 = (m.registers .esp).toNat ∧
        Keeps loading (m.registers .esp).toNat nowhere m.memory (m.pushed w).advance.memory ∧
          (m.pushed w).advance.memory.word ((m.registers .esp).toNat - 4) = w := by
  have hhigh := h.high
  have hsub : (m.registers .esp - 4).toNat = (m.registers .esp).toNat - 4 :=
    Word.toNat_sub_four (by omega)
  have hstack : ((m.pushed w).advance.registers .esp).toNat = (m.registers .esp).toNat - 4 := hsub
  have hkeeps : Keeps loading (m.registers .esp).toNat nowhere m.memory
      (m.pushed w).advance.memory := .store_free w (by omega) (by omega)
  exact ⟨h.keep hl rfl (by omega) (by omega) hkeeps hhigh, by omega, hkeeps,
    Memory.word_setWord _ _ _⟩

/-- The state after code that saves `eax` on the stack, runs the code of an expression,
and takes the saved word back into `ecx`. -/
structure Saved (loading : Loading a.listing) (l : Layout) (m : Machine) (count : Nat)
    (r : Value × Frame) (m' : Machine) : Prop where
  line : m'.line = m.line + (count + 2)
  stack : m'.registers .esp = m.registers .esp
  saved : m'.registers .ecx = m.registers .eax
  value : Represents loading l r.2 r.1.data (m'.registers .eax)
  holds : Holds loading l r.2 m'
  keeps : Keeps loading (m.registers .esp).toNat l.Own m.memory m'.memory

/-- **Saved words.**  The code of an expression does not touch what waits on the stack. -/
theorem follows_saved {code : List Instr} {o : Outcome ByteArray (Value × Frame)}
    (hl : l.Sound loading) (hholds : Holds loading l frame m)
    (hstands : Stands a.listing.lines m.line (codeLines ([.push .eax] ++ code ++ [.pop .ecx])))
    (hcode : ∀ m₁ : Machine, m₁.output = m.output → Holds loading l frame m₁ →
      Stands a.listing.lines m₁.line (codeLines code) →
        loading.Follows m₁ (Evaluated loading l m₁ code.length) o) :
    loading.Follows m (Saved loading l m code.length) o := by
  rw [List.append_assoc, stands_code, stands_code] at hstands
  obtain ⟨hpush, hmiddle, hpop⟩ := hstands
  refine .after (Loading.reaches_push hpush) fun m₁ hm₁ => ?_
  obtain ⟨hspace, rfl⟩ := hm₁
  obtain ⟨hholds₁, hstack₁, hkeeps₁, hword₁⟩ := hholds.pushed hl (m.registers .eax) hspace
  have hfloor := hl.floor
  have hend := loading.top_lt
  have hhigh := hholds.high
  refine (hcode (m.pushed (m.registers .eax)).advance rfl hholds₁ hmiddle).andThen fun r m₂ h₂ => ?_
  -- The saved word lies at the stack pointer, below every variable.
  have hstack₂ : (m₂.registers .esp).toNat = (m.registers .esp).toNat - 4 := by
    rw [h₂.stack]
    omega
  have hsaved : m₂.memory.word (m₂.registers .esp).toNat = m.registers .eax := by
    rw [hstack₂, h₂.keeps.word (by omega), hword₁]
    intro q hlow hhigh' hown
    obtain ⟨name, p, hplace, hfrom, hto⟩ := hown
    have habove := hl.above _ _ hplace
    omega
  have hpop₂ : Stands a.listing.lines m₂.line [.of (.pop .ecx)] := by
    rw [h₂.line]
    exact hpop
  have hback : m₂.registers .esp + 4 = m.registers .esp := by
    rw [h₂.stack]
    exact BitVec.sub_add_cancel _ _
  refine .instr hpop₂ (Loading.execute_pop (by omega)) (.here ⟨rfl, ?_, hback, hsaved, ?_, ?_, ?_⟩)
  · show m₂.line + 1 = _
    rw [h₂.line]
    show m.line + 1 + code.length + 1 = _
    omega
  · exact h₂.value
  · refine h₂.holds.keep hl rfl ?_ ?_ (.refl l.floor nowhere m₂.memory) (Nat.le_refl _)
    · show loading.low ≤ (m₂.registers .esp + 4).toNat
      rw [hback]
      exact hholds.low
    · show (m₂.registers .esp + 4).toNat ≤ l.floor
      rw [hback]
      exact hhigh
  · exact (hkeeps₁.mono (Nat.le_refl _) fun _ hno => hno.elim).trans
      (h₂.keeps.mono (by omega) fun _ hown => hown)

/-- An operand, the code that saves it beside another one, and the code for both. -/
theorem Evaluated.operands {r q x : Value × Frame} {first second more : Nat} {m₃ : Machine}
    (h₁ : Evaluated loading l m first r m₁) (h₂ : Saved loading l m₁ second q m₂)
    (h₃ : Evaluated loading l m₂ more x m₃) :
    Evaluated loading l m (first + (second + 2) + more) x m₃ := by
  have hkeeps := h₂.keeps
  rw [h₁.stack] at hkeeps
  refine h₃.behind ?_ (h₂.stack.trans h₁.stack) (h₁.keeps.trans hkeeps)
  rw [h₂.line, h₁.line, Nat.add_assoc]

/-- The length of such code. -/
theorem length_operands (first second rest : List Instr) :
    (first ++ (([Instr.push .eax] ++ second ++ [Instr.pop .ecx]) ++ rest)).length =
      first.length + (second.length + 2) + rest.length := by
  simp only [List.length_append, List.length_singleton]
  omega

/-! ## Calls -/

/-- The machine is ready for a call: the arguments have been pushed from `top` on. -/
structure Ready (loading : Loading a.listing) (m : Machine) (values : List Value) (top : Nat) :
    Prop where
  stack : (m.registers .esp).toNat + 4 * values.length = top
  high : top ≤ loading.top
  pushed : Pushed loading values top m.memory
  loaded : loading.Loaded m.memory

/-- The state when a call has returned.  The callee may have assigned to its arguments,
which lie below `top`. -/
structure Returned (loading : Loading a.listing) (m : Machine) (top : Nat) (v : Value)
    (m' : Machine) : Prop where
  line : m'.line = m.line + 1
  stack : m'.registers .esp = m.registers .esp
  base : m'.registers .ebp = m.registers .ebp
  result : Encodes loading v.data (m'.registers .eax)
  keeps : Keeps loading top nowhere m.memory m'.memory

/-- The machine follows calls of functions that are entered by their routines. -/
structure Calls.Compiled (loading : Loading a.listing) (calls : Calls ByteArray)
    (signatures : Signatures) : Prop where
  syscall : ∀ values, calls syscallName values = systemCall (.ofSink .collect) values
  function : ∀ name signature values, name ≠ syscallName →
    signatures.lookup name = some signature → ValuesFit values signature.arguments →
      ∀ (m : Machine) (top : Nat) (rest : List Line),
        Stands a.listing.lines m.line (.of (.call (.routine name)) :: rest) →
          Ready loading m values top →
            loading.Follows m (Returned loading m top) (calls name values m.output)

/-- What is known within the body of a function. -/
structure InBody (loading : Loading a.listing) (l : Layout) (env : Env) (final : List Var)
    (calls : Calls ByteArray) : Prop where
  sound : l.Sound loading
  offsets : l.offsets = frameOffsets env.arguments final
  distinct : env.Distinct final
  unambiguous : a.listing.Unambiguous
  safe : calls.Safe env.signatures
  compiled : calls.Compiled loading env.signatures

/-- The place of a variable that has an offset already. -/
theorem InBody.place (h : InBody loading l env final calls) {s : CompileState}
    {locals : List Var} (hs : s.Tracks env.arguments locals) (hkept : locals <+: final)
    {name : String} {offset : Int} (hoffset : s.offsets.lookup name = some offset) :
    l.place? name = some (l.address offset) := by
  unfold Layout.place?
  have hlookup : l.offsets.lookup name = some offset := by
    refine lookup_of_suffix ?_ h.sound.distinct hoffset
    rw [hs.1, h.offsets]
    exact frameOffsets_suffix hkept
  rw [hlookup]
  rfl

/-- A frame address is the address of the layout. -/
theorem Holds.address (h : Holds loading l frame m) (offset : Int) :
    m.address (frameAddress offset) = l.address offset := by
  unfold Machine.address frameAddress Layout.address
  rw [h.base]

/-- The address of a data line is that of its label. -/
theorem Listing.Unambiguous.symbol_data (h : a.listing.Unambiguous) {index : Nat} {s : String}
    (hliteral : a.literals[index]? = some s) :
    loading.symbol (.data index) = some (loading.data index) := by
  have hindex : index < a.literals.length := (List.getElem?_eq_some_iff.1 hliteral).1
  unfold Loading.symbol
  rw [h.target?_data index, Assembly.datum?_eq hindex]
  rfl

/-- The state after the code that pushes arguments. -/
structure Pushes (loading : Loading a.listing) (l : Layout) (m : Machine) (count : Nat)
    (r : List Value × Frame) (m' : Machine) : Prop where
  line : m'.line = m.line + count
  stack : (m'.registers .esp).toNat + 4 * r.1.length = (m.registers .esp).toNat
  pushed : Pushed loading r.1 (m.registers .esp).toNat m'.memory
  holds : Holds loading l r.2 m'
  keeps : Keeps loading (m.registers .esp).toNat l.Own m.memory m'.memory

/-- Code in front of the arguments that keeps the stack pointer. -/
theorem Pushes.behind {r : List Value × Frame} {first count : Nat}
    (h : Pushes loading l m₁ count r m₂) (hline : m₁.line = m.line + first)
    (hstack : m₁.registers .esp = m.registers .esp)
    (hkeeps : Keeps loading (m.registers .esp).toNat l.Own m.memory m₁.memory) :
    Pushes loading l m (first + count) r m₂ := by
  rw [← hstack] at hkeeps
  refine ⟨?_, hstack ▸ h.stack, hstack ▸ h.pushed, h.holds, hstack ▸ hkeeps.trans h.keeps⟩
  rw [h.line, hline, Nat.add_assoc]

/-- A frame is held again when the arguments of a call have been dropped. -/
theorem Pushes.evaluated {r : List Value × Frame} {count more : Nat} {v : Value}
    (h : Pushes loading l m count r m₁) (hl : l.Sound loading) (hholds : Holds loading l frame m)
    (hline : m₂.line = m₁.line + more) (hstack : m₂.registers .esp = m.registers .esp)
    (hbase : m₂.registers .ebp = m₁.registers .ebp)
    (hresult : Encodes loading v.data (m₂.registers .eax))
    (hkeeps : Keeps loading (m.registers .esp).toNat nowhere m₁.memory m₂.memory) :
    Evaluated loading l m (count + more) (v, r.2) m₂ := by
  refine ⟨?_, hstack, .plain hresult, ?_, ?_⟩
  · rw [hline, h.line, Nat.add_assoc]
  · exact h.holds.keep hl hbase (hstack ▸ hholds.low) (hstack ▸ hholds.high) hkeeps hholds.high
  · exact h.keeps.trans (hkeeps.mono (Nat.le_refl _) fun _ hno => hno.elim)

/-- **Calls.**  The code of a call behind its pushed arguments. -/
theorem InBody.follows_call (h : InBody loading l env final calls) {name : String}
    {signature : Signature} (hname : name ≠ syscallName)
    (hknown : env.signatures.lookup name = some signature) {r : List Value × Frame} {count : Nat}
    (hpushes : Pushes loading l m count r m₁) (hholds : Holds loading l frame m)
    (hfits : ValuesFit r.1 signature.arguments)
    (hstands : Stands a.listing.lines m₁.line (codeLines (callCode name r.1.length))) :
    loading.Follows m₁
      (fun v => Evaluated loading l m (count + (callCode name r.1.length).length) (v, r.2))
      (calls name r.1 m₁.output) := by
  have hhigh := hholds.high
  have hfloor := h.sound.floor
  have hready : Ready loading m₁ r.1 (m.registers .esp).toNat :=
    ⟨hpushes.stack, by omega, hpushes.pushed, hpushes.holds.loaded⟩
  unfold callCode at hstands ⊢
  rw [if_neg hname] at hstands ⊢
  by_cases hnone : r.1.length = 0
  · rw [if_pos hnone] at hstands ⊢
    refine (h.compiled.function name signature r.1 hname hknown hfits m₁ _ _ hstands hready).mono
      fun v m₂ h₂ => ?_
    have hsame : m₁.registers .esp = m.registers .esp := by
      apply BitVec.eq_of_toNat_eq
      have hstack := hpushes.stack
      omega
    exact hpushes.evaluated h.sound hholds h₂.line (h₂.stack.trans hsame) h₂.base h₂.result h₂.keeps
  · rw [if_neg hnone] at hstands ⊢
    refine (h.compiled.function name signature r.1 hname hknown hfits m₁ _ _ hstands hready).andThen
      fun v m₂ h₂ => ?_
    have hdrop : Stands a.listing.lines m₂.line [.of (.addConst .esp (4 * r.1.length))] := by
      rw [h₂.line]
      exact hstands.2
    have hback : m₂.registers .esp + BitVec.ofNat 32 (4 * r.1.length) = m.registers .esp := by
      have hstack := hpushes.stack
      have hlt : (m.registers .esp).toNat < 2 ^ 32 := (m.registers .esp).isLt
      apply BitVec.eq_of_toNat_eq
      rw [BitVec.toNat_add, BitVec.toNat_ofNat, h₂.stack]
      omega
    refine .instr hdrop rfl (.here ⟨rfl, ?_⟩)
    refine hpushes.evaluated h.sound hholds ?_ hback h₂.base h₂.result h₂.keeps
    show m₂.line + 1 = m₁.line + 2
    rw [h₂.line]

/-- **System calls.**  The code of a system call behind its pushed arguments. -/
theorem InBody.follows_syscall (h : InBody loading l env final calls) {r : List Value × Frame}
    {count : Nat} (hpushes : Pushes loading l m count r m₁) (hholds : Holds loading l frame m)
    (hfew : r.1.length ≤ syscallMaxArguments)
    (hstands : Stands a.listing.lines m₁.line (codeLines (callCode syscallName r.1.length))) :
    loading.Follows m₁
      (fun v => Evaluated loading l m (count + (callCode syscallName r.1.length).length) (v, r.2))
      (calls syscallName r.1 m₁.output) := by
  have hhigh := hholds.high
  have hfloor := h.sound.floor
  have htaken : (syscallRegisters.take r.1.length).length = r.1.length :=
    List.length_take_of_le hfew
  unfold callCode at hstands ⊢
  rw [if_pos rfl, stands_code] at hstands
  rw [if_pos rfl, h.compiled.syscall]
  have hpops : loading.Reaches
      (Popped loading m₁ (syscallRegisters.take r.1.length) r.1 (m.registers .esp).toNat) m₁ := by
    refine reaches_pops ?_ ?_ ?_ htaken.symm hstands.1 hpushes.stack (by omega) hpushes.pushed
    · exact List.Nodup.sublist (List.take_sublist _ _) (by decide)
    · exact fun hmem => absurd (List.mem_of_mem_take hmem) (by decide)
    · exact fun hmem => absurd (List.mem_of_mem_take hmem) (by decide)
  refine .after hpops fun m₂ h₂ => ?_
  have hlength : ((syscallRegisters.take r.1.length).reverse.map Instr.pop).length =
      (syscallRegisters.take r.1.length).length := by
    rw [List.length_map, List.length_reverse]
  have hstands₂ : Stands a.listing.lines m₂.line [.of .systemCall] := by
    rw [h₂.line, ← hlength]
    exact hstands.2
  have hloaded : loading.Loaded m₂.memory := h₂.memory ▸ hpushes.holds.loaded
  rw [← h₂.output]
  refine (systemCall_follows ?_ hloaded hstands₂).mono fun v m₃ h₃ => ?_
  · intro i q v hq hv
    have hi : i < r.1.length := (List.getElem?_eq_some_iff.1 hv).1
    refine h₂.held i q v ?_ hv
    rw [List.getElem?_take_of_lt hi]
    exact hq
  · refine hpushes.evaluated h.sound hholds ?_ ?_ (h₃.base.trans h₂.base) h₃.result ?_
    · rw [h₃.line, h₂.line, List.length_append, hlength]
      rfl
    · apply BitVec.eq_of_toNat_eq
      rw [h₃.stack, h₂.stack]
    · rw [h₃.memory, h₂.memory]
      exact .refl _ _ _

/-! ## Places -/

/-- An address with room for a word is the number that its word stands for. -/
theorem Layout.Sound.toNat_ofNat (hl : l.Sound loading) {name : String} {p : Nat}
    (hplace : l.place? name = some p) : (BitVec.ofNat 32 p).toNat = p := by
  have hbelow := hl.below _ _ hplace
  have hend := loading.top_lt
  rw [BitVec.toNat_ofNat]
  apply Nat.mod_eq_of_lt
  unfold addressSpace at hend
  omega

/-- The code of a place: it computes the address of a cell. -/
theorem InBody.follows_place (h : InBody loading l env final calls)
    (hholds : Holds loading l frame m) {name : String} {held : Value} {slot : Nat} {offset : Int}
    {t : Ty} (hcell : frame.cells[slot]? = some (name, held))
    (hplace : l.place? name = some (l.address offset))
    (hstands : Stands a.listing.lines m.line
      (codeLines [.loadAddress .eax (frameAddress offset)])) :
    loading.Follows m (Evaluated loading l m 1)
      ((pure (⟨t, .ref slot⟩, frame) : Run ByteArray (Value × Frame)) m.output) := by
  have hcomputes : m.Computes 1 (BitVec.ofNat 32 (l.address offset))
      (m.set .eax (BitVec.ofNat 32 (m.address (frameAddress offset)))).advance := by
    rw [hholds.address offset]
    exact ⟨rfl, rfl, rfl, rfl, rfl, rfl⟩
  refine .next (Loading.step_instr hstands) (.answer ?_ rfl)
  refine hholds.evaluated h.sound hcomputes (.place (Frame.name_of_cell hcell) ?_)
  rw [h.sound.toNat_ofNat hplace]
  exact hplace

/-- A declaration does not give a name twice. -/
theorem Frame.nodup_declare (hnames : frame.names.Nodup) (name : String) (value : Value) :
    (frame.declare name value).2.names.Nodup := by
  rw [Frame.names_declare]
  by_cases hold : name ∈ frame.names
  · rw [if_pos hold]
    exact hnames
  · rw [if_neg hold, List.nodup_append]
    refine ⟨hnames, List.nodup_cons.2 ⟨List.not_mem_nil, List.nodup_nil⟩, ?_⟩
    intro other hother last hlast heq
    rw [List.mem_singleton] at hlast
    exact hold (hlast ▸ heq ▸ hother)

/-- The code of a declaration. -/
theorem InBody.follows_declare (h : InBody loading l env final calls)
    (hholds : Holds loading l frame m) {v : Var} {offset : Int} {t : Ty}
    (hplace : l.place? v.name = some (l.address offset))
    (hstands : Stands a.listing.lines m.line
      (codeLines [.storeConst (frameAddress offset) 0, .loadAddress .eax (frameAddress offset)])) :
    loading.Follows m (Evaluated loading l m 2)
      ((pure (⟨t, .ref (frame.declare v.name (.zero v.type)).1⟩,
        (frame.declare v.name (.zero v.type)).2) : Run ByteArray (Value × Frame)) m.output) := by
  have haddress := hholds.address offset
  have hbelow := h.sound.below _ _ hplace
  have hend := loading.top_lt
  have hstored : loading.execute m (.storeConst (frameAddress offset) 0) = _ :=
    Loading.execute_storeConst (by omega)
  rw [haddress] at hstored
  have hcell := frame.cell_declare v.name (.zero v.type)
  have hheld : Holds loading l (frame.declare v.name (.zero v.type)).2
      { m with
        line := m.line + 1
        memory := m.memory.setWord (l.address offset) (0 : Int32).toBitVec } :=
    hholds.write h.sound hplace (.zero v.type) (Frame.nodup_declare hholds.names _ _)
      (List.mem_of_getElem? hcell) (fun cell hmem => Frame.mem_declare hmem) rfl rfl rfl
  refine .next ((Loading.step_instr hstands).trans hstored) ?_
  refine (h.follows_place hheld hcell hplace hstands.2).mono fun r m₂ h₂ => ?_
  exact h₂.behind rfl rfl (.store_own _ hplace)

/-- The place that a word for a reference is the address of. -/
theorem Represents.place_eq {slot : Nat} {w : Word} {name : String} {held : Value}
    (h : Represents loading l frame (.ref slot) w)
    (hcell : frame.cells[slot]? = some (name, held)) : l.place? name = some w.toNat := by
  cases h with
  | plain encoded => cases encoded
  | place cell place =>
      rw [Frame.name_of_cell hcell] at cell
      cases cell
      exact place

/-- The code of a cast: it reads the place that `eax` is the address of. -/
theorem InBody.follows_cast (h : InBody loading l env final calls)
    (hholds : Holds loading l frame m) {target : Ty} {v w : Value}
    (hvalue : Represents loading l frame v.data (m.registers .eax))
    (hcast : frame.cast target v = .ok w)
    (hstands : Stands a.listing.lines m.line (codeLines [.load .eax (.of .eax)])) :
    loading.Follows m (Evaluated loading l m 1)
      ((pure (w, frame) : Run ByteArray (Value × Frame)) m.output) := by
  obtain ⟨type, data⟩ := v
  cases data with
  | ref slot =>
      unfold Frame.cast at hcast
      dsimp only at hcast
      split at hcast
      · unfold Frame.load at hcast
        cases hcell : frame.cells[slot]? with
        | none => simp [hcell, Except.map] at hcast
        | some cell =>
            rw [hcell] at hcast
            cases hcast
            obtain ⟨name, held⟩ := cell
            have hplace := hvalue.place_eq hcell
            have hbelow := h.sound.below _ _ hplace
            have hend := loading.top_lt
            obtain ⟨p, hp, hencodes⟩ := hholds.cells _ (List.mem_of_getElem? hcell)
            rw [hplace] at hp
            cases hp
            have haddress := m.address_of .eax
            have hload : loading.execute m (.load .eax (.of .eax)) = _ :=
              Loading.execute_load (by omega)
            rw [haddress] at hload
            refine .next ((Loading.step_instr hstands).trans hload) (.answer ?_ rfl)
            exact hholds.evaluated h.sound ⟨rfl, rfl, rfl, rfl, rfl, rfl⟩ (.plain hencodes)
      · cases hcast
  | _ => cases hcast

/-- The code of an assignment behind its operands. -/
theorem InBody.follows_assign (h : InBody loading l env final calls)
    (hholds : Holds loading l frame m) {left right : Value} {after : Frame}
    (hleft : Represents loading l frame left.data (m.registers .eax))
    (hright : Encodes loading right.data (m.registers .ecx))
    (hassign : frame.assign left right = .ok after)
    (hstands : Stands a.listing.lines m.line (codeLines [.store (.of .eax) .ecx])) :
    loading.Follows m (Evaluated loading l m 1)
      ((pure (left, after) : Run ByteArray (Value × Frame)) m.output) := by
  obtain ⟨type, data⟩ := left
  cases data with
  | ref slot =>
      have hstore : frame.store slot right.data = .ok after := hassign
      have hnames := Frame.names_store hstore
      obtain ⟨name, held, hcell, rfl⟩ := Frame.store_eq_ok.1 hstore
      have hplace := hleft.place_eq hcell
      have hbelow := h.sound.below _ _ hplace
      have hend := loading.top_lt
      have haddress := m.address_of .eax
      have hstored : loading.execute m (.store (.of .eax) .ecx) = _ :=
        Loading.execute_store (by omega)
      rw [haddress] at hstored
      obtain ⟨hlt, _⟩ := List.getElem?_eq_some_iff.1 hcell
      have hnew : (frame.cells.set slot (name, { held with data := right.data }))[slot]? =
          some (name, { held with data := right.data }) := List.getElem?_set_self hlt
      have hencodes : Encodes loading (Value.data { held with data := right.data })
          (m.registers .ecx) := hright
      have hheld : Holds loading l
          ⟨frame.cells.set slot (name, { held with data := right.data })⟩
          { m with
            line := m.line + 1
            memory := m.memory.setWord (m.registers .eax).toNat (m.registers .ecx) } :=
        hholds.write h.sound hplace hencodes (hnames ▸ hholds.names) (List.mem_of_getElem? hnew)
          (fun cell hmem => (List.mem_or_eq_of_mem_set hmem).symm) rfl rfl rfl
      refine .next ((Loading.step_instr hstands).trans hstored) (.answer ?_ rfl)
      have hnamed := Frame.name_of_cell hcell
      rw [← hnames] at hnamed
      exact ⟨rfl, rfl, .place hnamed hplace, hheld, .store_own _ hplace⟩
  | _ => cases hassign

/-! ## Pushed words -/

/-- A word for a value is pushed, in front of the code of the arguments behind it. -/
theorem follows_pushed {code : List Instr} {v : Value} {o : Outcome ByteArray (List Value × Frame)}
    (hl : l.Sound loading) (hholds : Holds loading l frame m)
    (hvalue : Encodes loading v.data (m.registers .eax))
    (hstands : Stands a.listing.lines m.line (codeLines ([.push .eax] ++ code)))
    (hcode : ∀ m₁ : Machine, m₁.output = m.output → Holds loading l frame m₁ →
      Stands a.listing.lines m₁.line (codeLines code) →
        loading.Follows m₁
          (fun r => Pushes loading l m₁ code.length r) o) :
    loading.Follows m
      (fun r => Pushes loading l m (code.length + 1) (v :: r.1, r.2)) o := by
  rw [stands_code] at hstands
  refine .after (Loading.reaches_push hstands.1) fun m₁ hm₁ => ?_
  obtain ⟨hspace, rfl⟩ := hm₁
  obtain ⟨hholds₁, hstack₁, hkeeps₁, hword₁⟩ := hholds.pushed hl (m.registers .eax) hspace
  refine (hcode (m.pushed (m.registers .eax)).advance rfl hholds₁ hstands.2).mono
    fun r m₂ h₂ => ?_
  have hhigh := hholds.high
  have hstack : ((m.pushed (m.registers .eax)).advance.registers .esp).toNat =
      (m.registers .esp).toNat - 4 := by
    omega
  refine ⟨?_, ?_, ⟨?_, ?_⟩, h₂.holds, ?_⟩
  · rw [h₂.line]
    show m.line + 1 + code.length = _
    omega
  · have hcount := h₂.stack
    rw [List.length_cons]
    omega
  · rw [h₂.keeps.word (by omega), hword₁]
    · exact hvalue
    · intro q hlow hto hown
      obtain ⟨name, p, hplace, hfrom, _⟩ := hown
      have habove := hl.above _ _ hplace
      omega
  · rw [← hstack]
    exact h₂.pushed
  · exact (hkeeps₁.mono (Nat.le_refl _) fun _ hno => hno.elim).trans
      (h₂.keeps.mono (by omega) fun _ hown => hown)

end Slate
