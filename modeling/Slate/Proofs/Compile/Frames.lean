import Slate.Proofs.Compile.Calls
import Slate.Proofs.Compile.Executed

/-!
# Frames of functions

The prologue of a function saves `ebp`, lets it point to the saved word, and reserves a
word for every local (`Entered`).  So the return address and the saved `ebp` lie between
the locals and the arguments, and no variable reaches them.  A function that has neither
arguments nor locals goes without all this, and its layout is empty.

The arguments have been pushed by the caller, in order, so that the offsets that the
compiler gives out for them are the places where they lie: the machine holds the frame
that the evaluator starts the body with (`Entered.holds`).

The epilogue undoes the prologue from wherever the body has returned.
-/

namespace Slate

variable {a : Assembly} {loading : Loading a.listing} {f : Function} {l : Layout} {frame : Frame}
  {m m₁ m₂ : Machine} {values : List Value} {top : Nat}

/-! ## The frame that a body starts with -/

/-- An argument by its index. -/
theorem Pushed.argument {memory : Memory} {i : Nat} {v : Value}
    (h : Pushed loading values top memory) (hv : values[i]? = some v) :
    Encodes loading v.data (memory.word (top - 4 * (i + 1))) := by
  induction values generalizing top i with
  | nil => cases hv
  | cons w ws ih =>
      cases i with
      | zero =>
          cases hv
          exact h.1
      | succ i =>
          have hrest := ih h.2 hv
          rw [Nat.sub_sub, show 4 + 4 * (i + 1) = 4 * (i + 1 + 1) by omega] at hrest
          exact hrest

/-- The cells of arguments are the values given for them. -/
theorem Frame.mem_ofArguments {vars : List Var} {cell : String × Value} :
    ∀ {values : List Value} {frame : Frame}, cell ∈ (Frame.ofArguments vars values frame).cells →
      cell ∈ frame.cells ∨
        ∃ (i : Nat) (v : Var), vars[i]? = some v ∧ cell.1 = v.name ∧ values[i]? = some cell.2 := by
  induction vars with
  | nil =>
      intro values frame h
      exact .inl h
  | cons v vs ih =>
      intro values frame h
      cases values with
      | nil => exact .inl h
      | cons value values =>
          rw [Frame.ofArguments] at h
          rcases ih h with hdeclared | ⟨i, w, hw, hname, hvalue⟩
          · rcases Frame.mem_declare hdeclared with rfl | hold
            · exact .inr ⟨0, v, rfl, rfl, rfl⟩
            · exact .inl hold
          · exact .inr ⟨i + 1, w, hw, hname, hvalue⟩

theorem Frame.nodup_ofArguments {vars : List Var} :
    ∀ {values : List Value} {frame : Frame}, frame.names.Nodup →
      (Frame.ofArguments vars values frame).names.Nodup := by
  induction vars with
  | nil =>
      intro values frame h
      exact h
  | cons v vs ih =>
      intro values frame h
      cases values with
      | nil => exact h
      | cons value values => exact ih (Frame.nodup_declare h v.name value)

/-! ## The prologue -/

/-- The state behind the prologue of a function that was called in the state `m₁`. -/
structure Entered (loading : Loading a.listing) (f : Function) (m₁ : Machine) (l : Layout)
    (m₂ : Machine) : Prop where
  line : m₂.line = m₁.line + f.prologue.length
  base : m₂.registers .ebp = l.base
  stack : (m₂.registers .esp).toNat = l.floor
  offsets : l.offsets = frameOffsets f.arguments f.locals
  low : loading.low ≤ l.floor
  floor : l.floor ≤ (m₁.registers .esp).toNat
  framed : f.hasFrame = true → l.base.toNat + 4 = (m₁.registers .esp).toNat ∧
    l.floor + 4 * f.locals.length + 4 = (m₁.registers .esp).toNat ∧
      m₂.memory.word l.base.toNat = m₁.registers .ebp
  frameless : f.hasFrame = false →
    m₂.registers .esp = m₁.registers .esp ∧ m₂.registers .ebp = m₁.registers .ebp
  keeps : Keeps loading (m₁.registers .esp).toNat nowhere m₁.memory m₂.memory
  output : m₂.output = m₁.output

/-- A function without a frame has no variables. -/
theorem Function.frameless_offsets (h : f.hasFrame = false) :
    frameOffsets f.arguments f.locals = [] := by
  simp only [Function.hasFrame, Bool.or_eq_false_iff, Bool.not_eq_false', List.isEmpty_iff] at h
  rw [h.1, h.2]
  rfl

/-- The state after words for locals have been reserved. -/
structure Reserved (loading : Loading a.listing) (count : Nat) (m m' : Machine) : Prop where
  stack : (m'.registers .esp).toNat + 4 * count = (m.registers .esp).toNat
  low : loading.low ≤ (m'.registers .esp).toNat
  base : m'.registers .ebp = m.registers .ebp
  memory : m'.memory = m.memory
  output : m'.output = m.output

theorem reaches_reserved {locals : List Var} {code : List Instr}
    (hcode : code = if locals.isEmpty then [] else [.subConst .esp (4 * locals.length)])
    (hlow : loading.low ≤ (m.registers .esp).toNat)
    (hstands : Stands a.listing.lines m.line (codeLines code)) :
    loading.Reaches (fun m' => m'.line = m.line + code.length ∧
      Reserved loading locals.length m m') m := by
  cases locals with
  | nil =>
      subst hcode
      exact .here ⟨rfl, rfl, hlow, rfl, rfl, rfl⟩
  | cons v vs =>
      subst hcode
      refine .after (Loading.reaches_reserve hstands) fun m' hm' => ?_
      obtain ⟨hroom, rfl⟩ := hm'
      have hsub : (m.registers .esp - BitVec.ofNat 32 (4 * (v :: vs).length)).toNat =
          (m.registers .esp).toNat - 4 * (v :: vs).length :=
        Word.toNat_sub_ofNat (by omega)
      refine .here ⟨rfl, ?_, ?_, rfl, rfl, rfl⟩
      · show (m.registers .esp - BitVec.ofNat 32 (4 * (v :: vs).length)).toNat + _ = _
        omega
      · show loading.low ≤ (m.registers .esp - BitVec.ofNat 32 (4 * (v :: vs).length)).toNat
        omega

/-- **Prologues.**  They set up the frame, or overflow the stack. -/
theorem reaches_entered (hlow : loading.low ≤ (m₁.registers .esp).toNat)
    (hstands : Stands a.listing.lines m₁.line (codeLines f.prologue)) :
    loading.Reaches (fun m₂ => ∃ l, Entered loading f m₁ l m₂) m₁ := by
  cases hframe : f.hasFrame with
  | false =>
      have hprologue : f.prologue = [] := by
        unfold Function.prologue
        rw [hframe]
        rfl
      refine .here ⟨⟨m₁.registers .ebp, frameOffsets f.arguments f.locals,
        (m₁.registers .esp).toNat⟩, ?_, rfl, rfl, rfl, hlow, Nat.le_refl _, ?_, ?_, .refl _ _ _,
        rfl⟩
      · rw [hprologue]
        rfl
      · intro hno
        rw [hframe] at hno
        cases hno
      · exact fun _ => ⟨rfl, rfl⟩
  | true =>
      have hprologue : f.prologue = [.push .ebp, .move .ebp .esp] ++
          (if f.locals.isEmpty then [] else [.subConst .esp (4 * f.locals.length)]) := by
        unfold Function.prologue
        rw [hframe]
        rfl
      rw [hprologue, stands_code] at hstands
      obtain ⟨hsave, hreserve⟩ := hstands
      refine .after (Loading.reaches_push hsave) fun m' hm' => ?_
      obtain ⟨hspace, rfl⟩ := hm'
      refine .instr hsave.2 rfl ?_
      -- The state with `ebp` saved, before a word is reserved for every local.
      have hsub : (m₁.registers .esp - 4).toNat = (m₁.registers .esp).toNat - 4 :=
        Word.toNat_sub_four (by omega)
      have hlow' : loading.low ≤ (m₁.registers .esp - 4).toNat := by
        omega
      refine .after (reaches_reserved rfl hlow' hreserve) fun m₂ hm₂ => ?_
      obtain ⟨hline, hreserved⟩ := hm₂
      have hstack : (m₂.registers .esp).toNat + 4 * f.locals.length =
          (m₁.registers .esp - 4).toNat := hreserved.stack
      have hmemory : m₂.memory =
          m₁.memory.setWord ((m₁.registers .esp).toNat - 4) (m₁.registers .ebp) := hreserved.memory
      refine .here ⟨⟨m₁.registers .esp - 4, frameOffsets f.arguments f.locals,
        (m₂.registers .esp).toNat⟩, ?_, hreserved.base, rfl, rfl, hreserved.low, ?_, ?_, ?_, ?_,
        hreserved.output⟩
      · rw [hline, hprologue, List.length_append]
        show m₁.line + 1 + 1 + _ = m₁.line + (2 + _)
        omega
      · show (m₂.registers .esp).toNat ≤ _
        omega
      · intro _
        refine ⟨?_, ?_, ?_⟩
        · show (m₁.registers .esp - 4).toNat + 4 = _
          omega
        · show (m₂.registers .esp).toNat + 4 * f.locals.length + 4 = _
          omega
        · show m₂.memory.word (m₁.registers .esp - 4).toNat = _
          rw [hmemory, hsub, Memory.word_setWord]
      · intro hno
        rw [hframe] at hno
        cases hno
      · rw [hmemory]
        exact .store_free _ (by omega) (by omega)

/-! ## Places of variables -/

namespace Entered

variable (h : Entered loading f m₁ l m₂)
  (hroom : (m₁.registers .esp).toNat + 4 + 4 * f.arguments.length ≤ loading.top)
include h hroom

/-- The address at the offset of a variable. -/
theorem address {name : String} {offset : Int}
    (hoffset : (name, offset) ∈ frameOffsets f.arguments f.locals) :
    (l.address offset : Int) + 4 = (m₁.registers .esp).toNat + offset := by
  have hframe : f.hasFrame = true := by
    cases hcase : f.hasFrame with
    | true => rfl
    | false =>
        rw [Function.frameless_offsets hcase] at hoffset
        cases hoffset
  obtain ⟨hbase, hfloor, _⟩ := h.framed hframe
  have hbounds := frameOffsets_bounds hoffset
  have hend := loading.top_lt
  unfold addressSpace at hend
  unfold Layout.address
  rw [BitVec.toNat_add, BitVec.toNat_ofInt]
  dsimp only at hbounds
  omega

/-- A variable lies below the saved `ebp`, or above the return address. -/
theorem place {name : String} {p : Nat} (hplace : l.place? name = some p) :
    ∃ offset, (frameOffsets f.arguments f.locals).lookup name = some offset ∧
      (p : Int) + 4 = (m₁.registers .esp).toNat + offset ∧
        ((l.floor ≤ p ∧ p + 8 ≤ (m₁.registers .esp).toNat) ∨
          ((m₁.registers .esp).toNat + 4 ≤ p ∧
            p ≤ (m₁.registers .esp).toNat + 4 * f.arguments.length)) := by
  unfold Layout.place? at hplace
  rw [h.offsets] at hplace
  obtain ⟨offset, hlookup, rfl⟩ := Option.map_eq_some_iff.1 hplace
  have hmem := mem_of_lookup hlookup
  have haddress := h.address hroom hmem
  have hbounds := frameOffsets_bounds hmem
  have hframe : f.hasFrame = true := by
    cases hcase : f.hasFrame with
    | true => rfl
    | false =>
        rw [Function.frameless_offsets hcase] at hmem
        cases hmem
  obtain ⟨_, hfloor, _⟩ := h.framed hframe
  dsimp only at hbounds
  exact ⟨offset, hlookup, haddress, by omega⟩

/-- No variable reaches the saved `ebp` or the return address. -/
theorem own {q : Nat} (hown : l.Own q) :
    (q + 4 < (m₁.registers .esp).toNat ∨ (m₁.registers .esp).toNat + 4 ≤ q) ∧
      loading.low ≤ q ∧ q < (m₁.registers .esp).toNat + 4 + 4 * f.arguments.length := by
  obtain ⟨name, p, hplace, hfrom, hto⟩ := hown
  obtain ⟨_, _, _, hbounds⟩ := h.place hroom hplace
  have hlow := h.low
  have hfloor := h.floor
  omega

/-- **Layouts.**  The variables of the function have words of their own. -/
theorem sound (hdistinct : ((f.arguments ++ f.locals).map Var.name).Nodup) : l.Sound loading := by
  have hfloor := h.floor
  refine ⟨?_, ?_, ?_, ?_, ?_⟩
  · rw [h.offsets]
    exact frameOffsets_nodup hdistinct
  · intro name other p q hname hother hne
    obtain ⟨_, hlookup, hp, _⟩ := h.place hroom hname
    obtain ⟨_, hlookup', hq, _⟩ := h.place hroom hother
    have hapart := frameOffsets_apart hlookup hlookup' hne
    omega
  · intro name p hname
    obtain ⟨_, _, _, hbounds⟩ := h.place hroom hname
    omega
  · intro name p hname
    obtain ⟨_, _, _, hbounds⟩ := h.place hroom hname
    omega
  · omega

/-- **Arguments.**  What has been pushed is the frame that the body starts with. -/
theorem holds (hdistinct : ((f.arguments ++ f.locals).map Var.name).Nodup)
    (hlength : values.length = f.arguments.length)
    (hpushed : Pushed loading values
      ((m₁.registers .esp).toNat + 4 + 4 * f.arguments.length) m₁.memory)
    (hloaded : loading.Loaded m₁.memory) :
    Holds loading l (Frame.ofArguments f.arguments values .empty) m₂ := by
  have hfloor := h.floor
  have hstack := h.stack
  refine ⟨h.base, hstack ▸ h.low, by omega, Frame.nodup_ofArguments .nil, ?_, ?_⟩
  · intro cell hcell
    rcases Frame.mem_ofArguments hcell with hold | ⟨i, v, hv, hname, hvalue⟩
    · cases hold
    · have hi : i < f.arguments.length := (List.getElem?_eq_some_iff.1 hv).1
      have hmem : (v.name, argumentOffset f.arguments.length i) ∈
          frameOffsets f.arguments f.locals := by
        have hargument := @mem_argumentOffsets f.arguments.length f.arguments 0 i v hv
        rw [Nat.zero_add] at hargument
        exact List.mem_append_right _ hargument
      have hlookup : (frameOffsets f.arguments f.locals).lookup v.name =
          some (argumentOffset f.arguments.length i) :=
        lookup_of_mem (frameOffsets_nodup hdistinct) hmem
      have haddress := h.address hroom hmem
      simp only [argumentOffset] at haddress
      have hplace : l.address (argumentOffset f.arguments.length i) =
          (m₁.registers .esp).toNat + 4 + 4 * f.arguments.length - 4 * (i + 1) := by
        simp only [argumentOffset]
        omega
      refine ⟨l.address (argumentOffset f.arguments.length i), ?_, ?_⟩
      · unfold Layout.place?
        rw [h.offsets, hname, hlookup]
        rfl
      · rw [hplace, h.keeps.word (by omega) fun _ _ _ hno => hno]
        exact hpushed.argument hvalue
  · exact h.keeps.loaded hloaded (by omega) fun _ hno => hno.elim

/-- **Epilogues.**  The prologue is undone from wherever the body returns. -/
theorem leaves {m : Machine} (hholds : Holds loading l frame m)
    (hstack : m.registers .esp = m₂.registers .esp)
    (hkeeps : Keeps loading (m₂.registers .esp).toNat l.Own m₂.memory m.memory)
    (hstands : Stands a.listing.lines m.line (codeLines f.epilogue)) :
    loading.Reaches (fun m₃ => Stands a.listing.lines m₃.line [.of .ret] ∧
      m₃.registers .esp = m₁.registers .esp ∧ m₃.registers .ebp = m₁.registers .ebp ∧
        m₃.registers .eax = m.registers .eax ∧ m₃.memory = m.memory ∧ m₃.output = m.output) m := by
  have hend := loading.top_lt
  cases hframe : f.hasFrame with
  | false =>
      obtain ⟨hsame, hbase⟩ := h.frameless hframe
      have hepilogue : f.epilogue = [.ret] := by
        unfold Function.epilogue
        rw [hframe]
        rfl
      rw [hepilogue] at hstands
      exact .here ⟨hstands, hstack.trans hsame, (hholds.base.trans h.base.symm).trans hbase,
        rfl, rfl, rfl⟩
  | true =>
      obtain ⟨hbase, hfloor, hsaved⟩ := h.framed hframe
      have hepilogue : f.epilogue = [.move .esp .ebp, .pop .ebp, .ret] := by
        unfold Function.epilogue
        rw [hframe]
        rfl
      rw [hepilogue] at hstands
      have hebp : m.registers .ebp = l.base := hholds.base
      have hkept : m.memory.word l.base.toNat = m₁.registers .ebp := by
        rw [hkeeps.word (by rw [h.stack]; omega), hsaved]
        intro q hlow hhigh hown
        have hbounds := (h.own hroom hown).1
        omega
      have hback : m.registers .ebp + 4 = m₁.registers .esp := by
        rw [hebp]
        apply BitVec.eq_of_toNat_eq
        rw [Word.toNat_add_four (by omega), hbase]
      refine .instr hstands rfl ?_
      refine .instr hstands.2 (Loading.execute_pop ?_)
        (.here ⟨hstands.2.2, hback, ?_, rfl, rfl, rfl⟩)
      · show (m.registers .ebp).toNat + 4 ≤ addressSpace
        rw [hebp]
        omega
      · show m.memory.word (m.registers .ebp).toNat = _
        rw [hebp, hkept]

end Entered

end Slate
