import Slate.Proofs.Compile.Programs
import Slate.Proofs.Eval.TypeSafety

/-!
# Frames in memory

How the machine holds what the evaluator has in a frame.  An integer is its word, a
truth value 0 or 1, and a string the address of a literal that is equal to it; a
reference is the address of the variable whose cell it refers to (`Represents`).

A `Layout` says where the variables of a call lie, and the machine holds a frame when
every cell is represented at the place of its name (`Holds`).  The stack pointer stays
at or below the `floor` of the layout, so what is pushed never reaches a variable.

Code of a function changes its own variables and what lies below the stack pointer, and
nothing else of memory (`Keeps`).
-/

namespace Slate

variable {a : Assembly} {loading : Loading a.listing}

/-! ## Values -/

/-- A word stands for data that is no reference. -/
inductive Encodes (loading : Loading a.listing) : Data → Word → Prop
  | int (i : Int32) : Encodes loading (.int i) i.toBitVec
  | bool (b : Bool) : Encodes loading (.bool b) (if b then 1 else 0)
  | empty (w : Word) : Encodes loading (.string "") w
  | string {s : String} {index : Nat} (literal : a.literals[index]? = some s) :
      Encodes loading (.string s) (loading.data index)
  | void (w : Word) : Encodes loading .void w

/-- An integer is encoded by its bits. -/
theorem Encodes.int_eq {i : Int32} {w : Word} (h : Encodes loading (.int i) w) :
    w = i.toBitVec := by
  cases h
  rfl

/-- A truth value is encoded by one or zero. -/
theorem Encodes.bool_eq {b : Bool} {w : Word} (h : Encodes loading (.bool b) w) :
    w = if b then 1 else 0 := by
  cases h
  rfl

/-- The word 0 stands for what a fresh variable holds. -/
theorem Encodes.zero (t : Ty) : Encodes loading (Value.zero t).data 0 := by
  unfold Value.zero
  dsimp only
  split
  · exact .int 0
  · split
    · exact .bool false
    · split
      · exact .empty 0
      · exact .void 0

/-! ## Layouts -/

/-- Where the variables of a call lie: their offsets from `base`, and a floor that they
all lie above. -/
structure Layout where
  base : Word
  offsets : List (String × Int)
  floor : Nat

namespace Layout

/-- The address at an offset. -/
def address (l : Layout) (offset : Int) : Nat := (l.base + BitVec.ofInt 32 offset).toNat

/-- The address of a variable. -/
def place? (l : Layout) (name : String) : Option Nat := (l.offsets.lookup name).map l.address

/-- The byte belongs to a variable. -/
def Own (l : Layout) (q : Nat) : Prop :=
  ∃ name p, l.place? name = some p ∧ p ≤ q ∧ q < p + 4

/-- The variables have words of their own, between the floor and the end of the stack. -/
structure Sound (loading : Loading a.listing) (l : Layout) : Prop where
  distinct : (l.offsets.map Prod.fst).Nodup
  apart : ∀ name other p q, l.place? name = some p → l.place? other = some q → name ≠ other →
    p + 4 ≤ q ∨ q + 4 ≤ p
  above : ∀ name p, l.place? name = some p → l.floor ≤ p
  below : ∀ name p, l.place? name = some p → p + 4 ≤ loading.top
  floor : l.floor ≤ loading.top

end Layout

/-! ## Memory that is kept -/

/-- Bytes outside of the free part of the stack stay, except for those in `own`. -/
def Keeps (loading : Loading a.listing) (bottom : Nat) (own : Nat → Prop)
    (memory other : Memory) : Prop :=
  ∀ q, (q < loading.low ∨ bottom ≤ q) → ¬ own q → other q = memory q

/-- No bytes. -/
def nowhere : Nat → Prop := fun _ => False

namespace Keeps

variable {bottom lower p : Nat} {own more : Nat → Prop} {memory other third : Memory}

theorem refl (bottom : Nat) (own : Nat → Prop) (memory : Memory) :
    Keeps loading bottom own memory memory :=
  fun _ _ _ => rfl

/-- What is kept twice is kept. -/
theorem trans (h : Keeps loading bottom own memory other)
    (h' : Keeps loading bottom own other third) : Keeps loading bottom own memory third :=
  fun q hq hown => (h' q hq hown).trans (h q hq hown)

/-- What is kept is kept from further up and but for more places. -/
theorem mono (h : Keeps loading lower own memory other) (hbottom : lower ≤ bottom)
    (hown : ∀ q, own q → more q) : Keeps loading bottom more memory other := by
  intro q hq hmore
  refine h q ?_ fun hq' => hmore (hown q hq')
  omega

/-- A store in the free part of the stack. -/
theorem store_free (w : Word) (hlow : loading.low ≤ p) (hbottom : p + 4 ≤ bottom) :
    Keeps loading bottom own memory (memory.setWord p w) := by
  intro q hq _
  exact Memory.setWord_apart w (by omega)

/-- A store to a variable. -/
theorem store_own {l : Layout} {name : String} (w : Word) (hplace : l.place? name = some p) :
    Keeps loading bottom l.Own memory (memory.setWord p w) := by
  intro q _ hown
  refine Memory.setWord_apart w ?_
  by_cases hq : p ≤ q ∧ q < p + 4
  · exact (hown ⟨name, p, hplace, hq⟩).elim
  · omega

/-- A word that is kept. -/
theorem word (h : Keeps loading bottom own memory other) (hbottom : bottom ≤ p)
    (hown : ∀ q, p ≤ q → q < p + 4 → ¬ own q) : other.word p = memory.word p :=
  Memory.word_congr fun q hlow hhigh => h q (by omega) (hown q hlow hhigh)

/-- The data lines are kept, as they lie outside of the stack. -/
theorem loaded (h : Keeps loading bottom own memory other) (hmemory : loading.Loaded memory)
    (hbottom : bottom ≤ loading.top) (hown : ∀ q, own q → loading.low ≤ q ∧ q < loading.top) :
    loading.Loaded other := by
  intro i line hline k b hb
  have hk : k < line.2.length := (List.getElem?_eq_some_iff.1 hb).1
  have haside := loading.aside i line hline
  rw [h _ (by omega) fun hq => by have hin := hown _ hq; omega]
  exact hmemory i line hline k b hb

end Keeps

/-! ## Frames -/

/-- A word stands for data in a frame. -/
inductive Represents (loading : Loading a.listing) (l : Layout) (frame : Frame) : Data → Word → Prop
  | plain {d : Data} {w : Word} (encoded : Encodes loading d w) : Represents loading l frame d w
  | place {slot : Nat} {name : String} {w : Word} (cell : frame.names[slot]? = some name)
      (place : l.place? name = some w.toNat) : Represents loading l frame (.ref slot) w

/-- Data of a type of values is represented as it is everywhere. -/
theorem Represents.encodes {l : Layout} {frame : Frame} {d : Data} {w : Word} {t : Ty}
    (h : Represents loading l frame d w) (hfits : d.Fits t) : Encodes loading d w := by
  cases h with
  | plain encoded => exact encoded
  | place cell place => cases hfits

/-- The machine holds the frame. -/
structure Holds (loading : Loading a.listing) (l : Layout) (frame : Frame) (m : Machine) :
    Prop where
  base : m.registers .ebp = l.base
  low : loading.low ≤ (m.registers .esp).toNat
  high : (m.registers .esp).toNat ≤ l.floor
  names : frame.names.Nodup
  cells : ∀ cell ∈ frame.cells, ∃ p, l.place? cell.1 = some p ∧
    Encodes loading cell.2.data (m.memory.word p)
  loaded : loading.Loaded m.memory

namespace Holds

variable {l : Layout} {frame after : Frame} {m m' : Machine}

/-- The frame is held as long as its memory is kept. -/
theorem keep (h : Holds loading l frame m) (hl : l.Sound loading) {bottom : Nat}
    (hbase : m'.registers .ebp = m.registers .ebp)
    (hlow : loading.low ≤ (m'.registers .esp).toNat) (hhigh : (m'.registers .esp).toNat ≤ l.floor)
    (hmemory : Keeps loading bottom nowhere m.memory m'.memory) (hbottom : bottom ≤ l.floor) :
    Holds loading l frame m' := by
  refine ⟨hbase.trans h.base, hlow, hhigh, h.names, ?_, ?_⟩
  · intro cell hcell
    obtain ⟨p, hplace, hencodes⟩ := h.cells cell hcell
    have habove := hl.above _ _ hplace
    refine ⟨p, hplace, ?_⟩
    rw [hmemory.word (by omega) fun _ _ _ hno => hno]
    exact hencodes
  · exact hmemory.loaded h.loaded (Nat.le_trans hbottom hl.floor) fun _ hno => hno.elim

/-- Cells of one name are the same. -/
theorem cell_unique (hnames : frame.names.Nodup) {cell other : String × Value}
    (hcell : cell ∈ frame.cells) (hother : other ∈ frame.cells) (heq : cell.1 = other.1) :
    cell = other := by
  have hfind := @find?_eq_some_of_mem _ Prod.fst _ _ hnames hcell
  have hfind' := @find?_eq_some_of_mem _ Prod.fst _ _ hnames hother
  rw [heq] at hfind
  exact Option.some.inj (hfind.symm.trans hfind')

/-- A word is stored to a variable, and its cell changes accordingly. -/
theorem write (h : Holds loading l frame m) (hl : l.Sound loading) {name : String} {p : Nat}
    {value : Value} {w : Word} (hplace : l.place? name = some p)
    (hencodes : Encodes loading value.data w) (hnames : after.names.Nodup)
    (hnew : (name, value) ∈ after.cells)
    (hcells : ∀ cell ∈ after.cells, cell = (name, value) ∨ cell ∈ frame.cells)
    (hbase : m'.registers .ebp = m.registers .ebp) (hstack : m'.registers .esp = m.registers .esp)
    (hmemory : m'.memory = m.memory.setWord p w) : Holds loading l after m' := by
  have hfloor := hl.floor
  refine ⟨hbase.trans h.base, ?_, ?_, hnames, ?_, ?_⟩
  · rw [hstack]
    exact h.low
  · rw [hstack]
    exact h.high
  · intro cell hcell
    by_cases hname : cell.1 = name
    · have hsame : cell = (name, value) := cell_unique hnames hcell hnew hname
      subst hsame
      refine ⟨p, hplace, ?_⟩
      rw [hmemory, Memory.word_setWord]
      exact hencodes
    · rcases hcells cell hcell with rfl | hold
      · exact (hname rfl).elim
      · obtain ⟨q, hq, hheld⟩ := h.cells cell hold
        refine ⟨q, hq, ?_⟩
        rw [hmemory, Memory.word_setWord_apart w (hl.apart _ _ _ _ hq hplace hname)]
        exact hheld
  · rw [hmemory]
    have hkeeps : Keeps loading l.floor l.Own m.memory (m.memory.setWord p w) := .store_own w hplace
    refine hkeeps.loaded h.loaded hfloor ?_
    intro q hq
    obtain ⟨other, r, hr, hfrom, hto⟩ := hq
    have habove := hl.above _ _ hr
    have hbelow := hl.below _ _ hr
    have hlow := h.low
    have hhigh := h.high
    omega

end Holds

end Slate
