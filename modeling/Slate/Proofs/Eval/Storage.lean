import Mathlib.Logic.Function.Basic
import Slate.Proofs.Eval.Cells

/-!
# Storage

A frame names its cells.  Seen from outside it is a storage: values, and apart from
them a table that has the slots of names.  What can be done to a frame can be done to
its storage in the same way (`storage_declare`, `storage_store`), where a name that is
new gets the next slot.

A storage is sound when no value in it is a reference and the table maps the names one
to one onto the slots that there are.  The empty storage is sound, and declarations and
stores of what is not a reference keep it so.  A reference is within a storage when its
slot is one of them; as no value is ever taken away, it stays within.

* `Frame.Sound.declare`, `Frame.Sound.ofArguments`, `Frame.Sound.assign` — frames stay
  sound.
* `Frame.Sound.valueOf`, `Frame.Sound.cast` — what is read is not a reference.
-/

namespace Slate

/-- The data is not a reference. -/
def Data.IsPlain : Data → Prop
  | .ref _ => False
  | _ => True

/-- The value is not a reference. -/
def Value.IsPlain (value : Value) : Prop :=
  value.data.IsPlain

/-- The values of one call, and which slots the names have. -/
structure Storage where
  values : List Value
  slots : String → Option Nat

namespace Storage

/-- The storage without variables. -/
def empty : Storage := ⟨[], fun _ => none⟩

/-- Declares a name with a value: in its slot, or else in a new one. -/
def declare (storage : Storage) (name : String) (value : Value) : Nat × Storage :=
  match storage.slots name with
  | some slot => (slot, { storage with values := storage.values.set slot value })
  | none =>
    (storage.values.length,
      ⟨storage.values ++ [value],
        Function.update storage.slots name (some storage.values.length)⟩)

/-- No value is a reference, and the names have exactly the slots that there are, no two
of them the same. -/
structure Sound (storage : Storage) : Prop where
  plain : ∀ value ∈ storage.values, value.IsPlain
  onto : ∀ slot, slot < storage.values.length ↔ ∃ name, storage.slots name = some slot
  apart : ∀ name other slot, storage.slots name = some slot → storage.slots other = some slot →
    name = other

theorem sound_empty : Sound empty := by
  refine ⟨?_, ?_, ?_⟩
  · intro value hvalue
    cases hvalue
  · intro slot
    simp [empty]
  · intro name other slot hname
    cases hname

variable {storage : Storage}

/-- Values set in a slot to one that is not a reference. -/
theorem Sound.set (h : storage.Sound) {value : Value} (hvalue : value.IsPlain) (slot : Nat) :
    Sound { storage with values := storage.values.set slot value } := by
  refine ⟨?_, ?_, h.apart⟩
  · intro held hheld
    rcases List.mem_or_eq_of_mem_set hheld with hold | rfl
    · exact h.plain held hold
    · exact hvalue
  · intro other
    rw [List.length_set]
    exact h.onto other

/-- A value behind the others, in the slot of a name that is new. -/
theorem Sound.push (h : storage.Sound) {name : String} (hname : storage.slots name = none)
    {value : Value} (hvalue : value.IsPlain) :
    Sound ⟨storage.values ++ [value],
      Function.update storage.slots name (some storage.values.length)⟩ := by
  have hfree : ∀ other, storage.slots other ≠ some storage.values.length := by
    intro other hother
    have hlt := (h.onto _).2 ⟨other, hother⟩
    exact absurd hlt (Nat.lt_irrefl _)
  refine ⟨?_, ?_, ?_⟩
  · intro held hheld
    rcases List.mem_append.1 hheld with hold | hnew
    · exact h.plain held hold
    · rw [List.mem_singleton.1 hnew]
      exact hvalue
  · intro slot
    simp only [List.length_append, List.length_singleton]
    constructor
    · intro hlt
      rcases Nat.lt_succ_iff_lt_or_eq.1 hlt with hold | rfl
      · obtain ⟨other, hother⟩ := (h.onto slot).1 hold
        have hne : other ≠ name := by
          rintro rfl
          rw [hname] at hother
          cases hother
        exact ⟨other, by rw [Function.update_of_ne hne, hother]⟩
      · exact ⟨name, Function.update_self ..⟩
    · rintro ⟨other, hother⟩
      by_cases heq : other = name
      · rw [heq, Function.update_self] at hother
        cases hother
        exact Nat.lt_succ_self _
      · rw [Function.update_of_ne heq] at hother
        exact Nat.lt_succ_of_lt ((h.onto slot).2 ⟨other, hother⟩)
  · intro first second slot hfirst hsecond
    dsimp only at hfirst hsecond
    by_cases hone : first = name <;> by_cases htwo : second = name
    · rw [hone, htwo]
    · rw [hone, Function.update_self] at hfirst
      rw [Function.update_of_ne htwo, ← hfirst] at hsecond
      exact absurd hsecond (hfree second)
    · rw [htwo, Function.update_self] at hsecond
      rw [Function.update_of_ne hone, ← hsecond] at hfirst
      exact absurd hfirst (hfree first)
    · rw [Function.update_of_ne hone] at hfirst
      rw [Function.update_of_ne htwo] at hsecond
      exact h.apart first second slot hfirst hsecond

/-- **Declarations keep a storage sound.** -/
theorem Sound.declare (h : storage.Sound) (name : String) {value : Value}
    (hvalue : value.IsPlain) : (storage.declare name value).2.Sound := by
  unfold Storage.declare
  cases hname : storage.slots name with
  | some slot => exact h.set hvalue slot
  | none => exact h.push hname hvalue

/-- Declarations take no slot away. -/
theorem length_declare (storage : Storage) (name : String) (value : Value) :
    storage.values.length ≤ (storage.declare name value).2.values.length := by
  unfold declare
  cases storage.slots name with
  | some slot => exact Nat.le_of_eq List.length_set.symm
  | none => simp

end Storage

/-! ## The storage of a frame -/

namespace Frame

variable {frame after : Frame} {name : String} {slot : Nat} {value : Value}

/-- The values in a frame, and the slots of its names. -/
def storage (frame : Frame) : Storage :=
  ⟨frame.cells.map Prod.snd, frame.slot?⟩

/-- The storage of a frame has one value for each cell. -/
@[simp] theorem length_values (frame : Frame) :
    frame.storage.values.length = frame.cells.length :=
  List.length_map _

/-- A cell set to one of the same name leaves the slots of names. -/
theorem slot?_set {held : Value} (h : frame.cells[slot]? = some (name, held)) :
    slot? ⟨frame.cells.set slot (name, value)⟩ = frame.slot? := by
  have hnames : ∀ cells : List (String × Value), ∀ other,
      cells.findIdx? (fun cell => cell.1 = other) =
        (cells.map Prod.fst).findIdx? (fun name => name = other) := by
    intro cells other
    rw [List.findIdx?_map]
    rfl
  funext other
  unfold slot?
  rw [hnames, hnames]
  exact congrArg _ (names_set h)

/-- A cell set to a value is set so in the storage. -/
theorem storage_set {held : Value} (h : frame.cells[slot]? = some (name, held)) :
    storage ⟨frame.cells.set slot (name, value)⟩ =
      { frame.storage with values := frame.storage.values.set slot value } := by
  unfold storage
  rw [slot?_set h, List.map_set]

/-- Declaring in a frame is declaring in its storage. -/
theorem storage_declare (frame : Frame) (name : String) (value : Value) :
    frame.storage.declare name value =
      ((frame.declare name value).1, (frame.declare name value).2.storage) := by
  unfold Storage.declare declare
  cases h : frame.slot? name with
  | some slot =>
      obtain ⟨held, hcell⟩ := cell_of_slot? h
      simp only [storage_set hcell]
      simp only [storage, h]
  | none =>
      have hslots : slot? ⟨frame.cells ++ [(name, value)]⟩ =
          Function.update frame.slot? name (some frame.cells.length) := by
        funext other
        unfold slot?
        rw [List.findIdx?_append]
        by_cases heq : other = name
        · subst heq
          have hno : frame.cells.findIdx? (fun cell => cell.1 = other) = none := h
          rw [Function.update_self, hno]
          simp
        · have hne : ¬ name = other := fun hname => heq hname.symm
          rw [Function.update_of_ne heq]
          simp [hne]
      simp only [storage, h, hslots, List.length_map, List.map_append, List.map_cons,
        List.map_nil]

/-- What is loaded is what the storage has in the slot. -/
theorem storage_load : frame.load slot = .ok value ↔ frame.storage.values[slot]? = some value := by
  unfold load storage
  rw [List.getElem?_map]
  cases frame.cells[slot]? <;> simp

/-- Every slot can be loaded. -/
theorem load_of_lt (h : slot < frame.storage.values.length) :
    ∃ value, frame.load slot = .ok value :=
  ⟨_, storage_load.2 (List.getElem?_eq_getElem h)⟩

/-- A store sets the data of the value in the slot. -/
theorem storage_store {data : Data} (h : frame.store slot data = .ok after) :
    ∃ value, frame.storage.values[slot]? = some value ∧
      after.storage = { frame.storage with
        values := frame.storage.values.set slot { value with data := data } } := by
  obtain ⟨name, held, hcell, rfl⟩ := store_eq_ok.1 h
  refine ⟨held, ?_, storage_set hcell⟩
  unfold storage
  rw [List.getElem?_map, hcell]
  rfl

/-- Every slot can be stored in. -/
theorem store_of_lt (h : slot < frame.storage.values.length) (data : Data) :
    ∃ after, frame.store slot data = .ok after := by
  rw [length_values] at h
  exact ⟨_, store_eq_ok.2 ⟨_, _, List.getElem?_eq_getElem h, rfl⟩⟩

/-! ## Sound frames -/

/-- The storage of the frame is sound. -/
def Sound (frame : Frame) : Prop :=
  frame.storage.Sound

/-- If the value is a reference, its slot is one of the frame. -/
def Holds (frame : Frame) (value : Value) : Prop :=
  ∀ slot, value.data = .ref slot → slot < frame.storage.values.length

/-- The second frame has all slots of the first. -/
def Grown (frame after : Frame) : Prop :=
  frame.storage.values.length ≤ after.storage.values.length

theorem Grown.refl (frame : Frame) : frame.Grown frame :=
  Nat.le_refl _

/-- What grows twice has grown. -/
theorem Grown.trans {last : Frame} (h : frame.Grown after) (h' : after.Grown last) :
    frame.Grown last :=
  Nat.le_trans h h'

/-- References stay within a frame that grows. -/
theorem Holds.grown (h : frame.Holds value) (hgrown : frame.Grown after) : after.Holds value :=
  fun slot hslot => Nat.lt_of_lt_of_le (h slot hslot) hgrown

end Frame

/-- What is not a reference is within every frame. -/
theorem Value.IsPlain.held {value : Value} (h : value.IsPlain) (frame : Frame) :
    frame.Holds value := by
  intro slot hslot
  unfold Value.IsPlain at h
  rw [hslot] at h
  exact h.elim

namespace Frame

variable {frame after : Frame} {name : String} {slot : Nat} {value : Value}

theorem sound_empty : empty.Sound :=
  Storage.sound_empty

/-- A declared variable with a plain value keeps a frame sound. -/
theorem Sound.declare (h : frame.Sound) (name : String) {value : Value} (hvalue : value.IsPlain) :
    (frame.declare name value).2.Sound := by
  have hsound := Storage.Sound.declare h name hvalue
  rw [storage_declare] at hsound
  exact hsound

/-- It makes the frame grow. -/
theorem grown_declare (frame : Frame) (name : String) (value : Value) :
    frame.Grown (frame.declare name value).2 := by
  have hlength := frame.storage.length_declare name value
  rw [storage_declare] at hlength
  exact hlength

/-- Arguments that are not references make a sound frame. -/
theorem Sound.ofArguments : ∀ (vars : List Var) {values : List Value} {frame : Frame},
    frame.Sound → (∀ value ∈ values, value.IsPlain) → (ofArguments vars values frame).Sound
  | [], _, _, h, _ => by
      rw [Frame.ofArguments]
      · exact h
      · simp
  | _ :: _, [], _, h, _ => by
      rw [Frame.ofArguments]
      · exact h
      · simp
  | v :: vs, value :: values, frame, h, hvalues => by
      rw [Frame.ofArguments]
      refine Sound.ofArguments vs (h.declare v.name (hvalues value List.mem_cons_self)) ?_
      exact fun other hother => hvalues other (List.mem_cons_of_mem _ hother)

/-- The slot of a declaration is one of the frame. -/
theorem slot_declare_lt (frame : Frame) (name : String) (value : Value) :
    (frame.declare name value).1 < (frame.declare name value).2.storage.values.length := by
  obtain ⟨hlt, _⟩ := List.getElem?_eq_some_iff.1 (cell_declare frame name value)
  rw [length_values]
  exact hlt

/-- The slot of a name is one of the frame. -/
theorem slot_lookup_lt (h : frame.lookup name = .ok slot) :
    slot < frame.storage.values.length := by
  obtain ⟨held, hcell⟩ := cell_of_slot? (lookup_eq_ok.1 h)
  obtain ⟨hlt, _⟩ := List.getElem?_eq_some_iff.1 hcell
  rw [length_values]
  exact hlt

/-- What is loaded from a sound frame is not a reference. -/
theorem Sound.load (h : frame.Sound) (hload : frame.load slot = .ok value) : value.IsPlain :=
  h.plain value (List.mem_of_getElem? (storage_load.1 hload))

/-- A value of a sound frame is read as one that is not a reference. -/
theorem Sound.valueOf (h : frame.Sound) {held : Value} (hvalue : frame.valueOf value = .ok held) :
    held.IsPlain := by
  unfold Frame.valueOf at hvalue
  cases hdata : value.data with
  | ref slot =>
      rw [hdata] at hvalue
      exact h.load hvalue
  | bool b | int i | string s | void =>
      rw [hdata] at hvalue
      cases hvalue
      unfold Value.IsPlain
      rw [hdata]
      trivial

/-- A cast yields no reference. -/
theorem Sound.cast (h : frame.Sound) {target : Ty} {result : Value}
    (hcast : frame.cast target value = .ok result) : result.IsPlain := by
  unfold Frame.cast at hcast
  cases hdata : value.data with
  | ref slot =>
      rw [hdata] at hcast
      dsimp only at hcast
      split at hcast
      · cases hload : frame.load slot with
        | error e =>
            rw [hload] at hcast
            cases hcast
        | ok held =>
            rw [hload] at hcast
            cases hcast
            have hheld : held.IsPlain := h.load hload
            exact hheld
      · cases hcast
  | bool b | int i | string s | void =>
      rw [hdata] at hcast
      cases hcast

/-- An assignment of what is not a reference keeps the frame sound, and its slots. -/
theorem Sound.assign (h : frame.Sound) {left right : Value} (hright : right.IsPlain)
    (hassign : frame.assign left right = .ok after) : after.Sound ∧ frame.Grown after := by
  unfold Frame.assign at hassign
  cases hdata : left.data with
  | ref slot =>
      rw [hdata] at hassign
      obtain ⟨held, _, hafter⟩ := storage_store hassign
      have hplain : Value.IsPlain { held with data := right.data } := hright
      refine ⟨?_, ?_⟩
      · unfold Sound
        rw [hafter]
        exact Storage.Sound.set h hplain slot
      · unfold Grown
        rw [hafter]
        exact Nat.le_of_eq List.length_set.symm
  | bool b | int i | string s | void =>
      rw [hdata] at hassign
      cases hassign

/-! ## References find their slots -/

/-- A reference within the frame can be read. -/
theorem Holds.valueOf (h : frame.Holds value) : ∃ held, frame.valueOf value = .ok held := by
  unfold Frame.valueOf
  cases hdata : value.data with
  | ref slot => exact load_of_lt (h slot hdata)
  | bool b | int i | string s | void => exact ⟨value, rfl⟩

/-- A cast of a reference within the frame fails only for its type. -/
theorem Holds.cast_error (h : frame.Holds value) {target : Ty} {e : EvalError}
    (hcast : frame.cast target value = .error e) : e = .invalidCast value.type target := by
  unfold Frame.cast at hcast
  cases hdata : value.data with
  | ref slot =>
      rw [hdata] at hcast
      obtain ⟨held, hload⟩ := load_of_lt (h slot hdata)
      simp only [hload] at hcast
      split at hcast
      · cases hcast
      · cases hcast
        rfl
  | bool b | int i | string s | void =>
      rw [hdata] at hcast
      cases hcast
      rfl

/-- An assignment through a reference within the frame cannot fail. -/
theorem Holds.assign_error (h : frame.Holds value) {right : Value} {e : EvalError}
    (hassign : frame.assign value right = .error e) : e = .notReference := by
  unfold Frame.assign at hassign
  cases hdata : value.data with
  | ref slot =>
      rw [hdata] at hassign
      obtain ⟨after, hstore⟩ := store_of_lt (h slot hdata) right.data
      simp only [hstore] at hassign
      cases hassign
  | bool b | int i | string s | void =>
      rw [hdata] at hassign
      cases hassign
      rfl

end Frame

end Slate
