import Slate.Eval.Expression

/-!
# Cells of a frame

What declaring, storing and looking up do to the cells of a frame, said by name and
slot.  A declaration and a store leave all cells but one as they are, and neither
takes a cell away.
-/

namespace Slate

namespace Frame

variable {frame after : Frame} {name : String} {value : Value} {slot : Nat}

/-- The slot of a name holds a cell of that name. -/
theorem cell_of_slot? (h : frame.slot? name = some slot) :
    ∃ held, frame.cells[slot]? = some (name, held) := by
  obtain ⟨hlt, hname, _⟩ := List.findIdx?_eq_some_iff_getElem.1 h
  refine ⟨frame.cells[slot].2, ?_⟩
  rw [List.getElem?_eq_getElem hlt]
  have heq : frame.cells[slot].1 = name := by
    simpa using hname
  rw [← heq]

/-- A name without a slot is the name of no cell. -/
theorem slot?_eq_none : frame.slot? name = none ↔ ∀ cell ∈ frame.cells, cell.1 ≠ name := by
  simp [slot?, List.findIdx?_eq_none_iff]

/-- A name is looked up to the slot it has. -/
theorem lookup_eq_ok : frame.lookup name = .ok slot ↔ frame.slot? name = some slot := by
  unfold lookup
  cases frame.slot? name <;> simp

/-- A name without a slot is unknown. -/
theorem lookup_eq_error {e : EvalError} :
    frame.lookup name = .error e ↔ frame.slot? name = none ∧ e = .unknownVariable name := by
  unfold lookup
  cases frame.slot? name <;> simp [eq_comm]

/-- The slot of a declaration holds the declared cell. -/
theorem cell_declare (frame : Frame) (name : String) (value : Value) :
    (frame.declare name value).2.cells[(frame.declare name value).1]? = some (name, value) := by
  unfold declare
  cases h : frame.slot? name with
  | none => simp
  | some slot =>
      obtain ⟨held, hcell⟩ := cell_of_slot? h
      obtain ⟨hlt, _⟩ := List.getElem?_eq_some_iff.1 hcell
      simp [hlt]

/-- A cell behind a declaration is the declared one, or it was there. -/
theorem mem_declare {cell : String × Value} (h : cell ∈ (frame.declare name value).2.cells) :
    cell = (name, value) ∨ cell ∈ frame.cells := by
  unfold declare at h
  cases hslot : frame.slot? name with
  | none =>
      rw [hslot] at h
      simp only [List.mem_append, List.mem_singleton] at h
      exact h.symm
  | some slot =>
      rw [hslot] at h
      exact (List.mem_or_eq_of_mem_set h).symm

/-- What a store in a slot makes of the frame. -/
theorem store_eq_ok {data : Data} :
    frame.store slot data = .ok after ↔
      ∃ name held, frame.cells[slot]? = some (name, held) ∧
        after = ⟨frame.cells.set slot (name, { held with data := data })⟩ := by
  unfold store
  cases frame.cells[slot]? with
  | none => simp
  | some cell =>
      obtain ⟨name, held⟩ := cell
      constructor
      · intro h
        cases h
        exact ⟨name, held, rfl, rfl⟩
      · intro h
        obtain ⟨name, held, hcell, rfl⟩ := h
        cases hcell
        rfl

/-! ## Names of cells -/

/-- The names of the variables in a frame. -/
def names (frame : Frame) : List String := frame.cells.map Prod.fst

/-- The names of a frame are those that have a slot. -/
theorem slot?_isSome : (frame.slot? name).isSome = true ↔ name ∈ frame.names := by
  cases h : frame.slot? name with
  | none =>
      have hno := slot?_eq_none.1 h
      simp only [Option.isSome_none, Bool.false_eq_true, false_iff, names, List.mem_map, not_exists,
        not_and]
      exact fun cell hcell heq => hno cell hcell heq
  | some slot =>
      obtain ⟨held, hcell⟩ := cell_of_slot? h
      simp only [Option.isSome_some, true_iff]
      exact List.mem_map.2 ⟨(name, held), List.mem_of_getElem? hcell, rfl⟩

/-- A cell is under its name. -/
theorem name_of_cell (h : frame.cells[slot]? = some (name, value)) :
    frame.names[slot]? = some name := by
  unfold names
  rw [List.getElem?_map, h]
  rfl

/-- A cell that is set to one of the same name leaves all names. -/
theorem names_set {held other : Value} (h : frame.cells[slot]? = some (name, held)) :
    names ⟨frame.cells.set slot (name, other)⟩ = frame.names := by
  obtain ⟨hlt, hcell⟩ := List.getElem?_eq_some_iff.1 h
  unfold names
  rw [List.map_set]
  refine List.ext_getElem (by simp) ?_
  intro i hi _
  rw [List.getElem_set]
  by_cases heq : slot = i
  · subst heq
    rw [if_pos rfl, List.getElem_map, hcell]
  · rw [if_neg heq]

/-- A declaration adds the name, unless it is there. -/
theorem names_declare (frame : Frame) (name : String) (value : Value) :
    (frame.declare name value).2.names =
      if name ∈ frame.names then frame.names else frame.names ++ [name] := by
  unfold declare
  cases h : frame.slot? name with
  | none =>
      have hno : name ∉ frame.names := by
        rw [← slot?_isSome, h]
        simp
      rw [if_neg hno]
      simp [names]
  | some slot =>
      have hmem : name ∈ frame.names := by
        rw [← slot?_isSome, h]
        rfl
      obtain ⟨held, hcell⟩ := cell_of_slot? h
      rw [if_pos hmem]
      exact names_set hcell

/-- Storing changes no name. -/
theorem names_store {data : Data} (h : frame.store slot data = .ok after) :
    after.names = frame.names := by
  obtain ⟨name, held, hcell, rfl⟩ := store_eq_ok.1 h
  exact names_set hcell

end Frame

end Slate
