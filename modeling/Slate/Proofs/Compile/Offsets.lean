import Mathlib.Data.List.Induction
import Slate.Compile.State
import Slate.Proofs.Typing.Accepted

/-!
# Where variables lie

The offsets that the compiler has given out when the text has declared some locals
(`frameOffsets`): one word for every local, downwards from `ebp`, and one for every
argument, upwards from behind the return address.

Read in the order in which the compiler looks them up, the latest first, these offsets
only go up, by a word or more each time (`frameOffsets_ascend`).  As the names are
distinct, different variables have different words.
-/

namespace Slate

/-- The offsets of locals, the latest first. -/
def localOffsets (locals : List Var) : List (String × Int) :=
  (locals.zipIdx.map fun (v, slot) => (v.name, localOffset slot)).reverse

/-- The offsets of the variables of a function when it has declared some locals. -/
def frameOffsets (arguments locals : List Var) : List (String × Int) :=
  localOffsets locals ++ argumentOffsets arguments.length 0 arguments

variable {arguments locals more : List Var} {name other : String} {offset second : Int}

/-- One more local comes first. -/
theorem localOffsets_append (locals : List Var) (v : Var) :
    localOffsets (locals ++ [v]) = (v.name, localOffset locals.length) :: localOffsets locals := by
  simp [localOffsets, List.zipIdx_append]

/-- One more local has its offset in front of the others. -/
theorem frameOffsets_append (arguments locals : List Var) (v : Var) :
    frameOffsets arguments (locals ++ [v]) =
      (v.name, localOffset locals.length) :: frameOffsets arguments locals := by
  simp [frameOffsets, localOffsets_append]

/-- The offsets for some locals are kept when more are declared. -/
theorem frameOffsets_suffix (h : locals <+: more) :
    frameOffsets arguments locals <:+ frameOffsets arguments more := by
  obtain ⟨rest, rfl⟩ := h
  induction rest using List.reverseRecOn with
  | nil => simp
  | append_singleton rest v ih =>
      rw [← List.append_assoc, frameOffsets_append]
      exact ih.trans (List.suffix_cons _ _)

/-! ## Names -/

/-- There is one entry for each parameter, from the last. -/
theorem argumentOffsets_names (count : Nat) (vars : List Var) :
    ∀ index, (argumentOffsets count index vars).map Prod.fst = (vars.map Var.name).reverse := by
  induction vars with
  | nil =>
      intro index
      rfl
  | cons v vs ih =>
      intro index
      simp [argumentOffsets, ih]

/-- There is one entry for each local, from the last. -/
theorem localOffsets_names (locals : List Var) :
    (localOffsets locals).map Prod.fst = (locals.map Var.name).reverse := by
  induction locals using List.reverseRecOn with
  | nil => rfl
  | append_singleton locals v ih => simp [localOffsets_append, ih]

/-- The names that have an offset are those of the variables. -/
theorem frameOffsets_names (arguments locals : List Var) :
    (frameOffsets arguments locals).map Prod.fst =
      ((arguments ++ locals).map Var.name).reverse := by
  simp [frameOffsets, localOffsets_names, argumentOffsets_names]

/-- Where the names are distinct, no name has two entries. -/
theorem frameOffsets_nodup (h : ((arguments ++ locals).map Var.name).Nodup) :
    ((frameOffsets arguments locals).map Prod.fst).Nodup := by
  rw [frameOffsets_names]
  exact List.pairwise_reverse.2 (List.Pairwise.imp Ne.symm h)

/-- A name among the keys is found. -/
theorem lookup_of_mem_keys {pairs : List (String × Int)} (h : name ∈ pairs.map Prod.fst) :
    ∃ offset, pairs.lookup name = some offset := by
  cases hlookup : pairs.lookup name with
  | some offset => exact ⟨offset, rfl⟩
  | none =>
      obtain ⟨pair, hpair, rfl⟩ := List.mem_map.1 h
      have hno := List.lookup_eq_none_iff.1 hlookup pair hpair
      simp at hno

/-- What is found in a part is found in the whole, if the keys are distinct. -/
theorem lookup_of_suffix {part whole : List (String × Int)} (hpart : part <:+ whole)
    (hnodup : (whole.map Prod.fst).Nodup) (h : part.lookup name = some offset) :
    whole.lookup name = some offset := by
  obtain ⟨before, rfl⟩ := hpart
  have hmem : name ∈ part.map Prod.fst := by
    obtain ⟨l, r, rfl, _⟩ := List.lookup_eq_some_iff.1 h
    simp
  rw [List.map_append] at hnodup
  have hnew : before.lookup name = none := by
    refine List.lookup_eq_none_iff.2 fun pair hpair => ?_
    have hne : pair.1 ≠ name := by
      intro heq
      exact (List.nodup_append.1 hnodup).2.2 _ (List.mem_map.2 ⟨pair, hpair, heq⟩) _ hmem rfl
    simpa using hne.symm
  rw [List.lookup_append, hnew, Option.none_or]
  exact h

/-- What has a name of its own is found under it. -/
theorem lookup_of_mem {pairs : List (String × Int)} (hnodup : (pairs.map Prod.fst).Nodup)
    (h : (name, offset) ∈ pairs) : pairs.lookup name = some offset := by
  obtain ⟨before, after, rfl⟩ := List.append_of_mem h
  exact lookup_of_suffix (List.suffix_append _ _) hnodup List.lookup_cons_self

/-! ## Offsets -/

/-- The offset of an argument by its index. -/
theorem mem_argumentOffsets {count : Nat} {vars : List Var} :
    ∀ {index i : Nat} {v : Var}, vars[i]? = some v →
      (v.name, argumentOffset count (index + i)) ∈ argumentOffsets count index vars := by
  induction vars with
  | nil =>
      intro index i v h
      cases h
  | cons w ws ih =>
      intro index i v h
      rw [argumentOffsets, List.mem_append, List.mem_singleton]
      cases i with
      | zero =>
          cases h
          exact .inr rfl
      | succ i =>
          have hmem := @ih (index + 1) i v h
          rw [Nat.add_right_comm, Nat.add_assoc] at hmem
          exact .inl hmem

/-- Locals are below the frame. -/
theorem localOffsets_bounds {pair : String × Int} (h : pair ∈ localOffsets locals) :
    localOffset locals.length + 4 ≤ pair.2 ∧ pair.2 ≤ -4 := by
  induction locals using List.reverseRecOn with
  | nil => cases h
  | append_singleton locals v ih =>
      rw [localOffsets_append] at h
      simp only [List.length_append, List.length_singleton, localOffset] at ih ⊢
      rcases List.mem_cons.1 h with rfl | hmem
      · simp only [localOffset]
        omega
      · have hbounds := ih hmem
        omega

/-- Their words are apart. -/
theorem localOffsets_ascend (locals : List Var) :
    (localOffsets locals).Pairwise fun x y => x.2 + 4 ≤ y.2 := by
  induction locals using List.reverseRecOn with
  | nil => exact .nil
  | append_singleton locals v ih =>
      rw [localOffsets_append]
      exact .cons (fun pair hpair => (localOffsets_bounds hpair).1) ih

/-- Parameters are above what a call saves. -/
theorem argumentOffsets_bounds {count : Nat} {vars : List Var} {pair : String × Int} :
    ∀ {index : Nat}, index + vars.length = count → pair ∈ argumentOffsets count index vars →
      8 ≤ pair.2 ∧ pair.2 ≤ argumentOffset count index := by
  induction vars with
  | nil =>
      intro index _ h
      cases h
  | cons v vs ih =>
      intro index hcount h
      rw [List.length_cons] at hcount
      rw [argumentOffsets, List.mem_append, List.mem_singleton] at h
      simp only [argumentOffset] at ih ⊢
      rcases h with hmem | rfl
      · have hbounds := ih (by omega) hmem
        omega
      · simp only [argumentOffset]
        omega

/-- Their words are apart. -/
theorem argumentOffsets_ascend {count : Nat} (vars : List Var) :
    ∀ {index : Nat}, index + vars.length = count →
      (argumentOffsets count index vars).Pairwise fun x y => x.2 + 4 ≤ y.2 := by
  induction vars with
  | nil =>
      intro index _
      exact .nil
  | cons v vs ih =>
      intro index hcount
      rw [List.length_cons] at hcount
      have hrest : index + 1 + vs.length = count := by
        omega
      rw [argumentOffsets, List.pairwise_append]
      refine ⟨ih hrest, .cons (List.forall_mem_nil _) .nil, ?_⟩
      intro pair hpair last hlast
      rw [List.mem_singleton.1 hlast]
      have hbounds := (argumentOffsets_bounds hrest hpair).2
      simp only [argumentOffset] at hbounds ⊢
      omega

/-- **Words apart.**  The offsets of a function go up by a word or more. -/
theorem frameOffsets_ascend (arguments locals : List Var) :
    (frameOffsets arguments locals).Pairwise fun x y => x.2 + 4 ≤ y.2 := by
  rw [frameOffsets, List.pairwise_append]
  refine ⟨localOffsets_ascend locals, argumentOffsets_ascend arguments (by omega), ?_⟩
  intro x hx y hy
  have hlocal := (localOffsets_bounds hx).2
  have hargument := (argumentOffsets_bounds (by omega) hy).1
  omega

/-- The offset of a local lies below `ebp`, and that of an argument behind the return
address. -/
theorem frameOffsets_bounds {pair : String × Int} (h : pair ∈ frameOffsets arguments locals) :
    (-4 * (locals.length : Int) ≤ pair.2 ∧ pair.2 ≤ -4) ∨
      (8 ≤ pair.2 ∧ pair.2 ≤ 4 + 4 * (arguments.length : Int)) := by
  rcases List.mem_append.1 h with hlocal | hargument
  · have hbounds := localOffsets_bounds hlocal
    simp only [localOffset] at hbounds
    exact .inl (by omega)
  · have hbounds := argumentOffsets_bounds (by omega) hargument
    simp only [argumentOffset] at hbounds
    exact .inr (by omega)

/-- Variables of different names have words of their own. -/
theorem frameOffsets_apart (hname : (frameOffsets arguments locals).lookup name = some offset)
    (hother : (frameOffsets arguments locals).lookup other = some second) (hne : name ≠ other) :
    offset + 4 ≤ second ∨ second + 4 ≤ offset := by
  have hascend := frameOffsets_ascend arguments locals
  have hmem := mem_of_lookup hname
  have hmem' := mem_of_lookup hother
  obtain ⟨i, hi, hpair⟩ := List.mem_iff_getElem.1 hmem
  obtain ⟨j, hj, hpair'⟩ := List.mem_iff_getElem.1 hmem'
  rcases Nat.lt_trichotomy i j with hlt | heq | hlt
  · have hstep := List.pairwise_iff_getElem.1 hascend i j hi hj hlt
    rw [hpair, hpair'] at hstep
    exact .inl hstep
  · subst heq
    rw [hpair] at hpair'
    exact (hne (congrArg Prod.fst hpair')).elim
  · have hstep := List.pairwise_iff_getElem.1 hascend j i hj hi hlt
    rw [hpair, hpair'] at hstep
    exact .inr hstep

end Slate
