import Slate.Proofs.Machine.Steps

/-!
# What is stored and written on the way

Two states say little about what happened between them: a byte may have been changed and
restored, and one output may have been written in many pieces.  Here every step is looked at,
for the addresses that it stores to and for what it has the system write (`Loading.Path`).

Code is confined to a part of the stack when every store on its way lies there
(`Loading.Confined`).  Whether the stack has room for that part is not asked: if it has not, the
code may overflow it.

* `Confined.path` — where there is room, confined code has a path to its goal.
* `Path.memory` and `Path.output` — a path changes nothing but what it stores to, and its output
  is what it writes.
-/

namespace Slate

/-! ## Stores and writes of one step -/

namespace Machine

/-- The addresses that an instruction stores to. -/
def stores (m : Machine) : Instr → List Nat
  | .store dst _ | .storeConst dst _ => List.range' (m.address dst) 4
  | .storeByte dst _ | .storeByteConst dst _ => [m.address dst]
  | .push _ | .call _ => List.range' ((m.registers .esp).toNat - 4) 4
  | _ => []

/-- What an instruction has the system write. -/
def writes (m : Machine) : Instr → List ByteArray
  | .systemCall =>
    if m.registers .eax = 4 then
      [m.memory.bytes (m.registers .ecx).toNat (m.registers .edx).toNat]
    else []
  | _ => []

end Machine

/-- Whether an instruction neither stores nor asks the system, whatever the state. -/
def Instr.isQuiet : Instr → Bool
  | .store _ _ | .storeConst _ _ | .storeByte _ _ | .storeByteConst _ _ | .push _ | .call _
  | .systemCall => false
  | _ => true

theorem Instr.quiet {i : Instr} (h : i.isQuiet = true) (m : Machine) :
    m.stores i = [] ∧ m.writes i = [] := by
  cases i <;> first | exact ⟨rfl, rfl⟩ | cases h

/-- The addresses that the next step stores to. -/
def Listing.stored (a : Listing) (m : Machine) : List Nat :=
  match a.lines[m.line]? with
  | some (.instr i _) => m.stores i
  | _ => []

/-- What the next step has the system write. -/
def Listing.written (a : Listing) (m : Machine) : List ByteArray :=
  match a.lines[m.line]? with
  | some (.instr i _) => m.writes i
  | _ => []

namespace Loading

variable {a : Listing} {loading : Loading a} {m m' : Machine} {i : Instr}
  {remark : Option String} {rest : List Line} {stores : List Nat} {writes more : List ByteArray}

theorem stored_instr (h : Stands a.lines m.line (.instr i remark :: rest)) :
    a.stored m = m.stores i ∧ a.written m = m.writes i := by
  unfold Listing.stored Listing.written
  rw [h.1]
  exact ⟨rfl, rfl⟩

theorem stored_label {l : Label} (h : Stands a.lines m.line (.label l :: rest)) :
    a.stored m = [] ∧ a.written m = [] := by
  unfold Listing.stored Listing.written
  rw [h.1]
  exact ⟨rfl, rfl⟩

/-- A quiet instruction leaves memory and output. -/
theorem execute_quiet (h : loading.execute m i = .next m') (hquiet : i.isQuiet = true) :
    m'.memory = m.memory ∧ m'.output = m.output := by
  cases i <;> cases hquiet <;>
    simp only [execute, fetch, jump, result, flagged, divide] at h <;>
    (repeat' split at h) <;> cases h <;> exact ⟨rfl, rfl⟩

/-- Bytes outside of the word that is stored stay. -/
theorem setWord_outside (memory : Memory) (w : Word) {p q : Nat} (h : q ∉ List.range' p 4) :
    (memory.setWord p w) q = memory q := by
  refine Memory.setWord_apart w ?_
  rw [List.mem_range'_1] at h
  omega

/-- **What an instruction changes in memory it stores to.** -/
theorem execute_stores (h : loading.execute m i = .next m') {q : Nat} (hq : q ∉ m.stores i) :
    m'.memory q = m.memory q := by
  by_cases hquiet : i.isQuiet = true
  · rw [(execute_quiet h hquiet).1]
  · cases i with
    | store dst src | storeConst dst n =>
        simp only [execute] at h
        split at h <;> cases h
        exact setWord_outside m.memory _ hq
    | storeByte dst src | storeByteConst dst b =>
        simp only [execute] at h
        cases h
        exact Memory.setByte_apart _ fun heq => hq (List.mem_singleton.2 heq)
    | push src =>
        simp only [execute, push] at h
        split at h <;> cases h
        exact setWord_outside m.memory _ hq
    | call l =>
        simp only [execute, push, jump] at h
        (repeat' split at h) <;> cases h
        exact setWord_outside m.memory _ hq
    | systemCall =>
        simp only [execute, systemCall] at h
        (repeat' split at h) <;> cases h
        rfl
    | _ => exact absurd rfl hquiet

/-- **What an instruction adds to the output it has the system write.** -/
theorem execute_writes (h : loading.execute m i = .next m') :
    m'.output = (m.writes i).foldl (· ++ ·) m.output := by
  by_cases hquiet : i.isQuiet = true
  · rw [(Instr.quiet hquiet m).2, (execute_quiet h hquiet).2]
    rfl
  · cases i with
    | systemCall =>
        simp only [execute, systemCall] at h
        split at h
        · cases h
        · split at h
          · next hwrite =>
            cases h
            simp [Machine.writes, hwrite.1]
          · cases h
    | store dst src | storeConst dst n | push src =>
        simp only [execute, push] at h
        split at h <;> cases h
        rfl
    | storeByte dst src | storeByteConst dst b =>
        simp only [execute] at h
        cases h
        rfl
    | call l =>
        simp only [execute, push, jump] at h
        (repeat' split at h) <;> cases h
        rfl
    | _ => exact absurd rfl hquiet

/-- What a step changes in memory it stores to. -/
theorem step_stored (h : loading.step m = .next m') {q : Nat} (hq : q ∉ a.stored m) :
    m'.memory q = m.memory q := by
  unfold step at h
  unfold Listing.stored at hq
  split at h
  · cases h
    rfl
  · next hline =>
    rw [hline] at hq
    exact execute_stores h hq
  · cases h

/-- What a step adds to the output it writes. -/
theorem step_written (h : loading.step m = .next m') :
    m'.output = (a.written m).foldl (· ++ ·) m.output := by
  unfold step at h
  unfold Listing.written
  split at h
  · next hline =>
    cases h
    rw [hline]
    rfl
  · next hline =>
    rw [hline]
    exact execute_writes h
  · cases h

/-! ## Paths -/

variable (loading) in
/-- The machine comes from one state to another, and on its way stores to some addresses and
writes some outputs, in this order. -/
inductive Path : Machine → List Nat → List ByteArray → Machine → Prop
  | nil (m : Machine) : Path m [] [] m
  | cons {m after last : Machine} {stores : List Nat} {writes : List ByteArray}
      (step : loading.step m = .next after) (rest : Path after stores writes last) :
      Path m (a.stored m ++ stores) (a.written m ++ writes) last

namespace Path

variable {last : Machine}

/-- A path is a run of some number of steps. -/
theorem run (h : loading.Path m stores writes last) : ∃ n, loading.run n m = .next last := by
  induction h with
  | nil m => exact ⟨0, rfl⟩
  | cons step _ ih =>
      obtain ⟨n, hn⟩ := ih
      refine ⟨n + 1, ?_⟩
      rw [Loading.run, step]
      exact hn

/-- **A path leaves the bytes that it does not store to.** -/
theorem memory (h : loading.Path m stores writes last) {q : Nat} (hq : q ∉ stores) :
    last.memory q = m.memory q := by
  induction h with
  | nil m => rfl
  | cons step _ ih =>
      rw [List.mem_append, not_or] at hq
      rw [ih hq.2, step_stored step hq.1]

/-- **The output of a path is what it writes.** -/
theorem output (h : loading.Path m stores writes last) :
    last.output = writes.foldl (· ++ ·) m.output := by
  induction h with
  | nil m => rfl
  | cons step _ ih => rw [ih, step_written step, List.foldl_append]

end Path

/-! ## Code that is confined -/

variable (loading) in
/-- The machine comes to a state with `Q`, and on its way stores nowhere but to the `depth`
bytes below `top`, and writes some outputs; or it overflows, as there is no room for these
bytes. -/
inductive Confined (top depth : Nat) (Q : Machine → Prop) : List ByteArray → Machine → Prop
  | here {m : Machine} (goal : Q m) : Confined top depth Q [] m
  | next {m after : Machine} {writes : List ByteArray} (step : loading.step m = .next after)
      (inside : ∀ q ∈ a.stored m, top ≤ q + depth ∧ q < top)
      (rest : Confined top depth Q writes after) :
      Confined top depth Q (a.written m ++ writes) m
  | overflows {m : Machine} {writes : List ByteArray} (step : loading.step m = .overflow)
      (tight : top < loading.low + depth) : Confined top depth Q writes m

namespace Confined

variable {top depth : Nat} {Q R : Machine → Prop}

/-- Confined code behind confined code. -/
theorem bind (h : loading.Confined top depth Q writes m)
    (hgoal : ∀ m, Q m → loading.Confined top depth R more m) :
    loading.Confined top depth R (writes ++ more) m := by
  induction h with
  | here goal => exact hgoal _ goal
  | next step inside _ ih =>
      rw [List.append_assoc]
      exact .next step inside ih
  | overflows step tight => exact .overflows step tight

/-- Code that writes nothing is executed first. -/
theorem after (h : loading.Confined top depth Q [] m)
    (hgoal : ∀ m, Q m → loading.Confined top depth R more m) :
    loading.Confined top depth R more m :=
  h.bind hgoal

/-- An instruction that neither stores nor writes. -/
theorem instr (h : Stands a.lines m.line (.instr i remark :: rest)) (hquiet : i.isQuiet = true)
    (hexecute : loading.execute m i = .next m') (hrest : loading.Confined top depth Q more m') :
    loading.Confined top depth Q more m := by
  obtain ⟨hstored, hwritten⟩ := stored_instr h
  obtain ⟨hstores, hwrites⟩ := Instr.quiet hquiet m
  have hnext := Confined.next ((step_instr h).trans hexecute)
    (by rw [hstored, hstores]; exact List.forall_mem_nil _) hrest
  rwa [hwritten, hwrites] at hnext

/-- An instruction that stores, and does not write. -/
theorem store (h : Stands a.lines m.line (.instr i remark :: rest)) (hwrites : m.writes i = [])
    (hexecute : loading.execute m i = .next m')
    (hinside : ∀ q ∈ m.stores i, top ≤ q + depth ∧ q < top)
    (hrest : loading.Confined top depth Q more m') : loading.Confined top depth Q more m := by
  obtain ⟨hstored, hwritten⟩ := stored_instr h
  have hnext := Confined.next ((step_instr h).trans hexecute) (by rwa [hstored]) hrest
  rwa [hwritten, hwrites] at hnext

/-- A system call that writes. -/
theorem write {bytes : ByteArray} (h : Stands a.lines m.line (.instr .systemCall remark :: rest))
    (hwrites : m.writes .systemCall = [bytes])
    (hexecute : loading.execute m .systemCall = .next m')
    (hrest : loading.Confined top depth Q more m') :
    loading.Confined top depth Q (bytes :: more) m := by
  obtain ⟨hstored, hwritten⟩ := stored_instr h
  have hnext := Confined.next ((step_instr h).trans hexecute)
    (by rw [hstored]; exact List.forall_mem_nil _) hrest
  rwa [hwritten, hwrites] at hnext

/-- A label is passed. -/
theorem label {l : Label} (h : Stands a.lines m.line (.label l :: rest))
    (hrest : loading.Confined top depth Q more m.advance) :
    loading.Confined top depth Q more m := by
  obtain ⟨hstored, hwritten⟩ := stored_label h
  have hnext := Confined.next (step_label h) (by rw [hstored]; exact List.forall_mem_nil _) hrest
  rwa [hwritten] at hnext

/-- A push, if it does not overflow. -/
theorem push {r : Register} (h : Stands a.lines m.line (.instr (.push r) remark :: rest))
    (hlow : top + 4 ≤ (m.registers .esp).toNat + depth) (hhigh : (m.registers .esp).toNat ≤ top)
    (hrest : loading.low + 4 ≤ (m.registers .esp).toNat →
      loading.Confined top depth Q more (m.pushed (m.registers r)).advance) :
    loading.Confined top depth Q more m := by
  by_cases hspace : (m.registers .esp).toNat < loading.low + 4
  · refine .overflows ((step_instr h).trans ?_) (by omega)
    simp only [execute, Loading.push, if_pos hspace]
  · refine .store h rfl ?_ ?_ (hrest (Nat.le_of_not_lt hspace))
    · simp only [execute, Loading.push, if_neg hspace]
    · intro q hq
      have hq := List.mem_range'_1.1 hq
      omega

/-- Space on the stack, if it does not overflow. -/
theorem reserve {n : Nat} (h : Stands a.lines m.line (.instr (.subConst .esp n) remark :: rest))
    (hlow : top + n ≤ (m.registers .esp).toNat + depth)
    (hrest : loading.low + n ≤ (m.registers .esp).toNat → loading.Confined top depth Q more
      { m.set .esp (m.registers .esp - BitVec.ofNat 32 n) with
        line := m.line + 1
        flags := some (.ofWord (m.registers .esp - BitVec.ofNat 32 n)) }) :
    loading.Confined top depth Q more m := by
  by_cases hspace : (m.registers .esp).toNat < loading.low + n
  · refine .overflows ((step_instr h).trans ?_) (by omega)
    simp only [execute, true_and, if_pos hspace]
  · refine .instr h rfl ?_ (hrest (Nat.le_of_not_lt hspace))
    simp only [execute, true_and, if_neg hspace, result]

/-- Confined code reaches its goal. -/
theorem reaches (h : loading.Confined top depth Q writes m) : loading.Reaches Q m := by
  induction h with
  | here goal => exact .here goal
  | next step _ _ ih => exact .next step ih
  | overflows step _ => exact .overflows step

/-- **Where there is room, confined code has a path to its goal**, on which it stores nowhere
else. -/
theorem path (h : loading.Confined top depth Q writes m) (hroom : loading.low + depth ≤ top) :
    ∃ stores last, loading.Path m stores writes last ∧ Q last ∧
      ∀ q ∈ stores, top ≤ q + depth ∧ q < top := by
  induction h with
  | here goal => exact ⟨[], _, .nil _, goal, List.forall_mem_nil _⟩
  | next step inside _ ih =>
      obtain ⟨stores, last, hpath, hgoal, hstores⟩ := ih
      exact ⟨_, last, .cons step hpath, hgoal, List.forall_mem_append.2 ⟨inside, hstores⟩⟩
  | overflows _ tight => omega

end Confined

end Loading

end Slate
