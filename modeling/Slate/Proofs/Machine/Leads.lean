import Slate.Compile.Statement
import Slate.Eval.Outcome
import Slate.Proofs.Machine.Memory

/-!
# Where code leads

A state of the machine leads to a goal when the machine, started there, comes to a
state of the goal, or ends the process as the goal allows, or overflows its stack on
the way.  The overflow is let through everywhere and excluded once, for a whole
process.

The machine follows a run when it leads to where the run ends: with the run's output
written, and either in a state that suits the run's answer, or with the process ended
by the run's status.  A run that fails otherwise, or does not end, is followed by
everything; so nothing is said about code behind a failure.

* `Loading.Follows.bind` — one run after another is followed piece by piece.
* `Stands` — a stretch of code, line by line.
-/

namespace Slate

/-! ## Registers of a changed state -/

namespace Machine

@[simp] theorem set_registers (m : Machine) (r other : Register) (w : Word) :
    (m.set r w).registers other = if other = r then w else m.registers other := rfl

@[simp] theorem set_line (m : Machine) (r : Register) (w : Word) : (m.set r w).line = m.line := rfl

@[simp] theorem set_memory (m : Machine) (r : Register) (w : Word) :
    (m.set r w).memory = m.memory := rfl

@[simp] theorem set_output (m : Machine) (r : Register) (w : Word) :
    (m.set r w).output = m.output := rfl

@[simp] theorem advance_registers (m : Machine) : m.advance.registers = m.registers := rfl

@[simp] theorem advance_line (m : Machine) : m.advance.line = m.line + 1 := rfl

@[simp] theorem advance_memory (m : Machine) : m.advance.memory = m.memory := rfl

@[simp] theorem advance_output (m : Machine) : m.advance.output = m.output := rfl

@[simp] theorem pushed_registers (m : Machine) (w : Word) (r : Register) :
    (m.pushed w).registers r = if r = .esp then m.registers .esp - 4 else m.registers r := rfl

@[simp] theorem pushed_line (m : Machine) (w : Word) : (m.pushed w).line = m.line := rfl

@[simp] theorem pushed_memory (m : Machine) (w : Word) :
    (m.pushed w).memory = m.memory.setWord ((m.registers .esp).toNat - 4) w := rfl

@[simp] theorem pushed_output (m : Machine) (w : Word) : (m.pushed w).output = m.output := rfl

end Machine

/-! ## Stretches of code -/

/-- The code stands among the lines, from line `n` on. -/
def Stands (lines : List Line) : Nat → List Line → Prop
  | _, [] => True
  | n, line :: rest => lines[n]? = some line ∧ Stands lines (n + 1) rest

/-- Code in two parts stands where each part does. -/
theorem stands_append {lines : List Line} {n : Nat} {first second : List Line} :
    Stands lines n (first ++ second) ↔
      Stands lines n first ∧ Stands lines (n + first.length) second := by
  induction first generalizing n with
  | nil => simp [Stands]
  | cons line rest ih =>
      simp only [List.cons_append, Stands, List.length_cons, ih, and_assoc]
      rw [show n + 1 + rest.length = n + (rest.length + 1) by omega]

/-- What comes behind some lines of the code. -/
theorem stands_drop {lines code : List Line} {n : Nat} (k : Nat) (h : Stands lines n code) :
    Stands lines (n + k) (code.drop k) := by
  induction k generalizing n code with
  | zero => exact h
  | succ k ih =>
      cases code with
      | nil => trivial
      | cons line rest =>
          have hrest := ih h.2
          rw [Nat.add_assoc, Nat.add_comm 1 k] at hrest
          exact hrest

/-- A line of the code stands as far behind its beginning as in the code. -/
theorem stands_getElem? {lines code : List Line} {n k : Nat} {line : Line}
    (h : Stands lines n code) (hk : code[k]? = some line) : lines[n + k]? = some line := by
  have hrest := stands_drop k h
  obtain ⟨hlt, hline⟩ := List.getElem?_eq_some_iff.1 hk
  rw [List.drop_eq_getElem_cons hlt, hline] at hrest
  exact hrest.1

/-- A part of the lines stands where it begins. -/
theorem stands_middle (before code after : List Line) :
    Stands (before ++ code ++ after) before.length code := by
  induction code generalizing before with
  | nil => trivial
  | cons line rest ih =>
      refine ⟨by simp, ?_⟩
      have hrest := ih (before ++ [line])
      simpa using hrest

/-- The lines of two pieces are those of the first and those of the second. -/
@[simp] theorem codeLines_append (first second : List Instr) :
    codeLines (first ++ second) = codeLines first ++ codeLines second :=
  List.map_append

/-- There is one line for each instruction. -/
@[simp] theorem length_codeLines (code : List Instr) : (codeLines code).length = code.length :=
  List.length_map Line.of

/-- Instructions in two parts stand where each part does. -/
theorem stands_code {lines : List Line} {n : Nat} {first second : List Instr} :
    Stands lines n (codeLines (first ++ second)) ↔
      Stands lines n (codeLines first) ∧ Stands lines (n + first.length) (codeLines second) := by
  rw [codeLines_append, stands_append, length_codeLines]

/-! ## Leading to a goal -/

namespace Loading

variable {a : Listing} (loading : Loading a)

/-- The machine comes to a state with `Q`, ends the process with `X`, or overflows. -/
inductive Leads (Q : Machine → Prop) (X : Word → ByteArray → Prop) : Machine → Prop
  | here {m : Machine} (goal : Q m) : Leads Q X m
  | next {m after : Machine} (step : loading.step m = .next after) (rest : Leads Q X after) :
      Leads Q X m
  | exits {m : Machine} {status : Word} {output : ByteArray}
      (step : loading.step m = .exits status output) (goal : X status output) : Leads Q X m
  | overflows {m : Machine} (step : loading.step m = .overflow) : Leads Q X m

/-- The machine comes to a state with `Q`, or overflows. -/
abbrev Reaches (Q : Machine → Prop) : Machine → Prop := loading.Leads Q fun _ _ => False

variable {loading} {Q R : Machine → Prop} {X Y : Word → ByteArray → Prop} {m final : Machine}

namespace Leads

/-- One goal after another. -/
theorem bind (h : loading.Leads Q X m) (hgoal : ∀ m, Q m → loading.Leads R Y m)
    (hends : ∀ status output, X status output → Y status output) : loading.Leads R Y m := by
  induction h with
  | here goal => exact hgoal _ goal
  | next step _ ih => exact .next step ih
  | exits step goal => exact .exits step (hends _ _ goal)
  | overflows step => exact .overflows step

/-- Code that cannot end the process is executed first. -/
theorem after (h : loading.Reaches Q m) (hgoal : ∀ m, Q m → loading.Leads R Y m) :
    loading.Leads R Y m :=
  h.bind hgoal fun _ _ hno => hno.elim

/-- A process that can only end has ended after some number of steps. -/
theorem run (h : loading.Leads (fun _ => False) X m) :
    ∃ n, loading.run n m = .overflow ∨
      ∃ status output, loading.run n m = .exits status output ∧ X status output := by
  induction h with
  | here goal => exact goal.elim
  | next step _ ih =>
      obtain ⟨n, hn⟩ := ih
      refine ⟨n + 1, ?_⟩
      rw [Loading.run, step]
      exact hn
  | exits step goal =>
      refine ⟨1, .inr ⟨_, _, ?_, goal⟩⟩
      rw [Loading.run, step]
      rfl
  | overflows step =>
      refine ⟨1, .inl ?_⟩
      rw [Loading.run, step]
      rfl

end Leads

/-- What the step of an instruction is. -/
theorem step_instr {i : Instr} {remark : Option String} {rest : List Line}
    (h : Stands a.lines m.line (.instr i remark :: rest)) :
    loading.step m = loading.execute m i := by
  unfold step
  rw [h.1]

/-- A label is passed. -/
theorem step_label {l : Label} {rest : List Line} (h : Stands a.lines m.line (.label l :: rest)) :
    loading.step m = .next m.advance := by
  unfold step
  rw [h.1]

/-! ## Following a run -/

variable {α β : Type} {P : α → Machine → Prop} {S : β → Machine → Prop} {state : ByteArray}

/-- The machine leads to where a run ends. -/
def Follows (loading : Loading a) (m : Machine) (P : α → Machine → Prop) :
    Outcome ByteArray α → Prop
  | .done answer output => loading.Reaches (fun m => m.output = output ∧ P answer m) m
  | .failed (.exit code) output =>
    loading.Leads (fun _ => False)
      (fun status written => status = code.toBitVec ∧ written = output) m
  | _ => True

namespace Follows

/-- Code before the run is executed first. -/
theorem after {o : Outcome ByteArray α} (h : loading.Reaches Q m)
    (hrest : ∀ m, Q m → loading.Follows m P o) : loading.Follows m P o := by
  unfold Follows at hrest ⊢
  split
  · exact h.bind hrest fun _ _ hno => hno.elim
  · exact h.bind hrest fun _ _ hno => hno.elim
  · trivial

/-- What follows from the next state follows. -/
theorem next {o : Outcome ByteArray α} (hstep : loading.step m = .next final)
    (hrest : loading.Follows final P o) : loading.Follows m P o :=
  .after (.next hstep (.here rfl)) fun _ heq => heq ▸ hrest

/-- An answer in a state that suits it. -/
theorem answer {answer : α} (hanswer : P answer m) (houtput : m.output = state) :
    loading.Follows m P ((pure answer : Run ByteArray α) state) :=
  .here ⟨houtput, hanswer⟩

/-- A failure that is no exit. -/
theorem fail {e : EvalError} (h : ∀ code, e ≠ .exit code) :
    loading.Follows m P ((Run.fail e : Run ByteArray α) state) := by
  cases e with
  | exit code => exact (h code rfl).elim
  | _ => trivial

/-- **One run after another.**  The second is followed from where the first has led. -/
theorem bind {x : Run ByteArray α} {f : α → Run ByteArray β} (hx : loading.Follows m P (x state))
    (hf : ∀ answer m, x state = .done answer m.output → P answer m →
      loading.Follows m S (f answer m.output)) : loading.Follows m S ((x >>= f) state) := by
  show loading.Follows m S (Run.andThen x f state)
  unfold Run.andThen
  cases hrun : x state with
  | done answer middle =>
      rw [hrun] at hx
      refine Follows.after hx fun m' hm' => ?_
      obtain ⟨rfl, hgoal⟩ := hm'
      exact hf answer m' hrun hgoal
  | failed e middle =>
      rw [hrun] at hx
      cases e with
      | exit code => exact hx
      | _ => trivial
  | unfinished middle => trivial

/-- Code behind the run is executed when it has answered. -/
theorem andThen {o : Outcome ByteArray α} {P' : α → Machine → Prop} (h : loading.Follows m P o)
    (hrest : ∀ answer m, P answer m →
      loading.Reaches (fun m' => m'.output = m.output ∧ P' answer m') m) :
    loading.Follows m P' o := by
  unfold Follows at h ⊢
  split
  · refine h.bind ?_ fun _ _ hno => hno
    intro m hm
    rw [← hm.1]
    exact hrest _ m hm.2
  · exact h
  · trivial

/-- The goal may ask for less. -/
theorem mono {o : Outcome ByteArray α} {P' : α → Machine → Prop} (h : loading.Follows m P o)
    (hgoal : ∀ answer m, P answer m → P' answer m) : loading.Follows m P' o := by
  exact h.andThen fun answer m hm => .here ⟨rfl, hgoal answer m hm⟩

/-- A computation that is known to succeed, and what follows it. -/
theorem known {x : Except EvalError α} {answer : α} {f : α → Run ByteArray β}
    (hx : x = .ok answer) (hf : loading.Follows m S (f answer state)) :
    loading.Follows m S ((Run.ofExcept x >>= f) state) := by
  subst hx
  exact hf

/-- A computation that does not touch the host, and what follows it. -/
theorem ofExcept_bind {x : Except EvalError α} {f : α → Run ByteArray β}
    (herror : ∀ e, x = .error e → ∀ code, e ≠ .exit code)
    (hok : ∀ answer, x = .ok answer → loading.Follows m S (f answer state)) :
    loading.Follows m S ((Run.ofExcept x >>= f) state) := by
  cases x with
  | ok answer => exact hok answer rfl
  | error e => exact fail (m := m) (P := S) (herror e rfl)

end Follows

end Loading

end Slate
