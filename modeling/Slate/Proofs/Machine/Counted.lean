import Slate.Proofs.Machine.Labels
import Slate.Proofs.Machine.Steps

/-!
# Counting words on the stack

How many words the code of a function has pushed since it was entered can be counted along
its text, without a machine (`Instr.counted`).  The count is lost where an instruction sets
`esp` or `ebp` to what the text does not tell.  A call does not change the count: what it
pushes is gone when it comes back.

A path through the lines of a function goes both ways at a conditional jump, and ends at a
return (`Visits`).  An execution of them goes one way (`Loading.Proceeds`), over the calls in
them to the place where they come back.

* `execute_counted` — what is counted is what the machine does;
* `execute_line` — and it goes on where a path does.
-/

namespace Slate

/-- The words that have been pushed since the entry of a function, and how many there were
when `ebp` was set to the stack pointer, if it was. -/
structure StackCount where
  words : Int
  mark : Option Int
deriving DecidableEq

/-- At the entry of a function nothing has been pushed, and `ebp` is the caller's. -/
def StackCount.entry : StackCount := ⟨0, none⟩

/-- The register that an instruction names as its destination. -/
def Instr.destination? : Instr → Option Register
  | .moveConst dst _ | .moveLabel dst _ | .move dst _ | .load dst _ | .loadAddress dst _ | .pop dst
  | .add dst _ | .addConst dst _ | .sub dst _ | .subConst dst _ | .multiply dst _ | .negate dst
  | .complement dst | .increment dst | .decrement dst | .xor dst _ | .widen dst _ => some dst
  | _ => none

/-- The count behind an instruction, if it can be told. -/
def Instr.counted (c : StackCount) : Instr → Option StackCount
  | .push _ => some { c with words := c.words + 1 }
  | .pop .esp => none
  | .pop dst => some ⟨c.words - 1, if dst = .ebp then none else c.mark⟩
  | .subConst .esp n => if 4 ∣ n then some { c with words := c.words + (n / 4 : Nat) } else none
  | .addConst .esp n => if 4 ∣ n then some { c with words := c.words - (n / 4 : Nat) } else none
  | .move .ebp .esp => some ⟨c.words, some c.words⟩
  | .move .esp .ebp => c.mark.map fun words => ⟨words, some words⟩
  | i => if i.destination? = some .esp ∨ i.destination? = some .ebp then none else some c

section

variable {c : StackCount}

/-- A pop takes one word. -/
theorem Instr.counted_pop {dst : Register} (hesp : dst ≠ .esp) (hebp : dst ≠ .ebp) :
    (Instr.pop dst).counted c = some ⟨c.words - 1, c.mark⟩ := by
  simp [counted, hebp]

/-- Words are reserved by the number of their bytes. -/
@[simp] theorem Instr.counted_reserve (n : Nat) :
    (Instr.subConst .esp (4 * n)).counted c = some { c with words := c.words + n } := by
  have hfour : 4 * n / 4 = n := Nat.mul_div_cancel_left n (by decide)
  simp only [counted, if_pos (Nat.dvd_mul_right 4 n), hfour]

/-- Moving the pointer up gives words back. -/
@[simp] theorem Instr.counted_release (n : Nat) :
    (Instr.addConst .esp (4 * n)).counted c = some { c with words := c.words - n } := by
  have hfour : 4 * n / 4 = n := Nat.mul_div_cancel_left n (by decide)
  simp only [counted, if_pos (Nat.dvd_mul_right 4 n), hfour]

end

/-- The ways in which the count behind an instruction can be told. -/
inductive StackCount.Behind (c : StackCount) : Instr → StackCount → Prop
  | push (src : Register) : Behind c (.push src) { c with words := c.words + 1 }
  | pop {dst : Register} (other : dst ≠ .esp) :
      Behind c (.pop dst) ⟨c.words - 1, if dst = .ebp then none else c.mark⟩
  | reserve (n : Nat) : Behind c (.subConst .esp (4 * n)) { c with words := c.words + n }
  | release (n : Nat) : Behind c (.addConst .esp (4 * n)) { c with words := c.words - n }
  | mark : Behind c (.move .ebp .esp) ⟨c.words, some c.words⟩
  | restore {words : Int} (marked : c.mark = some words) :
      Behind c (.move .esp .ebp) ⟨words, some words⟩
  | leave {i : Instr} (esp : ∀ dst, i.destination? = some dst → .esp ≠ dst)
      (ebp : ∀ dst, i.destination? = some dst → .ebp ≠ dst)
      (push : ∀ src, i ≠ .push src) (pop : ∀ dst, i ≠ .pop dst) : Behind c i c

/-- What an instruction is counted to is what stands behind it. -/
theorem Instr.counted_behind {c c' : StackCount} {i : Instr} (h : i.counted c = some c') :
    c.Behind i c' := by
  unfold counted at h
  split at h
  · cases h
    exact .push _
  · cases h
  · next dst hdst =>
    cases h
    exact .pop hdst
  · split at h
    · next n hn =>
      obtain ⟨k, rfl⟩ := hn
      rw [Nat.mul_div_cancel_left k (by decide)] at h
      cases h
      exact .reserve k
    · cases h
  · split at h
    · next n hn =>
      obtain ⟨k, rfl⟩ := hn
      rw [Nat.mul_div_cancel_left k (by decide)] at h
      cases h
      exact .release k
    · cases h
  · cases h
    exact .mark
  · obtain ⟨words, hmark, rfl⟩ := Option.map_eq_some_iff.1 h
    exact .restore hmark
  · next hpush _ hpop _ _ _ _ =>
    split at h
    · cases h
    · next hdst =>
      cases h
      rw [not_or] at hdst
      refine .leave ?_ ?_ hpush hpop
      · rintro dst hdestination rfl
        exact hdst.1 hdestination
      · rintro dst hdestination rfl
        exact hdst.2 hdestination

/-! ## Paths -/

/-- The label that an instruction jumps to. -/
def Instr.jump? : Instr → Option Label
  | .jump l | .jumpIf _ l => some l
  | _ => none

/-- A jump is one either way or on a condition. -/
theorem Instr.jump?_eq_some {i : Instr} {l : Label} :
    i.jump? = some l ↔ i = .jump l ∨ ∃ condition, i = .jumpIf condition l := by
  unfold jump?
  split <;> simp_all

/-- Whether the next line can come next. -/
def Instr.goesOn : Instr → Bool
  | .jump _ | .ret => false
  | _ => true

/-- The label stands on line `n`, as labels are found. -/
def Lands (lines : List Line) (l : Label) (n : Nat) : Prop :=
  ∃ other, lines[n]? = some (.label other) ∧ l.names other = true

/-- A path from the first of the lines comes to line `n` with a count. -/
inductive Visits (lines : List Line) : Nat → StackCount → Prop
  | entry : Visits lines 0 .entry
  | label {n : Nat} {c : StackCount} {l : Label} (before : Visits lines n c)
      (line : lines[n]? = some (.label l)) : Visits lines (n + 1) c
  | next {n : Nat} {c c' : StackCount} {i : Instr} {remark : Option String}
      (before : Visits lines n c) (line : lines[n]? = some (.instr i remark))
      (goesOn : i.goesOn = true) (counted : i.counted c = some c') : Visits lines (n + 1) c'
  | jump {n k : Nat} {c : StackCount} {i : Instr} {remark : Option String} {l : Label}
      (before : Visits lines n c) (line : lines[n]? = some (.instr i remark))
      (target : i.jump? = some l) (lands : Lands lines l k) : Visits lines k c

/-! ## What is counted -/

/-- The stack pointer is as many words below the place where it was at the entry as have been
counted, and so is `ebp` if it was set. -/
structure StackCount.Counts (c : StackCount) (bottom : Word) (m : Machine) : Prop where
  words : m.registers .esp = bottom - BitVec.ofInt 32 (4 * c.words)
  mark : ∀ words, c.mark = some words → m.registers .ebp = bottom - BitVec.ofInt 32 (4 * words)

namespace StackCount

variable {c c' : StackCount} {bottom : Word} {m m' : Machine}

/-- At the entry nothing is counted. -/
theorem counts_entry (m : Machine) : entry.Counts (m.registers .esp) m :=
  ⟨by simp [entry], fun _ h => nomatch h⟩

/-- A count depends on the two pointers only. -/
theorem Counts.congr (h : c.Counts bottom m) (hesp : m'.registers .esp = m.registers .esp)
    (hebp : m'.registers .ebp = m.registers .ebp) : c.Counts bottom m' :=
  ⟨hesp.trans h.words, fun words hmark => hebp.trans (h.mark words hmark)⟩

end StackCount

/-- An instruction other than a call or a return. -/
def Instr.stays : Instr → Bool
  | .call _ | .ret => false
  | _ => true

/-- Words below words. -/
theorem Word.sub_words (bottom : Word) (words more : Int) :
    bottom - BitVec.ofInt 32 (4 * words) - BitVec.ofInt 32 (4 * more) =
      bottom - BitVec.ofInt 32 (4 * (words + more)) := by
  rw [BitVec.sub_sub, ← BitVec.ofInt_add, ← Int.mul_add]

/-- A number of words is the same as an integer and as a natural number. -/
theorem Word.ofInt_words (n : Nat) : BitVec.ofInt 32 (4 * n) = BitVec.ofNat 32 (4 * n) :=
  BitVec.ofInt_natCast 32 (4 * n)

namespace Loading

variable {a : Listing} {loading : Loading a} {c c' : StackCount} {bottom : Word}
  {m m' : Machine} {i : Instr}

/-- An instruction that does not work on the stack leaves a register that is not its
destination, apart from the two in which it puts results unasked. -/
theorem execute_leaves {r : Register} (hexecute : loading.execute m i = .next m')
    (hr : ∀ dst, i.destination? = some dst → r ≠ dst) (heax : r ≠ .eax) (hedx : r ≠ .edx)
    (hpush : ∀ src, i ≠ .push src) (hpop : ∀ dst, i ≠ .pop dst) (hstays : i.stays = true) :
    m'.registers r = m.registers r := by
  have hwide : ∀ b, r ≠ Machine.wide b := by
    intro b
    cases b <;> assumption
  cases i with
  | push src => exact absurd rfl (hpush src)
  | pop dst => exact absurd rfl (hpop dst)
  | call _ => cases hstays
  | ret => cases hstays
  | _ =>
      simp only [execute, fetch, result, flagged, jump, divide, systemCall] at hexecute
      (repeat' split at hexecute) <;> cases hexecute <;>
        simp_all [Instr.destination?, Machine.setByte]

/-- **What is counted is what the machine does.**  An instruction that is executed, and that
neither calls nor returns, takes a state with a count to one with the count behind it. -/
theorem execute_counted (h : c.Counts bottom m) (hexecute : loading.execute m i = .next m')
    (hcounted : i.counted c = some c') (hstays : i.stays = true) : c'.Counts bottom m' := by
  cases Instr.counted_behind hcounted with
  | push src =>
      simp only [execute, push] at hexecute
      split at hexecute <;> cases hexecute
      refine ⟨?_, fun words hmark => ?_⟩
      · simp only [Machine.advance_registers, Machine.pushed_registers, if_pos]
        rw [h.words]
        exact Word.sub_words bottom c.words 1
      · simpa using h.mark words hmark
  | @pop dst hdst =>
      simp only [execute, fetch] at hexecute
      split at hexecute <;> cases hexecute
      refine ⟨?_, fun words hmark => ?_⟩
      · simp only [Machine.advance_registers, Machine.set_registers, if_pos, if_neg hdst.symm]
        rw [h.words, Int.sub_eq_add_neg, ← Word.sub_words,
          show BitVec.ofInt 32 (4 * -1) = -4#32 by decide, BitVec.sub_neg]
        rfl
      · by_cases hebp : dst = .ebp
        · rw [if_pos hebp] at hmark
          cases hmark
        · rw [if_neg hebp] at hmark
          simpa [Ne.symm hebp] using h.mark words hmark
  | reserve n =>
      simp only [execute, result] at hexecute
      split at hexecute <;> cases hexecute
      refine ⟨?_, fun words hmark => ?_⟩
      · simp only [Machine.set_registers, if_pos]
        rw [h.words, ← Word.sub_words, Word.ofInt_words]
      · simpa using h.mark words hmark
  | release n =>
      simp only [execute, result] at hexecute
      cases hexecute
      refine ⟨?_, fun words hmark => ?_⟩
      · simp only [Machine.set_registers, if_pos]
        rw [h.words, Int.sub_eq_add_neg, ← Word.sub_words, Int.mul_neg, BitVec.ofInt_neg,
          Word.ofInt_words, BitVec.sub_neg]
      · simpa using h.mark words hmark
  | mark =>
      simp only [execute] at hexecute
      cases hexecute
      refine ⟨by simpa using h.words, fun words hmark => ?_⟩
      cases hmark
      simpa using h.words
  | restore hmark =>
      simp only [execute] at hexecute
      cases hexecute
      refine ⟨by simpa using h.mark _ hmark, fun words hwords => ?_⟩
      cases hwords
      simpa using h.mark _ hmark
  | leave hesp hebp hpush hpop =>
      exact h.congr
        (execute_leaves hexecute hesp (by decide) (by decide) hpush hpop hstays)
        (execute_leaves hexecute hebp (by decide) (by decide) hpush hpop hstays)

/-- **It goes on where a path does.**  An instruction that neither calls nor returns is followed
by the next line, or by the one with the label that it jumps to. -/
theorem execute_line (hexecute : loading.execute m i = .next m') (hstays : i.stays = true) :
    (i.goesOn = true ∧ m'.line = m.line + 1) ∨
      ∃ l n, i.jump? = some l ∧ a.target? l = some n ∧ m' = { m with line := n } := by
  have hjump : ∀ l, jump (a := a) l m = .next m' →
      ∃ n, a.target? l = some n ∧ m' = { m with line := n } := by
    intro l h
    unfold jump at h
    split at h
    · next n hn =>
      cases h
      exact ⟨n, hn, rfl⟩
    · cases h
  cases i with
  | jump l =>
      obtain ⟨n, hn, hm'⟩ := hjump l hexecute
      exact .inr ⟨l, n, rfl, hn, hm'⟩
  | jumpIf condition l =>
      simp only [execute] at hexecute
      split at hexecute
      · split at hexecute
        · obtain ⟨n, hn, hm'⟩ := hjump l hexecute
          exact .inr ⟨l, n, rfl, hn, hm'⟩
        · cases hexecute
          exact .inl ⟨rfl, rfl⟩
      · cases hexecute
  | call _ => cases hstays
  | ret => cases hstays
  | _ =>
      refine .inl ⟨rfl, ?_⟩
      simp only [execute, fetch, push, result, flagged, divide, systemCall] at hexecute
      (repeat' split at hexecute) <;> cases hexecute <;> rfl

/-! ## Executions -/

/-- One state comes behind another within the lines of a function: a label is passed, an
instruction is executed, and a call has come back to the next line, with the stack pointer and
`ebp` as they were. -/
inductive Proceeds (loading : Loading a) (m : Machine) : Machine → Prop
  | label {l : Label} (line : a.lines[m.line]? = some (.label l)) : Proceeds loading m m.advance
  | instr {i : Instr} {remark : Option String} {m' : Machine}
      (line : a.lines[m.line]? = some (.instr i remark)) (stays : i.stays = true)
      (executed : loading.execute m i = .next m') : Proceeds loading m m'
  | call {l : Label} {remark : Option String} {m' : Machine}
      (line : a.lines[m.line]? = some (.instr (.call l) remark)) (back : m'.line = m.line + 1)
      (stack : m'.registers .esp = m.registers .esp)
      (base : m'.registers .ebp = m.registers .ebp) : Proceeds loading m m'

end Loading

/-- The label that lines land on is found where they stand. -/
theorem Listing.Unambiguous.target?_of_lands {a : Listing} {lines : List Line} {l : Label}
    {place n : Nat} (h : a.Unambiguous) (hstands : Stands a.lines place lines)
    (hlands : Lands lines l n) : a.target? l = some (place + n) := by
  obtain ⟨other, hother, hnames⟩ := hlands
  have hfound := h.target?_eq (stands_getElem? hstands hother)
  have hsame : ∀ third, l.names third = other.names third := by
    intro third
    rw [Bool.eq_iff_iff, Label.names_iff, Label.names_iff, Label.names_iff.1 hnames]
  unfold target? at hfound ⊢
  rw [← hfound]
  refine congrArg (fun p => a.lines.findIdx? p) (funext fun line => ?_)
  cases line with
  | label third => exact hsame third
  | instr _ _ => rfl

end Slate
