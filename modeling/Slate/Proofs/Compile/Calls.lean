import Slate.Proofs.Compile.Evaluated

/-!
# Calls and returns

A call pushes the address of the line behind it and goes on at the routine of its name.
What the routine finds then is said by `Called`, in terms of the state that the call was
executed in.

A routine returns when its stack pointer is at that address again.  All that it has to
see to is that the word is still there, and that nothing outside of the stack and the
arguments has changed (`Called.returns`).
-/

namespace Slate

variable {a : Assembly} {loading : Loading a.listing} {m m₁ m₂ : Machine}
  {values : List Value} {top : Nat}

/-- Changes within the stack below `top` count as changes of its free part. -/
theorem Keeps.within {bottom : Nat} {own : Nat → Prop} {memory other : Memory}
    (h : Keeps loading bottom own memory other) (hbottom : bottom ≤ top)
    (hown : ∀ q, own q → loading.low ≤ q ∧ q < top) : Keeps loading top nowhere memory other := by
  intro q hq _
  refine h q (by omega) fun hq' => ?_
  have hin := hown q hq'
  omega

/-- The state at the first line of a routine that has been called in the state `m`. -/
structure Called (loading : Loading a.listing) (m : Machine) (values : List Value) (top : Nat)
    (m₁ : Machine) : Prop where
  stack : (m₁.registers .esp).toNat + 4 = (m.registers .esp).toNat
  count : (m.registers .esp).toNat + 4 * values.length = top
  low : loading.low ≤ (m₁.registers .esp).toNat
  high : top ≤ loading.top
  base : m₁.registers .ebp = m.registers .ebp
  back : loading.locate (m₁.memory.word (m₁.registers .esp).toNat) = some (m.line + 1)
  pushed : Pushed loading values top m₁.memory
  loaded : loading.Loaded m₁.memory
  keeps : Keeps loading top nowhere m.memory m₁.memory
  output : m₁.output = m.output

/-- **Calls.**  The routine of a function is entered at its first line. -/
theorem reaches_routine {name : String} {rest code : List Line} {n : Nat}
    (hstands : Stands a.listing.lines m.line (.of (.call (.routine name)) :: rest))
    (hready : Ready loading m values top) (hunambiguous : a.listing.Unambiguous)
    (hroutine : Stands a.listing.lines n (.label (.routine name) :: code)) :
    loading.Reaches (fun m₁ => m₁.line = n + 1 ∧ Called loading m values top m₁) m := by
  have htarget := hunambiguous.target?_eq hroutine.1
  refine .after (Loading.reaches_call hstands htarget) fun m₁ hm₁ => ?_
  obtain ⟨hspace, rfl⟩ := hm₁
  refine .label hroutine (.here ⟨rfl, ?_⟩)
  have hcount := hready.stack
  have hsub : (m.registers .esp - 4).toNat = (m.registers .esp).toNat - 4 :=
    Word.toNat_sub_four (by omega)
  have hline : m.line < a.lines.length := (List.getElem?_eq_some_iff.1 hstands.1).1
  have hkeeps : Keeps loading top nowhere m.memory
      (m.memory.setWord ((m.registers .esp).toNat - 4) (loading.code (m.line + 1))) :=
    .store_free _ (by omega) (by omega)
  refine ⟨?_, hcount, ?_, hready.high, rfl, ?_, ?_, ?_, hkeeps, rfl⟩
  · show (m.registers .esp - 4).toNat + 4 = _
    omega
  · show loading.low ≤ (m.registers .esp - 4).toNat
    omega
  · show loading.locate (Memory.word (m.memory.setWord _ _) (m.registers .esp - 4).toNat) = _
    rw [hsub, Memory.word_setWord, loading.locate_code _ hline]
  · refine hready.pushed.keep (by omega) fun q hlow _ => ?_
    exact Memory.setWord_apart _ (by omega)
  · exact hkeeps.loaded hready.loaded hready.high fun _ hno => hno.elim

/-- **Returns.**  A routine returns to the line behind its call. -/
theorem Called.returns (h : Called loading m values top m₁) {v : Value} {rest : List Line}
    (hstands : Stands a.listing.lines m₂.line (.of .ret :: rest))
    (hstack : m₂.registers .esp = m₁.registers .esp)
    (hbase : m₂.registers .ebp = m₁.registers .ebp)
    (hback : m₂.memory.word (m₁.registers .esp).toNat = m₁.memory.word (m₁.registers .esp).toNat)
    (hresult : Encodes loading v.data (m₂.registers .eax))
    (hkeeps : Keeps loading top nowhere m₁.memory m₂.memory) :
    loading.Reaches (fun m₃ => m₃.output = m₂.output ∧ Returned loading m top v m₃) m₂ := by
  have hcaller := h.stack
  have hcount := h.count
  have hhigh := h.high
  have hend := loading.top_lt
  have hreturn : loading.execute m₂ .ret = _ :=
    Loading.execute_ret (n := m.line + 1) (by rw [hstack]; omega) (by rw [hstack, hback, h.back])
  refine .instr hstands hreturn (.here ⟨rfl, rfl, ?_, hbase.trans h.base, hresult, ?_⟩)
  · show m₂.registers .esp + 4 = _
    apply BitVec.eq_of_toNat_eq
    have hsum : (m₂.registers .esp + 4).toNat = (m₂.registers .esp).toNat + 4 :=
      Word.toNat_add_four (by rw [hstack]; omega)
    rw [hsum, hstack, hcaller]
  · exact h.keeps.trans hkeeps

end Slate
