import Slate.Proofs.Compile.Conformance
import Slate.Proofs.Eval.Builtins

/-!
# What a caller of the print routine can rely on

The routine stands in some assembly and has been called: its argument lies on the stack, behind
the address that it is to return to.  Then it returns, and everything that it has done on the
way can be told.  It has had the system write once, and these bytes are what the builtin prints
of the word, read as an integer; it has stored nowhere but in the 32 bytes below the return
address, where it saves registers and has its buffer; and the registers that belong to the
caller are as they were.
-/

namespace Slate

variable {a : Assembly} {loading : Loading a.listing} {m : Machine} {w : Word}
  {f : Function} {n : Nat}

/-- **The print routine prints what the builtin prints.**  Called with any word, it writes the
same bytes, in one piece; it stores within its frame only, returns, and gives the caller's
registers back. -/
theorem print_routine_prints (hname : f.name = "print")
    (hstands : Stands a.listing.lines m.line printRoutine)
    (hlabels : ∀ k l, printRoutine[k]? = some (.label l) → a.listing.target? l = some (m.line + k))
    (hroom : loading.low + 32 ≤ (m.registers .esp).toNat)
    (hspace : (m.registers .esp).toNat + 8 ≤ addressSpace)
    (hback : loading.locate (m.memory.word (m.registers .esp).toNat) = some n)
    (hargument : m.memory.word ((m.registers .esp).toNat + 4) = w) :
    ∃ bytes stores m', loading.Path m stores [bytes] m' ∧
      (∀ {σ : Type} (host : Host σ),
        callBuiltin host f [⟨.int, .int (Int32.ofBitVec w)⟩] = (do
          host.print bytes
          pure .void)) ∧
      bytes = (intText (Int32.ofBitVec w) ++ "\n").toUTF8 ∧
      (∃ steps, loading.run steps m = .next m') ∧ m'.output = m.output ++ bytes ∧
      (∀ q ∈ stores, (m.registers .esp).toNat ≤ q + 32 ∧ q < (m.registers .esp).toNat) ∧
      (∀ q ∉ stores, m'.memory q = m.memory q) ∧
      m'.line = n ∧ m'.registers .esp = m.registers .esp + 4 ∧
      ∀ r ∈ [Register.ebx, .esi, .edi, .ebp], m'.registers r = m.registers r := by
  have hprinted := @print_confined a loading m (Int32.ofBitVec w) hstands hlabels hspace hargument
  -- behind the routine there is only its return
  have hreturned : loading.Confined (m.registers .esp).toNat 32
      (fun m' => m'.line = n ∧ m'.registers .esp = m.registers .esp + 4 ∧
        ∀ r ∈ [Register.ebx, .esi, .edi, .ebp], m'.registers r = m.registers r)
      ([(intText (Int32.ofBitVec w) ++ "\n").toUTF8] ++ []) m := by
    refine hprinted.bind fun s hs => ?_
    have hesp : s.registers .esp = m.registers .esp := hs.preserves _ (by decide)
    have hword : s.memory.word (m.registers .esp).toNat = m.memory.word (m.registers .esp).toNat :=
      hs.keeps.word (by omega) fun _ _ _ hno => hno
    have hexecute := @Loading.execute_ret a.listing loading s n (by rw [hesp]; omega)
      (by rw [hesp, hword, hback])
    refine .instr hs.stands rfl hexecute (.here ⟨rfl, ?_, fun r hr => ?_⟩)
    · show s.registers .esp + 4 = _
      rw [hesp]
    · have hother : r ≠ .esp := by
        rintro rfl
        exact absurd hr (by decide)
      have hkept : r ∈ [Register.ebx, .esi, .edi, .ebp] ++ [.esp] := List.mem_append_left _ hr
      show (if r = .esp then _ else s.registers r) = _
      rw [if_neg hother, hs.preserves r hkept]
  obtain ⟨stores, m', hpath, ⟨hline, hstack, hregisters⟩, hstores⟩ := hreturned.path hroom
  exact ⟨_, stores, m', hpath, fun host => callBuiltin_print hname, rfl, hpath.run, hpath.output,
    hstores, fun q hq => hpath.memory hq, hline, hstack, hregisters⟩

/-- An assembly that has nothing but the routine. -/
def Assembly.printing : Assembly := ⟨false, [⟨"print", printRoutine⟩], []⟩

/-- A state in which the routine has been called with the least integer, from the line before
it. -/
def Machine.printing : Machine where
  line := 1
  registers r := if r = .esp then 8184 else 7
  flags := none
  memory := Memory.setByte (fun _ => 0) 8191 128
  output := .empty

theorem print_routine_prints_least :
    ∃ stores m', (Assembly.printing.listing.paged (by decide) rfl).Path .printing stores
        ["-2147483648\n".toUTF8] m' ∧
      m'.output = "-2147483648\n".toUTF8 ∧ (∀ q ∈ stores, 8152 ≤ q ∧ q < 8184) ∧
      m'.line = 0 ∧ m'.registers .esp = 8188 ∧
      m'.registers .ebx = 7 ∧ m'.registers .ebp = 7 := by
  have hstands : Stands Assembly.printing.listing.lines Machine.printing.line printRoutine :=
    stands_middle [.label (.routine "print")] printRoutine []
  have hcheck : ∀ k < 41, ∀ l ∈ labelsOf printRoutine[k]?.toList,
      Assembly.printing.listing.target? l = some (1 + k) := by
    decide +kernel
  have hlabels : ∀ k l, printRoutine[k]? = some (.label l) →
      Assembly.printing.listing.target? l = some (Machine.printing.line + k) := by
    intro k l hk
    have hlabel := hcheck k (List.getElem?_eq_some_iff.1 hk).1
    rw [hk] at hlabel
    exact hlabel l (List.mem_singleton_self l)
  obtain ⟨bytes, stores, m', hpath, _, rfl, _, houtput, hstores, _, hline, hstack, hregisters⟩ :=
    @print_routine_prints Assembly.printing (Assembly.printing.listing.paged (by decide) rfl)
      .printing
      2147483648 ⟨"print", .void, [⟨"value", .int⟩], [], true, default, []⟩ 0 rfl hstands hlabels
      (by decide) (by decide) (by decide +kernel) (by decide +kernel)
  have htext : (intText (Int32.ofBitVec 2147483648) ++ "\n").toUTF8 = "-2147483648\n".toUTF8 := by
    decide +kernel
  have hempty : Machine.printing.output ++ "-2147483648\n".toUTF8 = "-2147483648\n".toUTF8 :=
    ByteArray.empty_append
  rw [htext] at hpath houtput
  refine ⟨stores, m', hpath, houtput.trans hempty, fun q hq => ?_, hline, hstack,
    hregisters _ (by decide), hregisters _ (by decide)⟩
  have hin := hstores q hq
  have hesp : (Machine.printing.registers .esp).toNat = 8184 := rfl
  omega

end Slate
