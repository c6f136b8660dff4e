import Mathlib.Logic.Relation
import Slate.Proofs.Compile.Referenced
import Slate.Proofs.Machine.Counted

/-!
# Reckoning the stack line by line

Paths through the lines of a function are many; the lines are few.  What the compiler makes has
one count at all labels, the level of the function: its frame is on the stack and nothing else.
So the count can be reckoned from each line to the next in the order of the text (`reckon`),
with the level taken up again behind a jump or a return, and every path agrees with that
(`visits_reckon`): it comes to a label by a jump that starts from the level.

* `Function.Balances` — what it means that the stack is balanced on every path.
* `Function.Balances.tallies_run` — an execution has the stack pointer where the paths say;
* `Function.Balances.returns_at_entry` — so at a return it is where it was at the entry.
* `Function.balances` — lines that can be reckoned, that restore `ebp` in epilogues only and
  that end with a return are balanced.
-/

namespace Slate

/-! ## What balance is -/

/-- How many words of the stack a function keeps for itself: the saved `ebp` and its locals, if
it has a frame. -/
def Function.reserved (f : Function) : Nat := if f.hasFrame then 1 + f.locals.length else 0

/-- The line is one of code that undoes the frame and returns. -/
def Function.InEpilogue (f : Function) (lines : List Line) (n : Nat) : Prop :=
  ∃ before after, lines = before ++ codeLines f.epilogue ++ after ∧ before.length ≤ n ∧
    n < before.length + f.epilogue.length

/-- Whether an instruction takes words off the stack. -/
def Instr.releases : Instr → Bool
  | .pop _ | .addConst .esp _ => true
  | _ => false

/-- What gives words back is neither a jump nor a return. -/
theorem Instr.plain_of_releases {i : Instr} (h : i.releases = true) :
    i.jump? = none ∧ i ≠ .ret := by
  cases i with
  | pop dst => exact ⟨rfl, nofun⟩
  | addConst dst n => exact ⟨rfl, nofun⟩
  | _ => cases h

/-- The lines of a function keep the stack balanced on every path: the count depends on the line
and not on the path, can be told behind every instruction, stays above what the function keeps
for itself until an epilogue, and is zero at every return; and no path leaves the lines. -/
structure Function.Balances (f : Function) (lines : List Line) : Prop where
  unique : ∀ n c c', Visits lines n c → Visits lines n c' → c = c'
  counted : ∀ n c i remark, Visits lines n c → lines[n]? = some (.instr i remark) →
    i.goesOn = true → ∃ c', i.counted c = some c'
  reserved : ∀ n c c' i remark, Visits lines n c → lines[n]? = some (.instr i remark) →
    i.releases = true → i.counted c = some c' → ¬ f.InEpilogue lines n → f.reserved ≤ c'.words
  returns : ∀ n c remark, Visits lines n c → lines[n]? = some (.instr .ret remark) → c.words = 0
  jumps : ∀ (n : Nat) (i : Instr) remark l, lines[n]? = some (.instr i remark) → i.jump? = some l →
    ∃ k, Lands lines l k ∧ ∀ k', Lands lines l k' → k' = k
  inside : ∀ n c, Visits lines n c → n < lines.length

/-! ## What balance says of executions -/

/-- The state is on a line to which a path comes, the stack pointer and `ebp` where the count of
the path has them. -/
def Tallies (lines : List Line) (place : Nat) (bottom : Word) (m : Machine) : Prop :=
  ∃ n c, m.line = place + n ∧ Visits lines n c ∧ c.Counts bottom m

namespace Function.Balances

variable {f : Function} {lines : List Line} {a : Listing} {loading : Loading a} {place : Nat}
  {bottom : Word} {m m' : Machine} {remark : Option String}

/-- One step of an execution keeps to the paths. -/
theorem tallies_step (h : f.Balances lines) (hunambiguous : a.Unambiguous)
    (hstands : Stands a.lines place lines) (hm : Tallies lines place bottom m)
    (hproceeds : loading.Proceeds m m') : Tallies lines place bottom m' := by
  obtain ⟨n, c, hline, hvisits, hcounts⟩ := hm
  -- no path leaves the lines, so that the line that comes next is one of them
  have hn := h.inside n c hvisits
  have hhere : ∀ line, a.lines[m.line]? = some line → lines[n]? = some line := by
    intro line hm
    rw [hline, stands_getElem? hstands (List.getElem?_eq_getElem hn)] at hm
    rw [List.getElem?_eq_getElem hn, hm]
  cases hproceeds with
  | label line =>
      refine ⟨n + 1, c, ?_, .label hvisits (hhere _ line), hcounts.congr rfl rfl⟩
      rw [Machine.advance_line, hline, Nat.add_assoc]
  | call line back stack base =>
      refine ⟨n + 1, c, ?_, .next hvisits (hhere _ line) rfl rfl, hcounts.congr stack base⟩
      rw [back, hline, Nat.add_assoc]
  | instr line stays executed =>
      rcases Loading.execute_line executed stays with
        ⟨hgoesOn, hnext⟩ | ⟨l, target, hjump, htarget, rfl⟩
      · obtain ⟨c', hcounted⟩ := h.counted n c _ _ hvisits (hhere _ line) hgoesOn
        refine ⟨n + 1, c', ?_, .next hvisits (hhere _ line) hgoesOn hcounted,
          Loading.execute_counted hcounts executed hcounted stays⟩
        rw [hnext, hline, Nat.add_assoc]
      · obtain ⟨k, hlands, _⟩ := h.jumps n _ _ l (hhere _ line) hjump
        rw [hunambiguous.target?_of_lands hstands hlands] at htarget
        cases htarget
        exact ⟨k, c, rfl, .jump hvisits (hhere _ line) hjump hlands, hcounts.congr rfl rfl⟩

/-- **Executions keep to the paths.**  Whatever state an execution of the lines comes to from
their entry, the stack pointer is where a path to its line says. -/
theorem tallies_run (h : f.Balances lines) (hunambiguous : a.Unambiguous)
    (hstands : Stands a.lines place lines) (hentry : m.line = place)
    (hrun : Relation.ReflTransGen loading.Proceeds m m') :
    Tallies lines place (m.registers .esp) m' := by
  induction hrun with
  | refl => exact ⟨0, .entry, hentry, .entry, StackCount.counts_entry m⟩
  | tail _ hproceeds ih => exact h.tallies_step hunambiguous hstands ih hproceeds

/-- **Returns are at the entry's level.**  When an execution of the lines comes to a return, the
stack pointer is where it was at the entry: the address to return to is what it points at. -/
theorem returns_at_entry (h : f.Balances lines) (hunambiguous : a.Unambiguous)
    (hstands : Stands a.lines place lines) (hentry : m.line = place)
    (hrun : Relation.ReflTransGen loading.Proceeds m m')
    (hreturn : a.lines[m'.line]? = some (.instr .ret remark)) :
    m'.registers .esp = m.registers .esp := by
  obtain ⟨n, c, hline, hvisits, hcounts⟩ := h.tallies_run hunambiguous hstands hentry hrun
  have hn := h.inside n c hvisits
  rw [hline, stands_getElem? hstands (List.getElem?_eq_getElem hn)] at hreturn
  have hwords := h.returns n c remark hvisits (by rw [List.getElem?_eq_getElem hn, hreturn])
  rw [hcounts.words, hwords]
  simp

end Function.Balances

/-! ## Reckoning line by line -/

/-- The label is one of control flow. -/
def Label.isControl : Label → Bool
  | .control _ _ _ => true
  | _ => false

/-- The count behind a line, if the line keeps to the count `base` that all labels have: a jump
starts from it, behind a return it is taken up again, and nothing below it is taken off. -/
def Line.reckon (base c : StackCount) : Line → Option StackCount
  | .label _ => if c = base then some base else none
  | .instr .ret _ => if c.words = 0 then some base else none
  | .instr (.jump l) _ | .instr (.jumpIf _ l) _ =>
    if c = base ∧ l.isControl then some base else none
  | .instr i _ =>
    (i.counted c).filter fun c' => !i.releases || i = .pop .ebp || base.words ≤ c'.words

/-- The count behind lines that keep to the count of all labels. -/
def reckon (base c : StackCount) (lines : List Line) : Option StackCount :=
  lines.foldlM (fun c line => line.reckon base c) c

section

variable {base c c' start last : StackCount} {first second lines : List Line} {i : Instr}
  {remark : Option String} {n : Nat}

/-- Two pieces are counted one after the other. -/
theorem reckon_append :
    reckon base c (first ++ second) =
      (reckon base c first).bind fun c' => reckon base c' second :=
  List.foldlM_append

/-- An instruction is counted by its line. -/
theorem reckon_instr : reckon base c (codeLines [i]) = (Line.of i).reckon base c := by
  simp [reckon, codeLines]

/-- An instruction that takes words off, but nothing that lies below the base. -/
theorem Line.reckon_releases (hcounted : i.counted c = some c') (hkept : base.words ≤ c'.words)
    (hreleases : i.releases = true) :
    (Line.of i).reckon base c = some c' := by
  cases i with
  | pop dst => simp [Line.of, reckon, hcounted, hkept, Option.filter]
  | addConst dst n => simp [Line.of, reckon, hcounted, hkept, Option.filter]
  | _ => cases hreleases

/-- A label is passed at the base only. -/
theorem Line.reckon_label {l : Label} (h : (Line.label l).reckon base c = some c') :
    c = base ∧ c' = base := by
  simp only [reckon] at h
  split at h
  · next hc =>
    cases h
    exact ⟨hc, rfl⟩
  · cases h

/-- A return is counted where no word is left. -/
theorem Line.reckon_ret (h : (Line.instr .ret remark).reckon base c = some c') : c.words = 0 := by
  simp only [reckon] at h
  split at h
  · assumption
  · cases h

/-- A jump is counted at the base only, and it goes to a label of control. -/
theorem Line.reckon_jump {l : Label} (h : (Line.instr i remark).reckon base c = some c')
    (hjump : i.jump? = some l) : c = base ∧ c' = base ∧ l.isControl = true := by
  rcases Instr.jump?_eq_some.1 hjump with rfl | ⟨condition, rfl⟩ <;>
  · simp only [reckon] at h
    split at h
    · next hboth =>
      cases h
      exact ⟨hboth.1, rfl, hboth.2⟩
    · cases h

/-- Any other instruction is counted, and takes nothing off that lies below the base. -/
theorem Line.reckon_other (h : (Line.instr i remark).reckon base c = some c')
    (hjump : i.jump? = none) (hret : i ≠ .ret) :
    i.counted c = some c' ∧ (i.releases = true → i ≠ .pop .ebp → base.words ≤ c'.words) := by
  unfold reckon at h
  split at h
  · next heq => cases heq
  · next heq =>
    cases heq
    exact absurd rfl hret
  · next heq =>
    cases heq
    cases hjump
  · next heq =>
    cases heq
    cases hjump
  · next heq =>
    cases heq
    obtain ⟨hcounted, hkept⟩ := Option.filter_eq_some_iff.1 h
    refine ⟨hcounted, fun hreleases hne => ?_⟩
    simpa [hreleases, hne] using hkept

/-- What is reckoned behind an instruction that goes on is what is counted. -/
theorem Line.reckon_counted (h : (Line.instr i remark).reckon base c = some c')
    (hgoesOn : i.goesOn = true) : i.counted c = some c' := by
  cases hjump : i.jump? with
  | none =>
      refine (reckon_other h hjump ?_).1
      rintro rfl
      cases hgoesOn
  | some l =>
      obtain ⟨rfl, rfl, _⟩ := reckon_jump h hjump
      rcases Instr.jump?_eq_some.1 hjump with rfl | ⟨condition, rfl⟩
      · cases hgoesOn
      · rfl

/-- Every line has its count. -/
theorem reckon_at {line : Line} (h : reckon base start lines = some last)
    (hline : lines[n]? = some line) :
    ∃ c c', reckon base start (lines.take n) = some c ∧ line.reckon base c = some c' ∧
      reckon base start (lines.take (n + 1)) = some c' := by
  have htake : lines.take (n + 1) = lines.take n ++ [line] := by
    rw [List.take_add_one, hline]
    rfl
  rw [← List.take_append_drop (n + 1) lines, reckon_append] at h
  obtain ⟨c', hc', _⟩ := Option.bind_eq_some_iff.1 h
  have hboth := hc'
  rw [htake, reckon_append] at hboth
  obtain ⟨c, hc, hstep⟩ := Option.bind_eq_some_iff.1 hboth
  exact ⟨c, c', hc, by simpa [reckon] using hstep, hc'⟩

/-- **Paths agree with the text.**  Whatever path comes to a line, its count is what is reckoned
of the lines before. -/
theorem visits_reckon (h : reckon base .entry lines = some last) (hvisits : Visits lines n c) :
    reckon base .entry (lines.take n) = some c := by
  induction hvisits with
  | entry => rfl
  | label _ hline ih =>
      obtain ⟨d, d', hd, hstep, hd'⟩ := reckon_at h hline
      obtain rfl := Option.some.inj (hd.symm.trans ih)
      obtain ⟨rfl, rfl⟩ := Line.reckon_label hstep
      exact hd'
  | next _ hline hgoesOn hcounted ih =>
      obtain ⟨d, d', hd, hstep, hd'⟩ := reckon_at h hline
      obtain rfl := Option.some.inj (hd.symm.trans ih)
      obtain rfl := Option.some.inj ((Line.reckon_counted hstep hgoesOn).symm.trans hcounted)
      exact hd'
  | jump _ hline hjump hlands ih =>
      obtain ⟨d, d', hd, hstep, _⟩ := reckon_at h hline
      obtain rfl := Option.some.inj (hd.symm.trans ih)
      obtain ⟨rfl, _, _⟩ := Line.reckon_jump hstep hjump
      -- both ends of the jump have the count of all labels, wherever in the text they are
      obtain ⟨other, hplace, _⟩ := hlands
      obtain ⟨e, e', he, hlabel, _⟩ := reckon_at h hplace
      obtain ⟨rfl, _⟩ := Line.reckon_label hlabel
      exact he

end

/-! ## The level of a function -/

/-- The count at the labels of a function: its frame is on the stack and nothing else. -/
def Function.level (f : Function) : StackCount :=
  if f.hasFrame then ⟨1 + f.locals.length, some 1⟩ else ⟨0, none⟩

/-- At the level of a function its locals are reserved and nothing else. -/
theorem Function.level_words (f : Function) : f.level.words = f.reserved := by
  unfold level reserved
  split
  · simp
  · rfl

variable {f : Function} {lines first second : List Line} {code : List Instr}

/-- More lines behind change nothing in front of them. -/
theorem Function.InEpilogue.appendRight {n : Nat} (h : f.InEpilogue lines n) (more : List Line) :
    f.InEpilogue (lines ++ more) n := by
  obtain ⟨before, after, rfl, hfrom, hto⟩ := h
  exact ⟨before, after ++ more, List.append_assoc _ _ _, hfrom, hto⟩

/-- More lines in front move what is behind them. -/
theorem Function.InEpilogue.appendLeft {n : Nat} (h : f.InEpilogue lines n) (more : List Line) :
    f.InEpilogue (more ++ lines) (more.length + n) := by
  obtain ⟨before, after, rfl, hfrom, hto⟩ := h
  refine ⟨more ++ before, after, by simp only [List.append_assoc], ?_, ?_⟩
  · rw [List.length_append]
    omega
  · rw [List.length_append]
    omega

/-- `ebp` is restored in epilogues only. -/
def Function.Restores (f : Function) (lines : List Line) : Prop :=
  ∀ (n : Nat) remark, lines[n]? = some (.instr (.pop .ebp) remark) → f.InEpilogue lines n

/-- Two pieces restore the frame if each does. -/
theorem Function.Restores.append (hfirst : f.Restores first) (hsecond : f.Restores second) :
    f.Restores (first ++ second) := by
  intro n remark hline
  by_cases hn : n < first.length
  · rw [List.getElem?_append_left hn] at hline
    exact (hfirst n remark hline).appendRight second
  · have hge : first.length ≤ n := Nat.le_of_not_lt hn
    rw [List.getElem?_append_right hge] at hline
    have hin := (hsecond _ remark hline).appendLeft first
    rwa [Nat.add_sub_cancel' hge] at hin

/-- Lines that never restore the frame do so in the epilogue only. -/
theorem Function.restores_of_none (h : ∀ remark, .instr (.pop .ebp) remark ∉ lines) :
    f.Restores lines :=
  fun _ remark hline => absurd (List.mem_of_getElem? hline) (h remark)

/-- Code without the instruction has no line with it. -/
theorem Function.restores_code (h : .pop .ebp ∉ code) : f.Restores (codeLines code) := by
  refine restores_of_none fun remark hline => ?_
  obtain ⟨i, hi, heq⟩ := List.mem_map.1 hline
  cases heq
  exact h hi

/-! ## Balance from reckoning -/

/-- Whatever instruction a path comes to is reckoned from the count of the path. -/
theorem reckon_visited {c last base : StackCount} {n : Nat} {i : Instr} {remark : Option String}
    (h : reckon base .entry lines = some last) (hvisits : Visits lines n c)
    (hline : lines[n]? = some (.instr i remark)) :
    ∃ c', (Line.instr i remark).reckon base c = some c' := by
  obtain ⟨d, c', hd, hstep, _⟩ := reckon_at h hline
  obtain rfl := Option.some.inj (hd.symm.trans (visits_reckon h hvisits))
  exact ⟨c', hstep⟩

/-- There are more lines behind one that is not the last. -/
theorem succ_lt_length {n : Nat} {line last : Line} (hline : (lines ++ [last])[n]? = some line)
    (hne : line ≠ last) : n + 1 < (lines ++ [last]).length := by
  have hn := (List.getElem?_eq_some_iff.1 hline).1
  rw [List.length_append, List.length_singleton] at hn ⊢
  refine Nat.lt_of_not_le fun hle => hne ?_
  have hlast : n = lines.length := by omega
  rw [hlast, List.getElem?_append_right (Nat.le_refl _), Nat.sub_self] at hline
  exact (Option.some.inj hline).symm

/-- No path runs past lines of which the last one is a return. -/
theorem visits_inside {c : StackCount} {n : Nat} (h : Visits (lines ++ [Line.of .ret]) n c) :
    n < (lines ++ [Line.of .ret]).length := by
  cases h with
  | entry => simp
  | label _ hline => exact succ_lt_length hline (by simp [Line.of])
  | next _ hline hgoesOn _ =>
      refine succ_lt_length hline ?_
      intro heq
      cases heq
      cases hgoesOn
  | jump _ _ _ hlands =>
      obtain ⟨_, hplace, _⟩ := hlands
      exact (List.getElem?_eq_some_iff.1 hplace).1

/-- **Lines that keep to a level are balanced.** -/
theorem Function.balances {last : StackCount}
    (hreckoned : reckon f.level .entry (lines ++ [.of .ret]) = some last)
    (hrestores : f.Restores (lines ++ [.of .ret]))
    (hjumps : ∀ l ∈ referencesOf (lines ++ [.of .ret]), l.isControl = true →
      ∃ k, Lands (lines ++ [.of .ret]) l k ∧ ∀ k', Lands (lines ++ [.of .ret]) l k' → k' = k) :
    f.Balances (lines ++ [.of .ret]) where
  unique := by
    intro n c c' h h'
    exact Option.some.inj ((visits_reckon hreckoned h).symm.trans (visits_reckon hreckoned h'))
  counted := by
    intro n c i remark hvisits hline hgoesOn
    obtain ⟨c', hstep⟩ := reckon_visited hreckoned hvisits hline
    exact ⟨c', Line.reckon_counted hstep hgoesOn⟩
  reserved := by
    intro n c c' i remark hvisits hline hreleases hcounted hout
    obtain ⟨d, hstep⟩ := reckon_visited hreckoned hvisits hline
    obtain ⟨hjump, hret⟩ := i.plain_of_releases hreleases
    obtain ⟨hd, hkept⟩ := Line.reckon_other hstep hjump hret
    obtain rfl := Option.some.inj (hd.symm.trans hcounted)
    rw [← f.level_words]
    refine hkept hreleases ?_
    rintro rfl
    exact hout (hrestores n remark hline)
  returns := by
    intro n c remark hvisits hline
    obtain ⟨c', hstep⟩ := reckon_visited hreckoned hvisits hline
    exact Line.reckon_ret hstep
  jumps := by
    intro n i remark l hline hjump
    obtain ⟨_, _, _, hstep, _⟩ := reckon_at hreckoned hline
    obtain ⟨_, _, hcontrol⟩ := Line.reckon_jump hstep hjump
    refine hjumps l (List.mem_filterMap.2 ⟨_, List.mem_of_getElem? hline, ?_⟩) hcontrol
    rcases Instr.jump?_eq_some.1 hjump with rfl | ⟨condition, rfl⟩ <;> rfl
  inside := fun _ _ hvisits => visits_inside hvisits

end Slate
