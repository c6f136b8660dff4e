import Mathlib.Data.List.Forall2
import Slate.Proofs.Compile.Balance
import Slate.Proofs.Compile.Coded

/-!
# Where jumps go

A label of control flow is written as the name of its function, the construct and a number.
However the names of functions look, no two of these labels are written alike, so a jump
leads to one place, and that place is in the code of the function that jumps.

Jumps go forwards, to a label behind what they skip, with one exception: the jump that closes
a loop goes back to the start of that loop.  Along the lines of a statement a jump either has
its label among them already or leaves it pending until it stands behind them
(`Function.Directed`); behind a whole statement nothing is pending.

* `jumps_stay` — both facts, for the assembly of an accepted program.
-/

namespace Slate

variable {f : Function} {s s' : CompileState} {pending others : List Label}
  {loops moreLoops : List Stmt} {places morePlaces : List (Nat × Nat)}
  {lines first second : List Line} {code : List Instr} {l : Label}

/-! ## Loops of the source -/

mutual

/-- The loops within a statement, in the order of the text: a loop comes before those in its
body. -/
def Stmt.loops : Stmt → List Stmt
  | .expression _ _ | .ret _ _ => []
  | .ifThen _ _ body => bodyLoops body
  | .ifElse _ _ body otherwise => bodyLoops body ++ otherwise.loops
  | .loop span condition body => .loop span condition body :: bodyLoops body
  | .block _ body => bodyLoops body

/-- The loops within the statements of a body. -/
def bodyLoops : List Stmt → List Stmt
  | [] => []
  | stmt :: stmts => stmt.loops ++ bodyLoops stmts

end

/-- The code of a loop stands among the lines, from its start label on line `place.1` to the
end label behind line `place.2`, on which a jump to the start closes the loop. -/
inductive Function.LoopAt (f : Function) (lines : List Line) (loop : Stmt) (place : Nat × Nat) :
    Prop
  | mk {s s' : CompileState} {code : List Line}
      (compiled : compileStmt f s loop = .ok (code, s'))
      (stands : Stands lines place.1 code)
      (length : place.1 + code.length = place.2 + 2)
      (start : lines[place.1]? = some (.label (.control f.name .whileStart s.labels)))
      (close : lines[place.2]? = some (.of (.jump (.control f.name .whileStart s.labels))))
      (backwards : place.1 < place.2)

/-- A place among lines that come behind `n` others. -/
def behind (n : Nat) (place : Nat × Nat) : Nat × Nat := (n + place.1, n + place.2)

/-- Code that stands among some lines stands among more of them. -/
theorem stands_within {before after : List Line} :
    ∀ {n : Nat} {code : List Line}, Stands lines n code →
      Stands (before ++ lines ++ after) (before.length + n) code
  | _, [], _ => trivial
  | n, line :: rest, ⟨hline, hrest⟩ => by
      have hn := (List.getElem?_eq_some_iff.1 hline).1
      refine ⟨?_, stands_within hrest⟩
      rw [List.append_assoc, List.getElem?_append_right (Nat.le_add_right _ _),
        Nat.add_sub_cancel_left, List.getElem?_append_left hn]
      exact hline

/-- One line among more of them. -/
theorem getElem?_within {before after : List Line} {n : Nat} {line : Line}
    (h : lines[n]? = some line) :
    (before ++ lines ++ after)[before.length + n]? = some line := by
  have hstands : Stands lines n [line] := ⟨h, trivial⟩
  exact (stands_within hstands).1

/-- A loop is found behind more lines, and in front of more. -/
theorem Function.LoopAt.within {loop : Stmt} {place : Nat × Nat} (h : f.LoopAt lines loop place)
    (before after : List Line) :
    f.LoopAt (before ++ lines ++ after) loop (behind before.length place) := by
  obtain ⟨compiled, stands, length, start, close, backwards⟩ := h
  refine ⟨compiled, stands_within stands, ?_, getElem?_within start, getElem?_within close, ?_⟩
  · show before.length + place.1 + _ = before.length + place.2 + 2
    omega
  · exact Nat.add_lt_add_left backwards _

/-! ## Lines whose jumps are directed -/

/-- Every jump among the lines goes forwards or closes one of the loops, whose places are
given, unless its label is pending. -/
structure Function.Directed (f : Function) (pending : List Label) (loops : List Stmt)
    (places : List (Nat × Nat)) (lines : List Line) : Prop where
  loops : List.Forall₂ (f.LoopAt lines) loops places
  inside : ∀ place ∈ places, place.1 < lines.length
  ordered : places.Pairwise fun place other => place.1 < other.1
  jumps : ∀ (n : Nat) (i : Instr) (remark : Option String) (l : Label),
    lines[n]? = some (.instr i remark) → i.jump? = some l →
      l ∈ pending ∨ ∃ k, lines[k]? = some (.label l) ∧ (n < k ∨ (k, n) ∈ places)

namespace Function.Directed

/-- Lines without loops and jumps. -/
theorem plain (h : ∀ i remark, .instr i remark ∈ lines → i.jump? = none) :
    f.Directed pending [] [] lines := by
  refine ⟨.nil, List.forall_mem_nil _, .nil, fun n i remark l hline hjump => ?_⟩
  rw [h i remark (List.mem_of_getElem? hline)] at hjump
  cases hjump

/-- Code without jumps. -/
theorem straight (h : ∀ i ∈ code, i.jump? = none) :
    f.Directed pending [] [] (codeLines code) := by
  refine plain fun i remark hmem => ?_
  obtain ⟨j, hj, heq⟩ := List.mem_map.1 hmem
  cases heq
  exact h i hj

/-- A jump whose label is pending. -/
theorem jump {i : Instr} (hjump : i.jump? = some l) : f.Directed [l] [] [] [.of i] := by
  refine ⟨.nil, List.forall_mem_nil _, .nil, fun n j remark target hline htarget => .inl ?_⟩
  cases n with
  | succ n => cases hline
  | zero =>
      cases hline
      rw [hjump] at htarget
      cases htarget
      exact List.mem_singleton_self l

/-- What may be jumped to while it is pending may be one of more. -/
theorem mono (h : f.Directed pending loops places lines) (hmore : pending ⊆ others) :
    f.Directed others loops places lines :=
  ⟨h.loops, h.inside, h.ordered, fun n i remark l hline hjump =>
    (h.jumps n i remark l hline hjump).imp_left fun hl => hmore hl⟩

/-- Two directed pieces are directed together. -/
theorem append (hfirst : f.Directed pending loops places first)
    (hsecond : f.Directed pending moreLoops morePlaces second) :
    f.Directed pending (loops ++ moreLoops) (places ++ morePlaces.map (behind first.length))
      (first ++ second) := by
  refine ⟨?_, ?_, ?_, ?_⟩
  · have hleft : List.Forall₂ (f.LoopAt (first ++ second)) loops places := by
      refine hfirst.loops.imp fun loop place hloop => ?_
      have hwithin := hloop.within [] second
      simpa [behind] using hwithin
    have hright : List.Forall₂ (f.LoopAt (first ++ second)) moreLoops
        (morePlaces.map (behind first.length)) := by
      refine List.forall₂_map_right_iff.2 (hsecond.loops.imp fun loop place hloop => ?_)
      have hwithin := hloop.within first []
      rwa [List.append_nil] at hwithin
    exact List.rel_append hleft hright
  · intro place hplace
    rw [List.length_append]
    rcases List.mem_append.1 hplace with hplace | hplace
    · exact Nat.lt_add_right _ (hfirst.inside place hplace)
    · obtain ⟨inner, hinner, rfl⟩ := List.mem_map.1 hplace
      exact Nat.add_lt_add_left (hsecond.inside inner hinner) _
  · refine List.pairwise_append.2 ⟨hfirst.ordered, ?_, ?_⟩
    · exact List.pairwise_map.2 (hsecond.ordered.imp fun h => Nat.add_lt_add_left h _)
    · intro place hplace other hother
      obtain ⟨inner, _, rfl⟩ := List.mem_map.1 hother
      exact Nat.lt_of_lt_of_le (hfirst.inside place hplace) (Nat.le_add_right _ _)
  · intro n i remark l hline hjump
    by_cases hn : n < first.length
    · rw [List.getElem?_append_left hn] at hline
      refine (hfirst.jumps n i remark l hline hjump).imp_right ?_
      rintro ⟨k, hk, hdirection⟩
      have hklt := (List.getElem?_eq_some_iff.1 hk).1
      exact ⟨k, by rwa [List.getElem?_append_left hklt],
        hdirection.imp_right fun hmem => List.mem_append_left _ hmem⟩
    · obtain ⟨j, rfl⟩ := Nat.exists_eq_add_of_le (Nat.not_lt.1 hn)
      rw [List.getElem?_append_right (Nat.le_add_right _ _), Nat.add_sub_cancel_left] at hline
      refine (hsecond.jumps j i remark l hline hjump).imp_right ?_
      rintro ⟨k, hk, hdirection⟩
      refine ⟨first.length + k, ?_, ?_⟩
      · rwa [List.getElem?_append_right (Nat.le_add_right _ _), Nat.add_sub_cancel_left]
      · refine hdirection.imp (fun h => Nat.add_lt_add_left h _) fun hmem => ?_
        exact List.mem_append_right _ (List.mem_map.2 ⟨(k, j), hmem, rfl⟩)

/-- A label that was pending stands behind the lines. -/
theorem settle (h : f.Directed (l :: pending) loops places lines) :
    f.Directed pending loops places (lines ++ [.label l]) := by
  have hlast : f.Directed (l :: pending) [] [] [.label l] := plain (by simp)
  have hboth := h.append hlast
  rw [List.append_nil, List.map_nil, List.append_nil] at hboth
  refine ⟨hboth.loops, hboth.inside, hboth.ordered, fun n i remark target hline hjump => ?_⟩
  rcases hboth.jumps n i remark target hline hjump with hpending | hstands
  · rcases List.mem_cons.1 hpending with rfl | hpending
    · -- the jump is among the lines before the label, so it goes forwards
      have hn := (List.getElem?_eq_some_iff.1 hline).1
      rw [List.length_append, List.length_singleton] at hn
      have hne : n ≠ lines.length := by
        rintro rfl
        simp at hline
      exact .inr ⟨lines.length, by simp, .inl (by omega)⟩
    · exact .inl hpending
  · exact .inr hstands

/-- A condition and a jump if it fails. -/
theorem test (h : ∀ i ∈ code, i.jump? = none) (target : Label) :
    f.Directed [target] [] [] (codeLines (code ++ unlessTrue target)) := by
  have hcompare : ∀ i ∈ code ++ [.compareByteConst .al 1], i.jump? = none :=
    List.forall_mem_append.2 ⟨h, List.forall_mem_singleton.2 rfl⟩
  have hjump : f.Directed [target] [] [] [.of (.jumpIf .notEqual target)] := jump rfl
  have hboth := (straight hcompare).append hjump
  simpa [unlessTrue, codeLines] using hboth

/-- The lines of a loop between its start label and the jump that closes it. -/
theorem loop {stmt : Stmt} {ending : Label}
    (hcompiled : compileStmt f s stmt = .ok
      ([.label (.control f.name .whileStart s.labels)] ++ lines ++
        [.of (.jump (.control f.name .whileStart s.labels)), .label ending], s'))
    (h : f.Directed [ending] loops places lines) :
    f.Directed [] (stmt :: loops) ((0, 1 + lines.length) :: places.map (behind 1))
      ([.label (.control f.name .whileStart s.labels)] ++ lines ++
        [.of (.jump (.control f.name .whileStart s.labels)), .label ending]) := by
  generalize hstart : Label.control f.name .whileStart s.labels = start at hcompiled
  have hclose : ([.label start] ++ lines ++ [.of (.jump start), .label ending])[1 + lines.length]? =
      some (.of (.jump start)) := by
    simp [Nat.add_comm 1]
  have hstands : Stands ([.label start] ++ lines ++ [.of (.jump start), .label ending]) 0
      ([.label start] ++ lines ++ [.of (.jump start), .label ending]) := by
    have hwhole := stands_middle []
      ([.label start] ++ lines ++ [.of (.jump start), .label ending]) []
    rwa [List.append_nil] at hwhole
  have hloop : f.LoopAt ([.label start] ++ lines ++ [.of (.jump start), .label ending]) stmt
      (0, 1 + lines.length) := by
    subst hstart
    refine ⟨hcompiled, hstands, ?_, rfl, hclose, ?_⟩
    · simp only [List.length_append, List.length_cons, List.length_nil]
      omega
    · exact Nat.lt_add_right _ Nat.one_pos
  refine ⟨.cons hloop ?_, ?_, .cons ?_ ?_, ?_⟩
  · exact List.forall₂_map_right_iff.2 (h.loops.imp fun inner place hinner =>
      hinner.within [.label start] [.of (.jump start), .label ending])
  · refine List.forall_mem_cons.2 ⟨by simp, fun place hplace => ?_⟩
    obtain ⟨inner, hinner, rfl⟩ := List.mem_map.1 hplace
    have hlt := h.inside inner hinner
    simp only [behind, List.length_append, List.length_cons, List.length_nil]
    omega
  · intro place hplace
    obtain ⟨inner, _, rfl⟩ := List.mem_map.1 hplace
    exact Nat.lt_add_right _ Nat.one_pos
  · exact List.pairwise_map.2 (h.ordered.imp fun hlt => Nat.add_lt_add_left hlt _)
  · intro n i remark l hline hjump
    right
    rcases Nat.lt_trichotomy n (1 + lines.length) with hn | rfl | hn
    · cases n with
      | zero => cases hline
      | succ n =>
          have hn' : n < lines.length := by omega
          have hinner : lines[n]? = some (.instr i remark) := by
            simpa [List.getElem?_append_left hn'] using hline
          rcases h.jumps n i remark l hinner hjump with hpending | ⟨k, hk, hdirection⟩
          · -- out of the loop, behind the jump that closes it
            rw [List.mem_singleton.1 hpending]
            exact ⟨1 + lines.length + 1, by simp [Nat.add_comm 1], .inl (by omega)⟩
          · refine ⟨1 + k, getElem?_within hk, ?_⟩
            refine hdirection.imp (fun hlt => by omega) fun hmem => ?_
            rw [Nat.add_comm n 1]
            exact List.mem_cons_of_mem _ (List.mem_map.2 ⟨(k, n), hmem, rfl⟩)
    · rw [hclose] at hline
      cases hline
      cases hjump
      exact ⟨0, rfl, .inr List.mem_cons_self⟩
    · have hlast : n = 1 + lines.length + 1 := by
        have hlt := (List.getElem?_eq_some_iff.1 hline).1
        simp only [List.length_append, List.length_cons, List.length_nil] at hlt
        omega
      rw [hlast] at hline
      simp [Nat.add_comm 1] at hline

end Function.Directed

/-! ## Code without jumps -/

/-- The code of an expression has no jumps. -/
theorem ExprCode.straight {e : Expr} (h : ExprCode s e code s') : ∀ i ∈ code, i.jump? = none := by
  intro i hi
  have hkind := h.inExpression i hi
  cases i <;> first | rfl | cases hkind

/-- The beginning of a function has no jumps. -/
theorem Function.straight_prologue (f : Function) : ∀ i ∈ f.prologue, i.jump? = none := by
  unfold prologue
  split
  · split
    · simp [Instr.jump?]
    · simp [Instr.jump?]
  · exact List.forall_mem_nil _

/-- Nor has its end. -/
theorem Function.straight_epilogue (f : Function) : ∀ i ∈ f.epilogue, i.jump? = none := by
  unfold epilogue
  split <;> simp [Instr.jump?]

/-! ## Statements -/

mutual

/-- **The jumps of a statement are directed.** -/
theorem StmtCode.directed {s s' : CompileState} {stmt : Stmt} {lines : List Line} :
    StmtCode f s stmt lines s' → ∃ places, f.Directed [] stmt.loops places lines
  | .expression value => ⟨[], .straight value.straight⟩
  | .ret => ⟨[], .straight f.straight_epilogue⟩
  | .retValue value =>
      ⟨[], .straight (List.forall_mem_append.2 ⟨value.straight, f.straight_epilogue⟩)⟩
  | @StmtCode.ifThen _ _ s₁ _ _ _ _ _ _ test branch => by
      obtain ⟨places, hinner⟩ := branch.directed
      have htest := Function.Directed.test (f := f) test.straight (.control f.name .ifEnd s₁.labels)
      exact ⟨_, (htest.append (hinner.mono (List.nil_subset _))).settle⟩
  | @StmtCode.ifElse _ _ s₁ _ _ _ _ _ _ _ _ _ test branch other => by
      obtain ⟨places, hinner⟩ := branch.directed
      obtain ⟨otherPlaces, hrest⟩ := other.directed
      generalize hending : Label.control f.name .ifEnd s₁.labels = ending
      generalize hbranch : Label.control f.name .ifElse (s₁.labels + 1) = start
      have htest := Function.Directed.test (f := f) test.straight start
      have hjump : f.Directed [ending] [] [] [.of (.jump ending)] := .jump rfl
      -- the label of the branch settles the test, and the last label the jump over the branch
      have htest : f.Directed [start, ending] [] [] _ := htest.mono (by simp)
      have hskip := (htest.append (hinner.mono (List.nil_subset _))).append (hjump.mono (by simp))
      have hboth := (hskip.settle.append (hrest.mono (List.nil_subset _))).settle
      simp only [List.nil_append, List.append_nil, List.map_nil, List.append_assoc,
        List.cons_append] at hboth ⊢
      exact ⟨_, hboth⟩
  | @StmtCode.loop _ s _ _ span condition body _ _ test round => by
      have hcompiled := (@StmtCode.loop f s _ _ span condition body _ _ test round).compiles
      obtain ⟨places, hround⟩ := round.directed
      have htest := Function.Directed.test (f := f) test.straight
        (.control f.name .whileEnd (s.labels + 1))
      rw [List.append_assoc [Line.label _]] at hcompiled ⊢
      exact ⟨_, .loop hcompiled (htest.append (hround.mono (List.nil_subset _)))⟩
  | .block inner => inner.directed

/-- The same for a list of statements. -/
theorem BodyCode.directed {s s' : CompileState} {stmts : List Stmt} {lines : List Line} :
    BodyCode f s stmts lines s' → ∃ places, f.Directed [] (bodyLoops stmts) places lines
  | .nil => ⟨[], .plain (by simp)⟩
  | .cons first others => by
      obtain ⟨places, hplaces⟩ := first.directed
      obtain ⟨more, hmore⟩ := others.directed
      exact ⟨_, hplaces.append hmore⟩

end

/-! ## Programs -/

/-- The labels of control flow that stand in an assembly. -/
def Assembly.controlLabels (a : Assembly) : List Label := (labelsOf a.lines).filter Label.isControl

/-- How the lines of a function jump in an assembly, with the place of each of its loops: the
target of a jump is a label of the function's control flow, of which no other label of control
flow in the assembly has the text, and which stands on one line of the function; from there the
jump is forwards, unless it closes a loop. -/
structure Function.Jumps (f : Function) (a : Assembly) (places : List (Nat × Nat))
    (lines : List Line) : Prop where
  loops : List.Forall₂ (f.LoopAt lines) (bodyLoops f.body) places
  ordered : places.Pairwise fun place other => place.1 < other.1
  jumps : ∀ (n : Nat) (i : Instr) (remark : Option String) (l : Label),
    lines[n]? = some (.instr i remark) → i.jump? = some l →
      (∃ construct index, l = .control f.name construct index) ∧
        (a.controlLabels.map Label.text).count l.text = 1 ∧
        ∃ k, lines[k]? = some (.label l) ∧ (∀ k', lines[k']? = some (.label l) → k' = k) ∧
          (n < k ∨ (k, n) ∈ places)

variable {p : Program} {a : Assembly} {r : Routine} {literals : List String}

/-- Labels of control flow in an assembly are not written alike. -/
theorem AssemblyOf.control_texts (ha : AssemblyOf p a)
    (hdistinct : (p.functions.map Function.name).Nodup) :
    (a.controlLabels.map Label.text).Nodup := by
  refine List.pairwise_map.2 (List.pairwise_filter.2 ((ha.apart_lines hdistinct).imp ?_))
  intro l m hapart hl hm htext
  cases l with
  | control =>
      cases m with
      | control => exact hapart (congrArg (Prod.mk false) htext) rfl
      | _ => cases hm
  | _ => cases hl

/-- The jumps of the routine of a function are directed. -/
theorem RoutineOf.directed (h : RoutineOf literals f r) (hblock : f.builtin = false) :
    ∃ places, f.Directed [] (bodyLoops f.body) places r.lines := by
  cases h with
  | builtin builtin _ =>
      rw [hblock] at builtin
      cases builtin
  | @block _ body s _ _ compiled _ _ =>
      obtain ⟨places, hbody⟩ := (bodyCode_iff.1 compiled).directed
      have hending : f.Directed [] [] []
          (codeLines (if endsInReturn f.body then [] else f.epilogue)) := by
        split
        · exact .plain (by simp [codeLines])
        · exact .straight f.straight_epilogue
      have hall := ((Function.Directed.straight (f := f) f.straight_prologue).append hbody).append
        hending
      rw [List.append_nil, List.map_nil, List.append_nil] at hall
      exact ⟨_, hall⟩

/-- **Jumps stay in their function.**  In the assembly of an accepted program no two labels of
control flow have the same text.  Every jump of a function goes to a label of its own, which
stands once; it goes forwards, unless it closes a loop and goes back to the start of that
loop. -/
theorem jumps_stay {source : String} {file : Option String}
    (haccepted : frontEnd source file = .ok p) (hcompiled : p.compile = .ok a) :
    (a.controlLabels.map Label.text).Nodup ∧
      ∀ f ∈ p.functions, f.builtin = false →
        ∃ r ∈ a.routines, r.name = f.name ∧ ∃ places, f.Jumps a places r.lines := by
  have hp := frontEnd_typed haccepted
  have ha := hp.assemblyOf hcompiled
  have htexts := ha.control_texts hp.distinct
  refine ⟨htexts, fun f hf hblock => ?_⟩
  obtain ⟨r, hr, hroutine⟩ := ha.routine f hf
  obtain ⟨places, hdirected⟩ := hroutine.directed hblock
  obtain ⟨high, hnumbered⟩ := hroutine.numbered hblock
  refine ⟨r, hr, hroutine.name_eq, places, hdirected.loops, hdirected.ordered, ?_⟩
  intro n i remark l hline hjump
  rcases hdirected.jumps n i remark l hline hjump with hpending | ⟨k, hk, hdirection⟩
  · cases hpending
  have hmem : l ∈ labelsOf r.lines := List.mem_filterMap.2 ⟨_, List.mem_of_getElem? hk, rfl⟩
  obtain ⟨construct, index, rfl, _⟩ := hnumbered.each l hmem
  have hcontrol : .control f.name construct index ∈ a.controlLabels :=
    List.mem_filter.2 ⟨Assembly.mem_labelsOf hr (List.mem_cons_of_mem _ hmem), rfl⟩
  obtain ⟨only, _, honly⟩ := hnumbered.lands hmem
  have hsame : ∀ k', r.lines[k']? = some (.label (.control f.name construct index)) →
      k' = only := fun k' hk' => honly k' ⟨_, hk', Label.names_self _⟩
  refine ⟨⟨construct, index, rfl⟩, ?_, k, hk, ?_, hdirection⟩
  · rw [htexts.count, if_pos (List.mem_map_of_mem hcontrol)]
  · intro k' hk'
    rw [hsame k' hk', hsame k hk]

/-- A loop around a branch around a loop, and a function that is called like a label. -/
def nestedSource : String :=
  "void f(n: i32) \x7b while (n != 0) \x7b if (n == 1) \x7b while (n != 5) \x7b " ++
    "n = n + 1; \x7d \x7d else \x7b n = n - 1; \x7d \x7d \x7d " ++
    "void f_if_end_0() \x7b if (true) \x7b f(2); \x7d \x7d"

/-- A loop in a branch of a loop, next to a function whose name is the text of a label. -/
theorem jumps_stay_nested :
    ∃ p a, frontEnd nestedSource none = .ok p ∧
      p.compile = .ok a ∧
      a.controlLabels.map Label.text = ["f_while_start_0", "f_while_start_4", "f_while_end_5",
        "f_if_else_3", "f_if_end_2", "f_while_end_1", "f_if_end_0_if_end_0"] ∧
      (a.controlLabels.map Label.text).Nodup ∧
      ∀ f ∈ p.functions, f.builtin = false →
        ∃ r ∈ a.routines, r.name = f.name ∧ ∃ places, f.Jumps a places r.lines := by
  have hcheck : (frontEnd nestedSource none).toOption.any (fun p =>
      p.compile.toOption.any fun a =>
        a.controlLabels.map Label.text = ["f_while_start_0", "f_while_start_4", "f_while_end_5",
          "f_if_else_3", "f_if_end_2", "f_while_end_1", "f_if_end_0_if_end_0"]) = true := by
    decide +kernel
  obtain ⟨p, haccepted, hcheck⟩ := (Option.any_eq_true _ _).1 hcheck
  obtain ⟨a, hcompiled, htexts⟩ := (Option.any_eq_true _ _).1 hcheck
  have haccepted := toOption_eq_some.1 haccepted
  have hcompiled := toOption_eq_some.1 hcompiled
  obtain ⟨hdistinct, hjumps⟩ := jumps_stay haccepted hcompiled
  exact ⟨p, a, haccepted, hcompiled, of_decide_eq_true htexts, hdistinct, hjumps⟩

end Slate
