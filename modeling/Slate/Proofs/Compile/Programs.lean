import Slate.Proofs.Compile.Statements

/-!
# Typed programs compile

A well-typed program whose builtins are all called `print` has an assembly.  Every
function has its routine there (`RoutineOf`), and the assembly is unambiguous unless a
function has the name of one of the compiler's own labels (`Program.NamesApart`): the
compiler takes names as they are, and so `data_0` or `main_if_end_0`, as the name of a
function, would stand for two places.
-/

namespace Slate

variable {p : Program} {f : Function} {r other : Routine} {literals final : List String}
  {signatures : Signatures}

/-! ## Routines -/

/-- The routine is that of the function; its literals are among those given. -/
inductive RoutineOf (literals : List String) (f : Function) : Routine → Prop
  | builtin (builtin : f.builtin = true) (name : f.name = "print") :
      RoutineOf literals f ⟨f.name, printRoutine⟩
  | block {before : List String} {body : List Line} {s : CompileState}
      (block : f.builtin = false) (tracked : s.Tracks f.arguments f.locals)
      (compiled : compileStmts f (.start f before) f.body = .ok (body, s))
      (numbered : Numbered f.name 0 s.labels body) (known : s.literals <+: literals) :
      RoutineOf literals f ⟨f.name, codeLines f.prologue ++ body ++
        codeLines (if endsInReturn f.body then [] else f.epilogue)⟩

/-- A routine has the name of its function. -/
theorem RoutineOf.name_eq (h : RoutineOf literals f r) : r.name = f.name := by
  cases h <;> rfl

/-- It stays the routine of the function when more literals follow. -/
theorem RoutineOf.mono (h : RoutineOf literals f r) (hmore : literals <+: final) :
    RoutineOf final f r := by
  cases h with
  | builtin builtin name => exact .builtin builtin name
  | block block tracked compiled numbered known =>
      exact .block block tracked compiled numbered (known.trans hmore)

/-- A well-typed function has a routine. -/
theorem Function.compile_ok (hf : TypedFunction signatures f)
    (hbuiltin : f.builtin = true → f.name = "print") (literals : List String) :
    ∃ r final, f.compile literals = .ok (r, final) ∧ literals <+: final ∧ RoutineOf final f r := by
  cases hblock : f.builtin with
  | true =>
      have hname := hbuiltin hblock
      refine ⟨_, literals, ?_, List.prefix_rfl, .builtin hblock hname⟩
      unfold Function.compile
      rw [if_pos hblock, if_pos hname]
  | false =>
      have htracks : (CompileState.start f literals).Tracks f.arguments [] := ⟨rfl, rfl⟩
      obtain ⟨body, s, hcompiled, htracked, hextends, hnumbered⟩ :=
        compileStmts_ok f (hf.body hblock) (.start f literals) htracks
      refine ⟨_, s.literals, ?_, hextends.literals,
        .block hblock htracked hcompiled hnumbered List.prefix_rfl⟩
      unfold Function.compile
      rw [if_neg (by rw [hblock]; exact Bool.false_ne_true), hcompiled]
      rfl

/-- Every function has its routine, and the routines stand in the order of the
functions. -/
theorem compileFunctions_ok {fs : List Function} (hfs : ∀ f ∈ fs, TypedFunction signatures f)
    (hbuiltins : ∀ f ∈ fs, f.builtin = true → f.name = "print") :
    ∀ literals, ∃ rs final, compileFunctions literals fs = .ok (rs, final) ∧ literals <+: final ∧
      rs.map Routine.name = fs.map Function.name ∧
        (∀ f ∈ fs, ∃ r ∈ rs, RoutineOf final f r) ∧ ∀ r ∈ rs, ∃ f ∈ fs, RoutineOf final f r := by
  induction fs with
  | nil =>
      intro literals
      exact ⟨[], literals, rfl, List.prefix_rfl, rfl, List.forall_mem_nil _, List.forall_mem_nil _⟩
  | cons f fs ih =>
      intro literals
      obtain ⟨hf, hfs⟩ := List.forall_mem_cons.1 hfs
      obtain ⟨hbuiltin, hbuiltins⟩ := List.forall_mem_cons.1 hbuiltins
      obtain ⟨r, middle, hcompiled, hmiddle, hroutine⟩ := f.compile_ok hf hbuiltin literals
      obtain ⟨rs, final, hrest, hfinal, hnames, heach, hall⟩ := ih hfs hbuiltins middle
      have hroutine' := hroutine.mono hfinal
      refine ⟨r :: rs, final, ?_, hmiddle.trans hfinal, ?_, ?_, ?_⟩
      · simp [compileFunctions, hcompiled, hrest, bind, Except.bind, pure, Except.pure]
      · rw [List.map_cons, List.map_cons, hnames, hroutine.name_eq]
      · refine List.forall_mem_cons.2 ⟨⟨r, List.mem_cons_self, hroutine'⟩, ?_⟩
        intro g hg
        obtain ⟨q, hq, hqg⟩ := heach g hg
        exact ⟨q, List.mem_cons_of_mem _ hq, hqg⟩
      · refine List.forall_mem_cons.2 ⟨⟨f, List.mem_cons_self, hroutine'⟩, ?_⟩
        intro q hq
        obtain ⟨g, hg, hqg⟩ := hall q hq
        exact ⟨g, List.mem_cons_of_mem _ hg, hqg⟩

/-- What the assembly of a program consists of. -/
structure AssemblyOf (p : Program) (a : Assembly) : Prop where
  entry : a.hasEntry = p.hasMain
  names : a.routines.map Routine.name = p.functions.map Function.name
  routine : ∀ f ∈ p.functions, ∃ r ∈ a.routines, RoutineOf a.literals f r
  function : ∀ r ∈ a.routines, ∃ f ∈ p.functions, RoutineOf a.literals f r

/-- **Programs compile.** -/
theorem TypedProgram.compile_ok (hp : TypedProgram p)
    (hbuiltins : ∀ f ∈ p.functions, f.builtin = true → f.name = "print") :
    ∃ a, p.compile = .ok a ∧ AssemblyOf p a := by
  obtain ⟨rs, final, hcompiled, _, hnames, heach, hall⟩ :=
    compileFunctions_ok hp.each hbuiltins []
  refine ⟨⟨p.hasMain, rs, final⟩, ?_, rfl, hnames, heach, hall⟩
  unfold Program.compile
  rw [hcompiled]
  rfl

/-! ## Where routines stand -/

/-- A routine stands somewhere in the assembly. -/
theorem Assembly.stands_routine {a : Assembly} (hr : r ∈ a.routines) :
    ∃ n, Stands a.listing.lines n (.label (.routine r.name) :: r.lines) := by
  obtain ⟨before, after, heq⟩ := List.append_of_mem hr
  unfold Assembly.listing Assembly.lines
  rw [heq, List.flatMap_append, List.flatMap_cons, ← List.append_assoc, ← List.append_assoc]
  exact ⟨_, stands_middle _ _ _⟩

/-- The stub of the entry stands at the first line. -/
theorem Assembly.stands_entry {a : Assembly} (h : a.hasEntry = true) :
    Stands a.listing.lines 0 (.label .entry :: entryStub) := by
  unfold Assembly.listing Assembly.lines
  rw [if_pos h]
  exact stands_middle [] _ _

/-! ## Labels -/

/-- No function has the name of a label that the compiler makes up. -/
structure Program.NamesApart (p : Program) (a : Assembly) : Prop where
  entry : ∀ f ∈ p.functions, f.name ≠ Label.entry.text
  data : ∀ f ∈ p.functions, ∀ index, f.name ≠ (Label.data index).text
  control : ∀ f ∈ p.functions, ∀ function construct index,
    Label.control function construct index ∈ labelsOf a.lines →
      f.name ≠ (Label.control function construct index).text

/-- The names of labels that the compiler makes up have an underscore. -/
theorem Program.namesApart_of_plain {a : Assembly} (h : ∀ f ∈ p.functions, '_' ∉ f.name.toList) :
    p.NamesApart a := by
  refine ⟨?_, ?_, ?_⟩
  · intro f hf heq
    refine h f hf ?_
    rw [heq]
    decide
  · intro f hf index heq
    refine h f hf ?_
    rw [heq, Label.text_data]
    exact List.mem_append_right _ List.mem_cons_self
  · intro f hf function construct index _ heq
    refine h f hf ?_
    rw [heq, Label.text_control]
    exact List.mem_append_right _ List.mem_cons_self

/-- The labels of a function with a body are numbered. -/
theorem RoutineOf.numbered (h : RoutineOf literals f r) (hblock : f.builtin = false) :
    ∃ high, Numbered f.name 0 high r.lines := by
  cases h with
  | builtin builtin _ =>
      rw [hblock] at builtin
      cases builtin
  | @block _ body s block tracked compiled numbered known =>
      refine ⟨s.labels, ?_⟩
      exact (numbered.codeBefore f.prologue).append (.code _) (.inr (Nat.le_refl 0))
        ⟨Nat.le_refl _, Nat.le_refl _⟩ ⟨Nat.le_refl _, Nat.zero_le _⟩

/-- The labels within a routine. -/
theorem RoutineOf.labels (h : RoutineOf literals f r) :
    (∃ high, Numbered f.name 0 high r.lines) ∨
      (f.name = "print" ∧ labelsOf r.lines = [.inner "digit", .inner "write"]) := by
  cases hblock : f.builtin with
  | false => exact .inl (h.numbered hblock)
  | true =>
      cases h with
      | builtin builtin name => exact .inr ⟨name, rfl⟩
      | block block _ _ _ _ =>
          rw [hblock] at block
          cases block

/-- A label of a routine is its name, of its control flow, or of the print routine. -/
theorem RoutineOf.label_cases (h : RoutineOf literals f r) {l : Label}
    (hl : l ∈ Label.routine r.name :: labelsOf r.lines) :
    l = .routine f.name ∨ (∃ construct index, l = .control f.name construct index) ∨
      (f.name = "print" ∧ ∃ name, l = .inner name) := by
  rcases List.mem_cons.1 hl with rfl | hl
  · exact .inl (by rw [h.name_eq])
  · rcases h.labels with ⟨_, hnumbered⟩ | ⟨hname, hinner⟩
    · obtain ⟨construct, index, rfl, _⟩ := hnumbered.each l hl
      exact .inr (.inl ⟨construct, index, rfl⟩)
    · rw [hinner] at hl
      simp only [List.mem_cons, List.not_mem_nil, or_false] at hl
      rcases hl with rfl | rfl
      · exact .inr (.inr ⟨hname, _, rfl⟩)
      · exact .inr (.inr ⟨hname, _, rfl⟩)

/-- The labels of an assembly, routine by routine. -/
theorem Assembly.labelsOf_lines (a : Assembly) :
    labelsOf a.lines = (if a.hasEntry then [.entry] else []) ++
      a.routines.flatMap fun r => .routine r.name :: labelsOf r.lines := by
  unfold Assembly.lines
  rw [labelsOf_append]
  congr 1
  · cases a.hasEntry <;> rfl
  · unfold labelsOf
    rw [List.filterMap_flatMap]
    rfl

/-- The labels of a routine are among those of the program. -/
theorem Assembly.mem_labelsOf {a : Assembly} (hr : r ∈ a.routines) {l : Label}
    (hl : l ∈ Label.routine r.name :: labelsOf r.lines) : l ∈ labelsOf a.lines := by
  rw [a.labelsOf_lines]
  exact List.mem_append_right _ (List.mem_flatMap.2 ⟨r, hr, hl⟩)

/-- A label of an assembly is that of the entry, or belongs to a routine. -/
theorem Assembly.label_cases {a : Assembly} {l : Label} (hl : l ∈ labelsOf a.lines) :
    l = .entry ∨ ∃ r ∈ a.routines, l ∈ Label.routine r.name :: labelsOf r.lines := by
  rw [a.labelsOf_lines] at hl
  rcases List.mem_append.1 hl with hl | hl
  · cases hentry : a.hasEntry with
    | false =>
        rw [hentry] at hl
        cases hl
    | true =>
        rw [hentry] at hl
        exact .inl (List.mem_singleton.1 hl)
  · obtain ⟨r, hr, hl⟩ := List.mem_flatMap.1 hl
    exact .inr ⟨r, hr, hl⟩

/-! ## Labels that are confused -/

/-- Whether the label is the name of a function. -/
def Label.isRoutine : Label → Bool
  | .routine _ => true
  | _ => false

/-- The labels are not confused, unless one of them is the name of a function and the other
one is made up by the compiler. -/
def Label.Apart (l m : Label) : Prop :=
  l.key = m.key → l.isRoutine ≠ m.isRoutine

/-- Labels that are apart are so either way round. -/
theorem Label.Apart.symm {l m : Label} (h : l.Apart m) : m.Apart l :=
  fun heq => (h heq.symm).symm

/-- Labels that are found by different keys are not confused. -/
theorem Label.apart_of_ne {l m : Label} (h : l.key ≠ m.key) : l.Apart m :=
  fun heq => (h heq).elim

/-- The name of a function may be a label that the compiler makes up. -/
theorem Label.apart_of_madeUp {name : String} {l : Label} (h : l.isRoutine = false) :
    (Label.routine name).Apart l := by
  intro _ heq
  rw [h] at heq
  cases heq

/-- The label of the entry is apart from those of control. -/
theorem Label.apart_entry_control (f : String) (c : Construct) (i : Nat) :
    Label.entry.Apart (.control f c i) := by
  refine apart_of_ne fun heq => ?_
  have htext : Label.entry.text.toList = (Label.control f c i).text.toList :=
    congrArg (fun key => String.toList key.2) heq
  rw [text_control] at htext
  exact text_entry_ne i htext

/-- So it is from those of data. -/
theorem Label.apart_entry_data (i : Nat) : Label.entry.Apart (.data i) := by
  refine apart_of_ne fun heq => ?_
  have htext : Label.entry.text.toList = (Label.data i).text.toList :=
    congrArg (fun key => String.toList key.2) heq
  rw [text_data] at htext
  exact text_entry_ne i htext

section

variable {a : Assembly} (ha : AssemblyOf p a)
include ha

/-- Labels of different routines are not confused. -/
theorem AssemblyOf.apart_between (hr : r ∈ a.routines) (hother : other ∈ a.routines)
    (hne : r.name ≠ other.name) {l m : Label} (hl : l ∈ Label.routine r.name :: labelsOf r.lines)
    (hm : m ∈ Label.routine other.name :: labelsOf other.lines) : l.Apart m := by
  obtain ⟨f, hf, hroutine⟩ := ha.function r hr
  obtain ⟨g, hg, hroutine'⟩ := ha.function other hother
  rw [hroutine.name_eq, hroutine'.name_eq] at hne
  rcases hroutine.label_cases hl with rfl | ⟨c, i, rfl⟩ | ⟨hprint, name, rfl⟩
  · rcases hroutine'.label_cases hm with rfl | ⟨d, j, rfl⟩ | ⟨hprint', name', rfl⟩
    · exact Label.apart_of_ne fun heq => hne (congrArg Prod.snd heq)
    · exact Label.apart_of_madeUp rfl
    · exact Label.apart_of_madeUp rfl
  · rcases hroutine'.label_cases hm with rfl | ⟨d, j, rfl⟩ | ⟨hprint', name', rfl⟩
    · exact (Label.apart_of_madeUp rfl).symm
    · exact Label.apart_of_ne fun heq => hne (Label.key_control heq).1
    · exact Label.apart_of_ne (by simp [Label.key])
  · rcases hroutine'.label_cases hm with rfl | ⟨d, j, rfl⟩ | ⟨hprint', name', rfl⟩
    · exact (Label.apart_of_madeUp rfl).symm
    · exact Label.apart_of_ne (by simp [Label.key])
    · exact (hne (hprint.trans hprint'.symm)).elim

/-- Labels of one routine are not confused. -/
theorem AssemblyOf.apart_within (hr : r ∈ a.routines) :
    (Label.routine r.name :: labelsOf r.lines).Pairwise Label.Apart := by
  obtain ⟨f, hf, hroutine⟩ := ha.function r hr
  rcases hroutine.labels with ⟨_, hnumbered⟩ | ⟨_, hinner⟩
  · refine .cons ?_ (hnumbered.distinct.imp_of_mem ?_)
    · intro l hl
      obtain ⟨c, i, rfl, _⟩ := hnumbered.each l hl
      exact Label.apart_of_madeUp rfl
    · intro l m hl hm hne
      obtain ⟨c, i, rfl, _⟩ := hnumbered.each l hl
      obtain ⟨d, j, rfl, _⟩ := hnumbered.each m hm
      refine Label.apart_of_ne fun heq => ?_
      obtain ⟨_, rfl, rfl⟩ := Label.key_control heq
      exact hne rfl
  · rw [hinner]
    refine .cons ?_ (.cons ?_ (.cons (List.forall_mem_nil _) .nil))
    · intro l hl
      simp only [List.mem_cons, List.not_mem_nil, or_false] at hl
      rcases hl with rfl | rfl <;> exact Label.apart_of_madeUp rfl
    · exact List.forall_mem_singleton.2 (Label.apart_of_ne (by decide))

/-- The entry label is not confused with one of a routine. -/
theorem AssemblyOf.apart_entry (hr : r ∈ a.routines) {l : Label}
    (hl : l ∈ Label.routine r.name :: labelsOf r.lines) : Label.entry.Apart l := by
  obtain ⟨f, hf, hroutine⟩ := ha.function r hr
  rcases hroutine.label_cases hl with rfl | ⟨c, i, rfl⟩ | ⟨_, name, rfl⟩
  · exact (Label.apart_of_madeUp rfl).symm
  · exact Label.apart_entry_control _ _ _
  · exact Label.apart_of_ne (by simp [Label.key])

/-- The label of a data line is not confused with one of a line. -/
theorem AssemblyOf.apart_data {l : Label} (hl : l ∈ labelsOf a.lines) (i : Nat) :
    l.Apart (.data i) := by
  rcases Assembly.label_cases hl with rfl | ⟨r, hr, hl⟩
  · exact Label.apart_entry_data i
  · obtain ⟨f, hf, hroutine⟩ := ha.function r hr
    rcases hroutine.label_cases hl with rfl | ⟨c, j, rfl⟩ | ⟨_, name, rfl⟩
    · exact Label.apart_of_madeUp rfl
    · exact Label.apart_of_ne (Label.key_control_ne_data _ _ _ _)
    · exact Label.apart_of_ne (by simp [Label.key])

/-- **Labels of one kind are not confused.**  Only the name of a function and a label that the
compiler makes up can be. -/
theorem AssemblyOf.apart_lines (hdistinct : (p.functions.map Function.name).Nodup) :
    (labelsOf a.lines).Pairwise Label.Apart := by
  have hrNodup : a.routines.Pairwise fun r other => r.name ≠ other.name := by
    rw [← List.pairwise_map]
    show (a.routines.map Routine.name).Nodup
    rw [ha.names]
    exact hdistinct
  rw [a.labelsOf_lines, List.pairwise_append, List.pairwise_flatMap]
  refine ⟨?_, ⟨fun r hr => ha.apart_within hr, ?_⟩, ?_⟩
  · cases a.hasEntry
    · exact .nil
    · exact .cons (List.forall_mem_nil _) .nil
  · refine hrNodup.imp_of_mem ?_
    intro r other hr hother hne l hl m hm
    exact ha.apart_between hr hother hne hl hm
  · intro l hl m hm
    obtain ⟨r, hr, hm⟩ := List.mem_flatMap.1 hm
    cases hentry : a.hasEntry with
    | false =>
        rw [hentry] at hl
        cases hl
    | true =>
        rw [hentry] at hl
        rw [List.mem_singleton.1 hl]
        exact ha.apart_entry hr hm

/-- The name of a routine is that of a function. -/
theorem AssemblyOf.exists_function {name : String} (hl : .routine name ∈ labelsOf a.lines) :
    ∃ f ∈ p.functions, f.name = name := by
  rcases Assembly.label_cases hl with heq | ⟨r, hr, hl⟩
  · cases heq
  · obtain ⟨f, hf, hroutine⟩ := ha.function r hr
    rcases hroutine.label_cases hl with heq | ⟨_, _, heq⟩ | ⟨_, _, heq⟩
    · cases heq
      exact ⟨f, hf, rfl⟩
    · cases heq
    · cases heq

/-- When the names are apart, no label is confused with another one of the same lines. -/
theorem AssemblyOf.key_ne_routine (hnames : p.NamesApart a) {name : String} {m : Label}
    (hl : .routine name ∈ labelsOf a.lines) (hm : m ∈ labelsOf a.lines)
    (hmadeUp : m.isRoutine = false) : (Label.routine name).key ≠ m.key := by
  obtain ⟨f, hf, rfl⟩ := ha.exists_function hl
  intro heq
  cases m with
  | entry => exact hnames.entry f hf (congrArg Prod.snd heq)
  | routine => cases hmadeUp
  | control function construct index =>
      exact hnames.control f hf _ _ _ hm (congrArg Prod.snd heq)
  | data index => exact hnames.data f hf index (congrArg Prod.snd heq)
  | inner name => simp [Label.key] at heq

/-- **Nothing is confused.**  Every label leads to the one place where it stands, if the names
of functions are apart from the labels that the compiler makes up. -/
theorem AssemblyOf.unambiguous (hnames : p.NamesApart a)
    (hdistinct : (p.functions.map Function.name).Nodup) : a.listing.Unambiguous := by
  refine ⟨?_, ?_⟩
  · show ((labelsOf a.lines).map Label.key).Pairwise (· ≠ ·)
    rw [List.pairwise_map]
    refine (ha.apart_lines hdistinct).imp_of_mem fun {l m} hl hm hapart heq => ?_
    have hmixed := hapart heq
    cases l with
    | routine name =>
        exact ha.key_ne_routine hnames hl hm (Bool.eq_false_iff.2 (Ne.symm hmixed)) heq
    | _ =>
        cases m with
        | routine name => exact ha.key_ne_routine hnames hm hl rfl heq.symm
        | _ => exact hmixed rfl
  · intro l hl i heq
    cases l with
    | routine name =>
        obtain ⟨f, hf, rfl⟩ := ha.exists_function hl
        exact hnames.data f hf i (congrArg Prod.snd heq)
    | _ => exact ha.apart_data hl i heq rfl

end

end Slate
