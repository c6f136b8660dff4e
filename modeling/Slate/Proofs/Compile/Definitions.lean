import Slate.Proofs.Compile.Refused
import Slate.Proofs.Compile.Referenced

/-!
# How often labels are defined

An assembler knows one space of names.  The names of functions are in it as they are written
in the program, and so are the labels that the compiler makes up: `_start` in front of the
entry stub, one label for every data line, and two for every conditional and every loop.  The
latter never clash among themselves, and neither do the former.  So a name can be defined
twice at most, and it is exactly if a function has the name of a label that was made up
(`label_definitions`).  Every label that code refers to is defined at least once.

Nothing keeps a program from having such names; a program without underscores in its names
has none (`Program.namesApart_of_plain`).
-/

namespace Slate

variable {p : Program} {f : Function} {a : Assembly} {l m : Label}

/-- What a label reads that the compiler makes up; those of functions are not made up, and
those that belong to their routine are found in it only. -/
def Label.madeUp? : Label → Option String
  | .routine _ | .inner _ => none
  | l => some l.text

/-- The names that the compiler makes up for an assembly. -/
def Assembly.madeUp (a : Assembly) : List String := a.labels.filterMap Label.madeUp?

/-- How many lines of an assembly, of code or data, are found under a label. -/
def Assembly.definitions (a : Assembly) (l : Label) : Nat := a.labels.countP l.names

/-! ## Labels that are found under a label -/

theorem Label.names_self (l : Label) : l.names l = true :=
  Label.names_iff.2 rfl

/-- A label is found under the name of a function, and is not that of one, if it reads like
the name and is made up. -/
theorem Label.madeUp?_eq_some {name : String} :
    m.madeUp? = some name ↔ m.isRoutine = false ∧ (Label.routine name).names m = true := by
  cases m with
  | routine other => simp [madeUp?, isRoutine]
  | inner other => simp [madeUp?, names]
  | _ =>
      simp only [madeUp?, isRoutine, names, Option.some.injEq, true_and, decide_eq_true_eq]
      exact eq_comm

/-- A name that is made up is what its label reads. -/
theorem Label.text_of_madeUp? {name : String} (h : m.madeUp? = some name) : name = m.text := by
  cases m <;> cases h <;> rfl

/-- If only one of the members can have a property, it is counted once or not at all. -/
theorem countP_of_pairwise {α : Type} {P : α → Bool} {xs : List α}
    (h : xs.Pairwise fun x y => ¬ (P x = true ∧ P y = true)) :
    xs.countP P = if xs.any P = true then 1 else 0 := by
  induction xs with
  | nil => rfl
  | cons x xs ih =>
      obtain ⟨hfirst, hrest⟩ := List.pairwise_cons.1 h
      by_cases hx : P x = true
      · have hnone : xs.countP P = 0 :=
          List.countP_eq_zero.2 fun y hy hP => hfirst y hy ⟨hx, hP⟩
        simp [hx, hnone]
      · simp [hx, ih hrest]

/-- Of labels that are not confused at most one of each kind is found under a label. -/
theorem countP_names {labels : List Label} (h : labels.Pairwise Label.Apart) (l : Label) :
    labels.countP l.names =
      (if labels.any (fun m => l.names m && m.isRoutine) = true then 1 else 0) +
        if labels.any (fun m => l.names m && !m.isRoutine) = true then 1 else 0 := by
  have hkind : ∀ {m n : Label}, m.Apart n → l.names m = true → l.names n = true →
      m.isRoutine ≠ n.isRoutine := fun hapart hm hn =>
    hapart ((Label.names_iff.1 hm).symm.trans (Label.names_iff.1 hn))
  rw [List.countP_eq_countP_filter_add labels l.names Label.isRoutine, List.countP_filter,
    List.countP_filter]
  congr 1
  · refine countP_of_pairwise (h.imp fun {m n} hapart hboth => ?_)
    simp only [Bool.and_eq_true] at hboth
    obtain ⟨⟨hm, hm'⟩, hn, hn'⟩ := hboth
    exact hkind hapart hm hn (hm'.trans hn'.symm)
  · refine countP_of_pairwise (h.imp fun {m n} hapart hboth => ?_)
    simp only [Bool.and_eq_true, Bool.not_eq_true'] at hboth
    obtain ⟨⟨hm, hm'⟩, hn, hn'⟩ := hboth
    exact hkind hapart hm hn (hm'.trans hn'.symm)

/-! ## Labels of an assembly -/

/-- What a program compiles to is its assembly. -/
theorem TypedProgram.assemblyOf (hp : TypedProgram p) (hcompiled : p.compile = .ok a) :
    AssemblyOf p a := by
  have htext := Program.assemblyText_of_compile hcompiled
  obtain ⟨b, hb, hassembly⟩ := hp.compile_ok fun f hf hbuiltin =>
    hp.name_of_builtin htext hf hbuiltin
  rw [hcompiled] at hb
  cases hb
  exact hassembly

/-- A label of a function among those of an assembly is that of a function of the program. -/
theorem AssemblyOf.exists_routine (ha : AssemblyOf p a) (hl : l ∈ a.labels)
    (hroutine : l.isRoutine = true) : ∃ f ∈ p.functions, l = .routine f.name := by
  rcases List.mem_append.1 hl with hl | hl
  · cases l with
    | routine name =>
        obtain ⟨f, hf, rfl⟩ := ha.exists_function hl
        exact ⟨f, hf, rfl⟩
    | _ => cases hroutine
  · obtain ⟨i, _, rfl⟩ := List.mem_map.1 hl
    cases hroutine

section

variable (ha : AssemblyOf p a) (hdistinct : (p.functions.map Function.name).Nodup)
include ha hdistinct

/-- Only names of functions and labels that are made up can be confused. -/
theorem AssemblyOf.apart : a.labels.Pairwise Label.Apart := by
  refine List.pairwise_append.2 ⟨ha.apart_lines hdistinct, ?_, ?_⟩
  · refine List.pairwise_map.2 (List.nodup_range.imp fun hne => ?_)
    exact Label.apart_of_ne fun heq => hne (Label.key_data heq)
  · intro l hl m hm
    obtain ⟨i, _, rfl⟩ := List.mem_map.1 hm
    exact ha.apart_data hl i

/-- The name of a function is defined once, or twice if it is made up as well. -/
theorem AssemblyOf.definitions_routine (hf : f ∈ p.functions) :
    a.definitions (.routine f.name) = if f.name ∈ a.madeUp then 2 else 1 := by
  have hroutine : a.labels.any (fun m => (Label.routine f.name).names m && m.isRoutine) = true :=
    List.any_eq_true.2 ⟨.routine f.name, ha.routine_mem hf, by simp [Label.names_self,
      Label.isRoutine]⟩
  have hmadeUp : a.labels.any (fun m => (Label.routine f.name).names m && !m.isRoutine) = true ↔
      f.name ∈ a.madeUp := by
    unfold Assembly.madeUp
    simp only [List.any_eq_true, List.mem_filterMap, Label.madeUp?_eq_some, Bool.and_eq_true,
      Bool.not_eq_true', and_comm]
  unfold Assembly.definitions
  rw [countP_names (ha.apart hdistinct), if_pos hroutine]
  by_cases h : f.name ∈ a.madeUp
  · rw [if_pos h, if_pos (hmadeUp.2 h)]
  · rw [if_neg h, if_neg (mt hmadeUp.1 h)]

/-- Another label is defined once, or twice if it is the name of a function. -/
theorem AssemblyOf.definitions_madeUp (hl : l ∈ a.labels) (hmadeUp : l.isRoutine = false) :
    a.definitions l = 1 ∨
      a.definitions l = 2 ∧ ∃ f ∈ p.functions, f.name = l.text ∧ f.name ∈ a.madeUp := by
  have hself : a.labels.any (fun m => l.names m && !m.isRoutine) = true :=
    List.any_eq_true.2 ⟨l, hl, by simp [Label.names_self, hmadeUp]⟩
  unfold Assembly.definitions
  rw [countP_names (ha.apart hdistinct), if_pos hself]
  by_cases hroutine : a.labels.any (fun m => l.names m && m.isRoutine) = true
  · rw [if_pos hroutine]
    refine .inr ⟨rfl, ?_⟩
    obtain ⟨m, hm, hfound⟩ := List.any_eq_true.1 hroutine
    rw [Bool.and_eq_true] at hfound
    obtain ⟨f, hf, rfl⟩ := ha.exists_routine hm hfound.2
    have hfound : (Label.routine f.name).names l = true :=
      Label.names_iff.2 (Label.names_iff.1 hfound.1).symm
    have hmade : l.madeUp? = some f.name := Label.madeUp?_eq_some.2 ⟨hmadeUp, hfound⟩
    exact ⟨f, hf, Label.text_of_madeUp? hmade, List.mem_filterMap.2 ⟨l, hl, hmade⟩⟩
  · rw [if_neg hroutine]
    exact .inl rfl

end

/-- **How often labels are defined.**  In the assembly of an accepted program, the name of a
function is defined once, or twice exactly if the compiler makes it up as well; and every label
that an instruction refers to is defined once, or twice if it is such a name. -/
theorem label_definitions {source : String} {file : Option String}
    (haccepted : frontEnd source file = .ok p) (hcompiled : p.compile = .ok a) :
    (∀ f ∈ p.functions,
      a.definitions (.routine f.name) = if f.name ∈ a.madeUp then 2 else 1) ∧
    ∀ l ∈ referencesOf a.lines, a.definitions l = 1 ∨
      a.definitions l = 2 ∧ ∃ f ∈ p.functions, f.name = l.text ∧ f.name ∈ a.madeUp := by
  have hp := frontEnd_typed haccepted
  have ha := hp.assemblyOf hcompiled
  refine ⟨fun f hf => ha.definitions_routine hp.distinct hf, fun l hl => ?_⟩
  have hmem := ha.referenced_mem hp l hl
  by_cases hroutine : l.isRoutine = true
  · obtain ⟨f, hf, rfl⟩ := ha.exists_routine hmem hroutine
    rw [ha.definitions_routine hp.distinct hf]
    by_cases hmadeUp : f.name ∈ a.madeUp
    · exact .inr ⟨if_pos hmadeUp, f, hf, rfl, hmadeUp⟩
    · exact .inl (if_neg hmadeUp)
  · exact ha.definitions_madeUp hp.distinct hmem (Bool.eq_false_iff.2 hroutine)

/-- A loop that calls, and branches with literals. -/
def greetingSource : String :=
  "i32 main() { var n: i32 = 2; while (n != 0) { n = n - greet(n == 1); } return n; } " ++
    "i32 greet(last: bool) \x7b if (last == true) \x7b syscall(4, 1, \"bye\", 3); \x7d " ++
    "else \x7b syscall(4, 1, \"hello\", 5); \x7d return 1; \x7d"

/-- The labels of a program with a loop, a conditional, a call and two literals. -/
theorem label_definitions_greeting :
    ∃ p a, frontEnd greetingSource none = .ok p ∧ p.compile = .ok a ∧
      (∀ f ∈ p.functions, a.definitions (.routine f.name) = if f.name ∈ a.madeUp then 2 else 1) ∧
      (referencesOf a.lines).length = 8 := by
  have hcheck : (frontEnd greetingSource none).toOption.any (fun p =>
        p.compile.toOption.any fun a =>
          decide ((referencesOf a.lines).length = 8)) = true := by
    decide +kernel
  obtain ⟨p, haccepted, hcheck⟩ := (Option.any_eq_true _ _).1 hcheck
  obtain ⟨a, hcompiled, hcheck⟩ := (Option.any_eq_true _ _).1 hcheck
  have haccepted := toOption_eq_some.1 haccepted
  have hcompiled := toOption_eq_some.1 hcompiled
  exact ⟨p, a, haccepted, hcompiled, (label_definitions haccepted hcompiled).1,
    of_decide_eq_true hcheck⟩

/-- Functions that are called as the compiler calls its own labels. -/
def clashingSource : String :=
  "void _start() {} void data_0() {} void main_if_end_0() {} " ++
    "i32 main() \x7b if (true) \x7b syscall(4, 1, \"x\", 1); \x7d return 0; \x7d"

/-- Functions can have the names of the entry stub, of a data line and of a conditional. -/
theorem accepted_and_defined_twice :
    ∃ p a, frontEnd clashingSource none = .ok p ∧ p.compile = .ok a ∧
      ∀ name ∈ ["_start", "data_0", "main_if_end_0"], (p.function? name).isSome = true ∧
        a.definitions (.routine name) = 2 := by
  have hcheck : (frontEnd clashingSource none).toOption.any (fun p =>
        p.compile.toOption.any fun a =>
          ["_start", "data_0", "main_if_end_0"].all fun name =>
            (p.function? name).isSome && decide (a.definitions (.routine name) = 2)) = true := by
    decide +kernel
  obtain ⟨p, haccepted, hcheck⟩ := (Option.any_eq_true _ _).1 hcheck
  obtain ⟨a, hcompiled, hcheck⟩ := (Option.any_eq_true _ _).1 hcheck
  refine ⟨p, a, toOption_eq_some.1 haccepted, toOption_eq_some.1 hcompiled, fun name hname => ?_⟩
  simpa using List.all_eq_true.1 hcheck name hname

end Slate
