import Slate.Proofs.Compile.Programs

/-!
# Which accepted programs do not compile

The compiler has five complaints about a program tree.  Four of them speak of trees that
the checker has not seen: a name without an offset, an expression without a type, a cast
that does not read a place, a system call with too many arguments.  In a well-typed program
every declaration is compiled before the uses that the typing judgment has behind it, every
expression has its type noted, and casts stand over references only; so what is left is the
fifth, a builtin that has no routine.

Functions are compiled in the order of their definitions, and all those before the first
builtin without a routine do compile.  So it is this builtin that is named.
-/

namespace Slate

variable {p : Program} {f : Function} {signatures : Signatures}

/-- The function is a builtin for which there is no routine. -/
def Function.lacksRoutine (f : Function) : Bool :=
  f.builtin && f.name ≠ "print"

/-- A function has a routine unless it is a builtin with another name. -/
theorem Function.lacksRoutine_eq_false :
    f.lacksRoutine = false ↔ (f.builtin = true → f.name = "print") := by
  cases hbuiltin : f.builtin <;> simp [lacksRoutine, hbuiltin]

theorem Function.compile_of_lacksRoutine (h : f.lacksRoutine = true) (literals : List String) :
    f.compile literals = .error (.unknownBuiltin f.name) := by
  obtain ⟨hbuiltin, hname⟩ : f.builtin = true ∧ f.name ≠ "print" := by
    simpa [lacksRoutine] using h
  unfold Function.compile
  rw [if_pos hbuiltin, if_neg hname]

/-- Well-typed functions compile up to the first one that lacks a routine. -/
theorem compileFunctions_of_lacksRoutine {fs : List Function}
    (hfs : ∀ g ∈ fs, TypedFunction signatures g) (h : fs.find? Function.lacksRoutine = some f) :
    ∀ literals, compileFunctions literals fs = .error (.unknownBuiltin f.name) := by
  induction fs with
  | nil => cases h
  | cons g fs ih =>
      intro literals
      obtain ⟨hg, hrest⟩ := List.forall_mem_cons.1 hfs
      cases hlacks : g.lacksRoutine with
      | true =>
          rw [List.find?_cons_of_pos hlacks] at h
          cases h
          simp [compileFunctions, f.compile_of_lacksRoutine hlacks, bind, Except.bind]
      | false =>
          rw [List.find?_cons_of_neg (by rw [hlacks]; exact Bool.false_ne_true)] at h
          obtain ⟨r, middle, hcompiled, _, _⟩ :=
            g.compile_ok hg (Function.lacksRoutine_eq_false.1 hlacks) literals
          simp [compileFunctions, hcompiled, ih hrest h middle, bind, Except.bind]

namespace TypedProgram

/-- A well-typed program has an assembly if none of its builtins lacks a routine. -/
theorem assemblyText_ok (hp : TypedProgram p)
    (h : p.functions.find? Function.lacksRoutine = none) :
    ∃ text, p.assemblyText = .ok text := by
  have hbuiltins : ∀ f ∈ p.functions, f.builtin = true → f.name = "print" := by
    intro f hf
    have hlacks := List.find?_eq_none.1 h f hf
    exact Function.lacksRoutine_eq_false.1 (Bool.eq_false_iff.2 hlacks)
  obtain ⟨a, hcompiled, _⟩ := hp.compile_ok hbuiltins
  exact ⟨a.text, Program.assemblyText_of_compile hcompiled⟩

/-- Otherwise the first of these is named. -/
theorem assemblyText_error (hp : TypedProgram p)
    (h : p.functions.find? Function.lacksRoutine = some f) :
    p.assemblyText = .error (.unknownBuiltin f.name) := by
  unfold Program.assemblyText Program.compile
  rw [compileFunctions_of_lacksRoutine hp.each h []]
  rfl

/-- In a program that has an assembly, every builtin is called `print`. -/
theorem name_of_builtin (hp : TypedProgram p) {text : String}
    (hcompiled : p.assemblyText = .ok text) (hf : f ∈ p.functions) (hbuiltin : f.builtin = true) :
    f.name = "print" := by
  refine Function.lacksRoutine_eq_false.1 (Bool.eq_false_iff.2 fun hlacks => ?_) hbuiltin
  cases hfind : p.functions.find? Function.lacksRoutine with
  | none => exact List.find?_eq_none.1 hfind f hf hlacks
  | some g =>
      rw [hp.assemblyText_error hfind] at hcompiled
      cases hcompiled

end TypedProgram

/-- **Internal errors are not met.**  An accepted program compiles exactly if each of its
builtins is called `print`.  If one is not, the first of these, in the order of the
definitions, is what the compiler complains of; and it complains of nothing else. -/
theorem accepted_compiles_iff {source : String} {file : Option String}
    (haccepted : frontEnd source file = .ok p) :
    ((∃ text, p.assemblyText = .ok text) ↔
      ∀ f ∈ p.functions, f.builtin = true → f.name = "print") ∧
    (∀ f, p.functions.find? Function.lacksRoutine = some f →
      p.assemblyText = .error (.unknownBuiltin f.name)) ∧
    ∀ e, p.assemblyText = .error e →
      ∃ f, p.functions.find? Function.lacksRoutine = some f ∧ e = .unknownBuiltin f.name := by
  have hp := frontEnd_typed haccepted
  refine ⟨⟨?_, ?_⟩, fun f => hp.assemblyText_error, ?_⟩
  · intro hcompiles f hf
    obtain ⟨text, htext⟩ := hcompiles
    cases hfind : p.functions.find? Function.lacksRoutine with
    | none =>
        have hlacks := List.find?_eq_none.1 hfind f hf
        exact Function.lacksRoutine_eq_false.1 (Bool.eq_false_iff.2 hlacks)
    | some g =>
        rw [hp.assemblyText_error hfind] at htext
        cases htext
  · intro hbuiltins
    refine hp.assemblyText_ok (List.find?_eq_none.2 fun f hf => ?_)
    rw [Function.lacksRoutine_eq_false.2 (hbuiltins f hf)]
    exact Bool.false_ne_true
  · intro e he
    cases hfind : p.functions.find? Function.lacksRoutine with
    | none =>
        obtain ⟨text, htext⟩ := hp.assemblyText_ok hfind
        rw [htext] at he
        cases he
    | some f =>
        rw [hp.assemblyText_error hfind] at he
        cases he
        exact ⟨f, rfl, rfl⟩

/-- A program with two builtins that there is no routine for. -/
def beepingSource : String :=
  "builtin void print(x: i32); " ++
    "i32 main() { var n: i32 = 2; print(n); beep(); return n; } " ++
    "builtin void beep(); builtin i32 random();"

/-- A program that calls `print` and, in vain, two builtins of its own. -/
theorem accepted_compiles_iff_beep :
    ∃ p, frontEnd beepingSource none = .ok p ∧
      p.assemblyText = .error (.unknownBuiltin "beep") ∧
      ¬ ∀ f ∈ p.functions, f.builtin = true → f.name = "print" := by
  have hcheck : (frontEnd beepingSource none).toOption.any (fun p =>
          (p.functions.find? Function.lacksRoutine).any fun f => f.name = "beep") = true := by
    decide +kernel
  obtain ⟨p, haccepted, hcheck⟩ := (Option.any_eq_true _ _).1 hcheck
  have haccepted := toOption_eq_some.1 haccepted
  obtain ⟨f, hfind, hname⟩ := (Option.any_eq_true _ _).1 hcheck
  obtain ⟨hcompiles, hfirst, _⟩ := accepted_compiles_iff haccepted
  have herror := hfirst f hfind
  rw [of_decide_eq_true hname] at herror
  refine ⟨p, haccepted, herror, fun hbuiltins => ?_⟩
  obtain ⟨text, htext⟩ := hcompiles.2 hbuiltins
  rw [herror] at htext
  cases htext

end Slate
