import Slate.Proofs.Compile.Refused
import Slate.Proofs.Eval.Passes

/-!
# What builtins promise

A builtin may be declared with any arguments and any result.  The compiler has a routine for
every builtin called `print`, whatever its declaration; the evaluator prints if it is given
one value, and returns nothing.  So there are two ways in which a declaration can promise too
much: a number of arguments with which `print` is unknown, and a result.

A program keeps its contracts when neither can be noticed: what functions return is of the
kind that they are declared to return, and no builtin is unknown.  `builtins_kept_iff` says
that among the programs that compile these are the ones in which `print` is declared with
one argument, of whatever type, and as returning nothing.
-/

namespace Slate

variable {σ : Type} {p : Program} {f b : Function}

/-! ## Calls of builtins -/

/-- Some builtin is declared to return something. -/
def Program.Promises (p : Program) : Prop :=
  ∃ b ∈ p.functions, b.builtin = true ∧ b.result ≠ .void

/-- If a builtin is unknown in the program, this is for its name or its number of arguments. -/
def Program.Blames (p : Program) (e : EvalError) : Prop :=
  ∀ name, e = .unknownBuiltin name → ∃ b ∈ p.functions, b.builtin = true ∧ b.name = name ∧
    ¬ (b.name = "print" ∧ b.arguments.length = 1)

/-- A declared builtin is called under its name when the number of arguments is right. -/
theorem Setting.call_builtin (setting : Setting σ) (hp : TypedProgram setting.program)
    (hb : b ∈ setting.program.functions) (hbuiltin : b.builtin = true) {args : List Value}
    (hlength : b.arguments.length = args.length) :
    setting.call b.name args = callBuiltin setting.host b args := by
  unfold Setting.call Setting.dispatch
  rw [if_neg (hp.free b hb), hp.function?_of_mem hb]
  dsimp only
  rw [if_neg (not_not_intro hlength), if_pos hbuiltin]

/-- A builtin is unknown with any other number of values than one. -/
theorem callBuiltin_of_length {host : Host σ} {args : List Value} (h : args.length ≠ 1) :
    callBuiltin host b args = Run.fail (.unknownBuiltin b.name) := by
  unfold callBuiltin
  split
  · exact (h rfl).elim
  · rfl

/-- With one value, `print` writes it. -/
theorem callBuiltin_print {host : Host σ} {value : Value} (h : b.name = "print") :
    callBuiltin host b [value] = (do
      host.print (value.text ++ "\n").toUTF8
      pure .void) := by
  unfold callBuiltin
  exact if_pos h

/-- Programs may complain of their builtins, and of operators if a builtin has promised a
result. -/
theorem Setting.permits_blames (setting : Setting σ) (hp : TypedProgram setting.program) :
    setting.Permits setting.program.Promises setting.program.Blames where
  missing := fun _ _ h => nomatch h
  operands := by
    rintro _ e he name rfl
    exact he.elim
  noReturn := fun _ _ h => nomatch h
  callDepth := fun _ h => nomatch h
  syscall := by
    rintro e he name rfl
    exact he.elim
  builtin := by
    intro b hb hbuiltin args hargs
    refine (meets_builtin b args).mono ?_ ?_
    · rintro v rfl
      by_cases hvoid : b.result = .void
      · rw [hvoid]
        exact Value.Fits.passes ⟨rfl, .void⟩
      · have hpromises : setting.program.Promises := ⟨b, hb, hbuiltin, hvoid⟩
        exact ⟨(hp.each b hb).value, .inl hpromises, .inr ⟨hpromises, rfl⟩⟩
    · rintro e (⟨message, rfl⟩ | ⟨rfl, hother⟩)
      · exact fun _ h => nomatch h
      · have hlength : args.length = b.arguments.length := by
          rw [hargs.length_eq]
          exact List.length_map Var.type
        rintro name ⟨⟩
        exact ⟨b, hb, hbuiltin, rfl, hlength ▸ hother⟩

/-- A call ends with data of the declared kind, or with nothing in a program of which some
builtin has promised a result; and a builtin is unknown only for its declaration. -/
theorem call_blames (setting : Setting σ) (hp : TypedProgram setting.program)
    (hf : f ∈ setting.program.functions) {args : List Value}
    (hargs : ValuesFit args (f.arguments.map Var.type)) :
    (setting.call f.name args).Meets
      (fun v => v.data.Fits f.result ∨ setting.program.Promises ∧ v.data = .void)
      setting.program.Blames :=
  (call_passes (setting.permits_blames hp) hp hf hargs.pass).imp fun _ hv => hv.data

/-! ## Contracts -/

/-- The functions of the program answer with what they are declared to return, and no builtin
is unknown. -/
def Program.KeepsContracts (p : Program) : Prop :=
  ∀ (σ : Type) (host : Host σ) (rounds : Nat), ∀ f ∈ p.functions, ∀ args,
    ValuesFit args (f.arguments.map Var.type) →
      ((Setting.mk p host rounds).call f.name args).Meets (fun v => v.data.Fits f.result)
        fun e => ∀ name, e ≠ .unknownBuiltin name

/-- There are values for arguments of types that variables can have. -/
theorem exists_valuesFit {vs : List Var}
    (h : ∀ v ∈ vs, v.type.isStorable = true ∧ v.type.isReference = false) :
    ∃ args, ValuesFit args (vs.map Var.type) := by
  induction vs with
  | nil => exact ⟨[], .nil⟩
  | cons v vs ih =>
      obtain ⟨hv, hvs⟩ := List.forall_mem_cons.1 h
      obtain ⟨args, hargs⟩ := ih hvs
      exact ⟨.zero v.type :: args, .cons (Value.zero_fits hv.1 hv.2) hargs⟩

/-- A builtin of a program that keeps its contracts is declared with one argument and without
a result. -/
theorem Program.KeepsContracts.builtin (h : p.KeepsContracts) (hp : TypedProgram p)
    (hb : b ∈ p.functions) (hbuiltin : b.builtin = true) (hname : b.name = "print") :
    b.arguments.length = 1 ∧ b.result = .void := by
  obtain ⟨args, hargs⟩ := exists_valuesFit (hp.each b hb).storable
  have hlength : b.arguments.length = args.length := by
    rw [hargs.length_eq]
    exact (List.length_map Var.type).symm
  have hmeets := h ByteArray (.ofSink .collect) 0 b hb args hargs
  rw [Setting.call_builtin ⟨p, .ofSink .collect, 0⟩ hp hb hbuiltin hlength] at hmeets
  by_cases hsingle : args.length = 1
  · obtain ⟨value, rfl⟩ := List.length_eq_one_iff.1 hsingle
    have hdone : callBuiltin (.ofSink .collect) b [value] ByteArray.empty =
        .done .void (ByteArray.empty ++ (value.text ++ "\n").toUTF8) := by
      rw [callBuiltin_print hname]
      rfl
    have hfits := hmeets.of_done hdone
    refine ⟨hlength.trans hsingle, ?_⟩
    generalize b.result = result at hfits
    cases hfits
    rfl
  · rw [callBuiltin_of_length hsingle] at hmeets
    exact (hmeets ByteArray.empty b.name rfl).elim

/-- **When builtins keep what they promise.**  In a program that compiles, calls of functions
with arguments that fit never find a builtin unknown, and answer with data of the kind that
the function is declared to return, exactly if every builtin is declared with one argument
and as returning nothing. -/
theorem builtins_kept_iff {source : String} {file : Option String} {text : String}
    (haccepted : frontEnd source file = .ok p) (hcompiled : p.assemblyText = .ok text) :
    p.KeepsContracts ↔
      ∀ b ∈ p.functions, b.builtin = true → b.arguments.length = 1 ∧ b.result = .void := by
  have hp := frontEnd_typed haccepted
  have hname : ∀ b ∈ p.functions, b.builtin = true → b.name = "print" :=
    fun b hb => hp.name_of_builtin hcompiled hb
  constructor
  · exact fun h b hb hbuiltin => h.builtin hp hb hbuiltin (hname b hb hbuiltin)
  · intro hbuiltins σ host rounds f hf args hargs
    refine (call_blames ⟨p, host, rounds⟩ hp hf hargs).mono ?_ ?_
    · rintro v (hfits | ⟨⟨b, hb, hbuiltin, hresult⟩, _⟩)
      · exact hfits
      · exact (hresult (hbuiltins b hb hbuiltin).2).elim
    · intro e he name hunknown
      obtain ⟨b, hb, hbuiltin, _, hother⟩ := he name hunknown
      exact hother ⟨hname b hb hbuiltin, (hbuiltins b hb hbuiltin).1⟩

/-- A program whose `print` is declared for strings. -/
def stringsSource : String :=
  "builtin void print(s: string); bool main() \x7b print(\"none\"); return false; \x7d"

/-- The program keeps its contracts. -/
theorem builtins_kept_iff_strings :
    ∃ p, frontEnd stringsSource none = .ok p ∧ p.KeepsContracts := by
  have hcheck : (frontEnd stringsSource none).toOption.any (fun p =>
        p.assemblyText.toOption.any (fun _ => true) &&
          p.functions.all fun b => !b.builtin ||
            decide (b.arguments.length = 1 ∧ b.result = .void)) = true := by
    decide +kernel
  obtain ⟨p, haccepted, hcheck⟩ := (Option.any_eq_true _ _).1 hcheck
  rw [Bool.and_eq_true, List.all_eq_true] at hcheck
  obtain ⟨htext, hbuiltins⟩ := hcheck
  obtain ⟨text, hcompiled, _⟩ := (Option.any_eq_true _ _).1 htext
  have haccepted := toOption_eq_some.1 haccepted
  refine ⟨p, haccepted, (builtins_kept_iff haccepted (toOption_eq_some.1 hcompiled)).2 ?_⟩
  intro b hb hbuiltin
  have hdeclared := hbuiltins b hb
  rw [hbuiltin] at hdeclared
  simpa using hdeclared

/-- A program whose `print` is declared without an argument. -/
def noArgumentSource : String := "builtin void print(); i32 main() { print(); return 0; }"

/-- A program whose `print` is declared with a result. -/
def resultSource : String := "builtin i32 print(x: i32); i32 main() { return print(1); }"

/-- Programs that compile can find a builtin unknown, and answer with nothing where an integer
is declared. -/
theorem compiled_and_unkept :
    (∃ p text, frontEnd noArgumentSource none = .ok p ∧
      p.assemblyText = .ok text ∧ ¬ p.KeepsContracts) ∧
    ∃ p text, frontEnd resultSource none = .ok p ∧
      p.assemblyText = .ok text ∧ ¬ p.KeepsContracts := by
  have hunknown : (frontEnd noArgumentSource none).toOption.any (fun p =>
      p.assemblyText.toOption.any (fun _ => true) &&
        p.functions.any fun f => f.arguments.isEmpty &&
          decide ((Setting.mk p (.ofSink .collect) 0).call f.name [] .empty =
            .failed (.unknownBuiltin "print") .empty)) = true := by
    decide +kernel
  have hnothing : (frontEnd resultSource none).toOption.any (fun p =>
      p.assemblyText.toOption.any (fun _ => true) &&
        p.functions.any fun f => f.arguments.isEmpty && decide (f.result = .int) &&
          decide ((Setting.mk p (.ofSink .collect) 0).call f.name [] .empty =
            .done .void "1\n".toUTF8)) = true := by
    decide +kernel
  refine ⟨?_, ?_⟩
  · obtain ⟨p, haccepted, hcheck⟩ := (Option.any_eq_true _ _).1 hunknown
    rw [Bool.and_eq_true, List.any_eq_true] at hcheck
    obtain ⟨htext, f, hf, hrun⟩ := hcheck
    rw [Bool.and_eq_true, List.isEmpty_iff, decide_eq_true_eq] at hrun
    obtain ⟨text, hcompiled, _⟩ := (Option.any_eq_true _ _).1 htext
    refine ⟨p, text, toOption_eq_some.1 haccepted, toOption_eq_some.1 hcompiled, fun hkeeps => ?_⟩
    have hargs : ValuesFit [] (f.arguments.map Var.type) := by
      rw [hrun.1]
      exact .nil
    exact (hkeeps ByteArray (.ofSink .collect) 0 f hf [] hargs).of_failed hrun.2 "print" rfl
  · obtain ⟨p, haccepted, hcheck⟩ := (Option.any_eq_true _ _).1 hnothing
    rw [Bool.and_eq_true, List.any_eq_true] at hcheck
    obtain ⟨htext, f, hf, hrun⟩ := hcheck
    rw [Bool.and_eq_true, Bool.and_eq_true, List.isEmpty_iff, decide_eq_true_eq,
      decide_eq_true_eq] at hrun
    obtain ⟨⟨hnone, hresult⟩, hrun⟩ := hrun
    obtain ⟨text, hcompiled, _⟩ := (Option.any_eq_true _ _).1 htext
    refine ⟨p, text, toOption_eq_some.1 haccepted, toOption_eq_some.1 hcompiled, fun hkeeps => ?_⟩
    have hargs : ValuesFit [] (f.arguments.map Var.type) := by
      rw [hnone]
      exact .nil
    have hfits := (hkeeps ByteArray (.ofSink .collect) 0 f hf [] hargs).of_done hrun
    rw [hresult] at hfits
    obtain ⟨i, hi⟩ := hfits.eq_int
    cases hi

end Slate
