import Slate.Proofs.CommandLine.Spares

/-!
# What failing commands leave behind

A command can fail in its arguments, its settings, its source file, in the front end, in the
opening of the assembly file and in a run, and none of these changes a file; nor does anything
else that comes before the assembly file has been opened (`Opens`).  By then what the file held
before is lost, and it holds a beginning of the new text when the command is over.  The
failures that are left are a builtin without a routine, and a write that fails.

This is so with any libraries, and on any system whose files keep the customs of files.

* `failing_commands_spare_files` — these are all the cases;
* `failing_command_empties_file` — a file from an earlier time that is lost.
-/

namespace Slate

namespace CommandLine

/-! ## The whole command -/

section

variable {W F V : Type} {system : System (StateM W)} {files : W → F → Option ByteArray}
  {file : system.Handle → Option F} {view : W → V} {libraries : Libraries} {args : List String}
  {filterText : String} {w w' w₁ : W} {status : Nat} {p : Program} {h : system.Handle}
  {arguments : Arguments} {settings : Settings} {source : String}

/-- The command comes to compile a program to a file, which it opens: it is empty then, and
nothing has been written to it. -/
def Opens (libraries : Libraries) (system : System (StateM W)) (args : List String)
    (filterText : String) (w : W) (p : Program) (h : system.Handle) (w₁ : W) : Prop :=
  ∃ path shows before,
    (prepare libraries system args filterText).run w = (.ok (.compilation p path, shows), before) ∧
      (system.create path).run before = (.ok h, w₁)

/-- What becomes of a source text is decided by the front end. -/
theorem prepareText_run (shows : Message → Bool) :
    ((prepareText system arguments settings shows source).run w).1 =
      ((frontEnd source (some arguments.input)).map fun p =>
        (arguments.task settings p, shows)).mapError fun _ => 1 := by
  unfold prepareText
  rw [run_bind]
  cases frontEnd source (some arguments.input) <;> rfl

/-- A command whose arguments, settings and source file are in order comes to the front end;
the source file is read after what a quiet system does. -/
theorem prepare_run (filterText : String) (quiet : Quiet system view)
    (asked : libraries.arguments args = .ok arguments)
    (set : ((readSettings libraries system arguments.settings).run w).1 = .ok settings)
    (read : ∀ w', view w' = view w →
      ((readText system arguments.input).run w').1 = .ok source) :
    ∃ shows, ((prepare libraries system args filterText).run w).1 =
      ((frontEnd source (some arguments.input)).map fun p =>
        (arguments.task settings p, shows)).mapError fun _ => 1 := by
  refine ⟨(libraries.filter filterText
    (if settings.verbose || arguments.verbose then .debug else .warn)).shows, ?_⟩
  have hset := readSettings_spares quiet libraries arguments.settings w
  unfold prepare
  rw [asked]
  dsimp only
  rw [run_bind, set]
  unfold prepareFile
  rw [run_bind, run_bind, read _ ((complainAll_spares quiet _ _).trans hset)]
  exact prepareText_run _

/-- A task is one for a program that has been accepted. -/
theorem prepare_accepted {task : Task} {shows : Message → Bool}
    (run : ((prepare libraries system args filterText).run w).1 = .ok (task, shows)) :
    ∃ arguments settings source p, libraries.arguments args = .ok arguments ∧
      frontEnd source (some arguments.input) = .ok p ∧ task = arguments.task settings p := by
  unfold prepare at run
  split at run
  · cases run
  · next arguments asked =>
    rcases hset : (readSettings libraries system arguments.settings).run w with ⟨set, w₁⟩
    rw [run_bind, hset] at run
    cases set with
    | error complaint => cases run
    | ok settings =>
        unfold prepareFile at run
        dsimp only at run
        rw [run_bind, run_bind] at run
        generalize (readText system arguments.input).run _ = answer at run
        obtain ⟨e | source, w₂⟩ := answer
        · cases run
        · dsimp only at run
          rw [prepareText_run] at run
          cases accepted : frontEnd source (some arguments.input) with
          | error d =>
              rw [accepted] at run
              cases run
          | ok p =>
              rw [accepted] at run
              cases run
              exact ⟨arguments, settings, source, p, asked, accepted, rfl⟩

/-- A task of compiling is one for the program that has been accepted. -/
theorem Opens.accepted (hopens : Opens libraries system args filterText w p h w₁) :
    ∃ source input, frontEnd source (some input) = .ok p := by
  obtain ⟨path, shows, before, hprepare, _⟩ := hopens
  obtain ⟨arguments, settings, source, q, _, haccepted, htask⟩ :=
    prepare_accepted (congrArg Prod.fst hprepare)
  unfold Arguments.task at htask
  split at htask
  · cases htask
  · cases htask
    exact ⟨source, arguments.input, haccepted⟩

/-- **What a command does to a file that it opens.** -/
theorem Opens.run (laws : FileLaws system files file)
    (hopens : Opens libraries system args filterText w p h w₁)
    (run : (runCommandWith libraries system args filterText).run w = (status, w')) :
    ∃ written, Leaves system h p w₁ status written ∧
      (∀ q, file h = some q → files w' q = some written) ∧
      ∀ q, file h ≠ some q → files w' q = files w q := by
  obtain ⟨source, input, haccepted⟩ := hopens.accepted
  obtain ⟨path, shows, before, hprepare, hcreate⟩ := hopens
  have hspared := prepare_spares laws.toQuiet libraries args filterText w
  rw [hprepare] at hspared
  unfold runCommandWith at run
  rw [run_bind, hprepare] at run
  have run : (compileTo system shows p path).run before = (status, w') := run
  unfold compileTo at run
  rw [run_bind, hcreate] at run
  obtain ⟨written, hgrows, hleaves⟩ := compileInto_run laws (frontEnd_typed haccepted) run
  refine ⟨written, hleaves, fun q here => ?_, fun q elsewhere => ?_⟩
  · rw [hgrows.here here (laws.create_file hcreate here), ByteArray.empty_append]
  · rw [hgrows.elsewhere elsewhere, laws.create_other hcreate elsewhere, hspared]

/-- **Every other command** leaves all files as they are. -/
theorem files_of_not_opens (laws : FileLaws system files file)
    (hnone : ∀ p h w₁, ¬ Opens libraries system args filterText w p h w₁)
    (run : (runCommandWith libraries system args filterText).run w = (status, w')) :
    files w' = files w := by
  have hspared := prepare_spares laws.toQuiet libraries args filterText w
  rcases hprepare : (prepare libraries system args filterText).run w with ⟨prepared, before⟩
  unfold runCommandWith at run
  rw [hprepare] at hspared
  rw [run_bind, hprepare] at run
  rw [← hspared]
  obtain failure | ⟨p | ⟨p, path⟩, shows⟩ := prepared
  · cases run
    rfl
  · rw [← evaluate_spares laws.toQuiet shows p before]
    exact congrArg (fun answer => files answer.2) run.symm
  · have run : (compileTo system shows p path).run before = (status, w') := run
    rcases hcreate : (system.create path).run before with ⟨made, w₁⟩
    unfold compileTo at run
    rw [run_bind, hcreate] at run
    cases made with
    | error e => rw [(giveUp_run laws run).2, laws.create_error hcreate]
    | ok h => exact (hnone p h w₁ ⟨path, shows, before, hprepare, hcreate⟩).elim

end

/-! ## A directory with a source file -/

/-- From the position on, the text has so many characters and no slash. -/
def endsWithoutSlash (s : String) : Nat → String.Pos.Raw → Bool
  | 0, i => i.atEnd s && String.Pos.Raw.extract s 0 i = s
  | more + 1, i =>
    !i.atEnd s && !(i.get s == String.Pos.Raw.get "/" 0) && endsWithoutSlash s more (i.next s)

theorem splitOnAux_of_endsWithoutSlash {s : String} {n : Nat} {i : String.Pos.Raw}
    (h : endsWithoutSlash s n i = true) : s.splitOnAux "/" 0 i 0 [] = [s] := by
  induction n generalizing i with
  | zero =>
      obtain ⟨hend, hall⟩ := (Bool.and_eq_true _ _).mp h
      rw [String.splitOnAux, if_pos hend, of_decide_eq_true hall]
      rfl
  | succ n ih =>
      obtain ⟨hhere, hthere⟩ := (Bool.and_eq_true _ _).mp h
      obtain ⟨hinside, hother⟩ := (Bool.and_eq_true _ _).mp hhere
      rw [Bool.not_eq_true'] at hinside hother
      rw [String.splitOnAux, hinside, hother]
      exact ih hthere

/-- A text without slashes is not split. -/
theorem splitOn_of_endsWithoutSlash {s : String} {n : Nat} (h : endsWithoutSlash s n 0 = true) :
    s.splitOn "/" = [s] := by
  rw [String.splitOn, if_neg (by decide)]
  exact splitOnAux_of_endsWithoutSlash h

/-- The name of a file in the directory itself. -/
structure IsFileName (name : String) : Prop where
  whole : name.splitOn "/" = [name]
  short : name.utf8ByteSize < Directory.maxPath
  given : name ≠ ""
  start : Directory.startOf name = .within []
  ending : name.endsWith "/" = false

/-- The names used below are file names. -/
theorem isFileName_of_mem {name : String} (h : name ∈ ["p.sl", "p.asm", "slatec.toml"]) :
    IsFileName name := by
  have hnames : ∀ name ∈ ["p.sl", "p.asm", "slatec.toml"],
      endsWithoutSlash name name.length 0 = true ∧ name.utf8ByteSize < Directory.maxPath ∧
        name ≠ "" ∧ Directory.startOf name = .within [] ∧ name.endsWith "/" = false := by
    decide +kernel
  obtain ⟨hslash, hshort, hgiven, hstart, hending⟩ := hnames name h
  exact ⟨splitOn_of_endsWithoutSlash hslash, hshort, hgiven, hstart, hending⟩

theorem source_named : IsFileName "p.sl" := isFileName_of_mem (by simp)

theorem assembly_named : IsFileName "p.asm" := isFileName_of_mem (by simp)

theorem settings_named : IsFileName "slatec.toml" := isFileName_of_mem (by simp)

/-- The source is all that the command line asks for. -/
theorem source_asked :
    Libraries.standard.arguments ["p.sl"] = .ok ⟨none, "p.sl", none, false, false⟩ := by
  decide +kernel

/-- A source file, and an assembly file from an earlier time. -/
def compiledBefore (source assembly : String) : Directory :=
  .ofFiles [("p.sl", source.toUTF8), ("p.asm", assembly.toUTF8)]

section

variable (source assembly : String)

/-- The directory has the source and an assembly text, and no other file. -/
theorem compiledBefore_eq : compiledBefore source assembly =
    ⟨[(["p.sl"], source.toUTF8), (["p.asm"], assembly.toUTF8)], none, .empty, []⟩ := by
  simp [compiledBefore, Directory.ofFiles, source_named.whole, assembly_named.whole]

/-- A file name is looked up in the directory itself. -/
theorem IsFileName.approach {name : String} (h : IsFileName name) (d : Directory) :
    d.approach name = .ok (.within [], some name) := by
  unfold Directory.approach
  rw [if_neg (Nat.not_le.2 h.short), if_neg h.given]
  simp only [h.whole, h.start]
  simp [h.given]
  rfl

/-- No settings are found in it, so there are the default ones. -/
theorem compiledBefore_settings :
    ((readSettings .standard Directory.system none).run (compiledBefore source assembly)).1 =
      .ok .default := by
  have happroach := settings_named.approach (compiledBefore source assembly)
  have hread : (Directory.system.read "slatec.toml").run (compiledBefore source assembly) =
      (.error .notFound, compiledBefore source assembly) := by
    refine congrArg (·, compiledBefore source assembly) ?_
    rw [Directory.read, happroach, compiledBefore_eq]
    rfl
  have htext : ((readText Directory.system "slatec.toml").run
      (compiledBefore source assembly)).1 = .error (.file .notFound) := by
    unfold readText
    rw [run_bind, hread]
    rfl
  unfold readSettings
  rw [run_bind, show none.getD defaultSettingsName = "slatec.toml" from rfl, htext]
  rfl

/-- The source is read from it. -/
theorem compiledBefore_source :
    ((readText Directory.system "p.sl").run (compiledBefore source assembly)).1 =
      .ok source := by
  have happroach := source_named.approach (compiledBefore source assembly)
  have hread : (Directory.system.read "p.sl").run (compiledBefore source assembly) =
      (.ok source.toUTF8, compiledBefore source assembly) := by
    refine congrArg (·, compiledBefore source assembly) ?_
    rw [Directory.read, happroach, compiledBefore_eq]
    change (if "p.sl".endsWith "/" = true then throw FileError.notDirectory
      else pure source.toUTF8) = _
    rw [source_named.ending, if_neg Bool.false_ne_true]
    rfl
  have htext : String.fromUTF8? source.toUTF8 = some source := by
    unfold String.fromUTF8?
    rw [dif_pos (show source.toUTF8.IsValidUTF8 from source.isValidUTF8)]
    rfl
  unfold readText
  rw [run_bind, hread]
  dsimp only
  rw [htext]
  rfl

/-- The assembly text is what a new one is written to. -/
theorem compiledBefore_target :
    (compiledBefore source assembly).target "p.asm" = .ok (.within ["p.asm"]) := by
  have happroach := assembly_named.approach (compiledBefore source assembly)
  have hfile : ¬ ("p.asm" = "." ∨ "p.asm" = ".." ∨ "p.asm".endsWith "/" = true) := by
    rw [assembly_named.ending]
    decide
  unfold Directory.target
  rw [happroach]
  show (if _ then _ else _) = _
  rw [if_neg hfile]
  show (if _ then _ else _) = _
  rw [if_neg (by decide), compiledBefore_eq]
  rfl

end

/-- What a file holds depends on the files alone. -/
theorem readText_of_stored {d d' : Directory} (hstored : d'.stored = d.stored) (name : String) :
    ((readText Directory.system name).run d').1 = ((readText Directory.system name).run d).1 := by
  obtain ⟨files, room, _, _⟩ := d
  obtain ⟨_, _, _, _⟩ := d'
  cases hstored
  have hread (printed : ByteArray) (complaints : List String) :
      (Directory.system.read name).run ⟨files, room, printed, complaints⟩ =
        (Directory.read ⟨files, room, .empty, []⟩ name, ⟨files, room, printed, complaints⟩) := rfl
  unfold readText
  rw [run_bind, run_bind, hread, hread]
  cases Directory.read ⟨files, room, .empty, []⟩ name with
  | error e => rfl
  | ok bytes =>
      dsimp only
      split <;> rfl

/-- So does the place at which it is made. -/
theorem target_of_stored {d d' : Directory} (hstored : d'.stored = d.stored) (name : String) :
    d'.target name = d.target name := by
  obtain ⟨_, _, _, _⟩ := d
  obtain ⟨_, _, _, _⟩ := d'
  cases hstored
  rfl

/-- What the command comes to in a directory with a source file. -/
theorem compiledBefore_prepare (source assembly : String) : ∃ shows before,
    before.stored = (compiledBefore source assembly).stored ∧
      (prepare .standard Directory.system ["p.sl"] "").run (compiledBefore source assembly) =
        (((frontEnd source (some "p.sl")).map fun p =>
          (.compilation p "p.asm", shows)).mapError fun _ => 1, before) := by
  obtain ⟨shows, hprepare⟩ := prepare_run "" Directory.system_quiet source_asked
    (compiledBefore_settings source assembly)
    fun d hstored => (readText_of_stored hstored _).trans (compiledBefore_source source assembly)
  have hname : assemblyName "p.sl" = "p.asm" := by decide
  refine ⟨shows, _, prepare_spares Directory.system_quiet .standard ["p.sl"] "" _,
    Prod.ext ?_ rfl⟩
  rw [hprepare]
  cases frontEnd source (some "p.sl") with
  | error d => rfl
  | ok p =>
      show Except.ok (Task.compilation p (assemblyName "p.sl"), shows) = _
      rw [hname]
      rfl

/-- An accepted program with a builtin that has no routine. -/
def launchingSource : String := "builtin void launch(n: i32);\ni32 main() \x7b return 0; \x7d\n"

/-- Nothing of it has been written when the builtin is met, as all of that fits into one
block. -/
theorem launching_opens (assembly : String) : ∃ p d,
    Opens .standard Directory.system ["p.sl"] "" (compiledBefore launchingSource assembly) p
        (.within ["p.asm"]) d ∧
      d.room = none ∧ (∃ f ∈ p.functions, f.lacksRoutine = true) ∧
      (Blocks.none.addTexts (textsOf p.emission.steps)).written = .empty := by
  have hcheck : (frontEnd launchingSource (some "p.sl")).toOption.any (fun p =>
      p.functions.any Function.lacksRoutine &&
        decide ((Blocks.none.addTexts (textsOf p.emission.steps)).written = .empty)) = true := by
    decide +kernel
  obtain ⟨p, accepted, hcheck⟩ := (Option.any_eq_true _ _).1 hcheck
  obtain ⟨hlacks, hwritten⟩ := Bool.and_eq_true_iff.1 hcheck
  obtain ⟨shows, before, hstored, hprepare⟩ := compiledBefore_prepare launchingSource assembly
  rw [toOption_eq_some.1 accepted] at hprepare
  have hroom : before.room = none := congrArg Prod.snd hstored
  have hcreate : before.create "p.asm" = .ok (.within ["p.asm"],
      { before.put ["p.asm"] .empty with
        room := before.room.map (· + ((before.file? ["p.asm"]).getD .empty).size) }) := by
    unfold Directory.create
    rw [target_of_stored hstored, compiledBefore_target]
    rfl
  refine ⟨p, _, ⟨"p.asm", shows, before, hprepare,
    Directory.system_create_ok.2 hcreate⟩, ?_,
    List.any_eq_true.1 hlacks, of_decide_eq_true hwritten⟩
  rw [hroom]
  rfl

/-- A program that is not accepted. -/
def faultySource : String := "i32 main() \x7b return x; \x7d\n"

/-- The front end refuses the faulty source. -/
theorem faulty_refused : (frontEnd faultySource (some "p.sl")).isOk = false := by
  decide +kernel

/-- The command comes to no work on it. -/
theorem faulty_run (assembly : String) :
    ((runCommand Directory.system ["p.sl"] "").run (compiledBefore faultySource assembly)).1 = 1 ∧
      ∀ p h d, ¬ Opens .standard Directory.system ["p.sl"] "" (compiledBefore faultySource assembly)
        p h d := by
  obtain ⟨shows, before, hstored, hprepare⟩ := compiledBefore_prepare faultySource assembly
  have hrefused := faulty_refused
  cases hfront : frontEnd faultySource (some "p.sl") with
  | ok p =>
      rw [hfront] at hrefused
      cases hrefused
  | error diagnostic =>
      rw [hfront] at hprepare
      refine ⟨?_, fun p h d hopens => ?_⟩
      · unfold runCommand runCommandWith
        rw [run_bind, hprepare]
        rfl
      · obtain ⟨_, _, _, hsame, _⟩ := hopens
        cases hprepare.symm.trans hsame

/-- The file from an earlier time is empty in the end. -/
theorem launching_empties (assembly : String) :
    ((runCommand Directory.system ["p.sl"] "").run
      (compiledBefore launchingSource assembly)).1 = 1 ∧
      ((runCommand Directory.system ["p.sl"] "").run
        (compiledBefore launchingSource assembly)).2.file? ["p.asm"] = some .empty := by
  obtain ⟨p, d, hopens, hroom, hlacks, hblocks⟩ := launching_opens assembly
  obtain ⟨written, hleaves, hfile, _⟩ := hopens.run Directory.system_laws rfl
  obtain ⟨hstatus, hwritten⟩ := hleaves.refused hlacks
  refine ⟨hstatus, ?_⟩
  rw [← hblocks, ← hwritten (Directory.system_takesAll hroom _)]
  exact hfile _ rfl

/-- **Failing commands leave the files as they were**, but for one case.  A command that opens
no file to compile to changes none, whatever it ends with.  One that does is about a program
that the front end has accepted, and when it is over, that file holds a beginning of the
program's text and no other file has changed (`Leaves`): if it fails then with status 1, and
for a builtin without a routine or else for a write that fails. -/
theorem failing_commands_spare_files {W F : Type} {system : System (StateM W)}
    {files : W → F → Option ByteArray} {file : system.Handle → Option F}
    (laws : FileLaws system files file) (libraries : Libraries) (args : List String)
    (filterText : String) {w w' : W} {status : Nat}
    (run : (runCommandWith libraries system args filterText).run w = (status, w')) :
    ((∀ p h w₁, ¬ Opens libraries system args filterText w p h w₁) → files w' = files w) ∧
      ∀ p h w₁, Opens libraries system args filterText w p h w₁ →
        (∃ source input, frontEnd source (some input) = .ok p) ∧
          ∃ written, Leaves system h p w₁ status written ∧
            (∀ q, file h = some q → files w' q = some written) ∧
            ∀ q, file h ≠ some q → files w' q = files w q :=
  ⟨fun hnone => files_of_not_opens laws hnone run,
    fun _ _ _ hopens => ⟨hopens.accepted, hopens.run laws run⟩⟩

/-- Where compiling stops, the assembly file from an earlier time is emptied; where a program
is not accepted, it is kept. -/
theorem failing_commands_spare_files_earlier :
    ((runCommand Directory.system ["p.sl"] "").run (compiledBefore launchingSource "ret\n")).1 = 1 ∧
      ((runCommand Directory.system ["p.sl"] "").run
        (compiledBefore launchingSource "ret\n")).2.file? ["p.asm"] = some .empty ∧
      ((runCommand Directory.system ["p.sl"] "").run (compiledBefore faultySource "ret\n")).1 = 1 ∧
      ((runCommand Directory.system ["p.sl"] "").run
        (compiledBefore faultySource "ret\n")).2.file? =
          (compiledBefore faultySource "ret\n").file? := by
  obtain ⟨p, d, hopens, hroom, hlacks, hblocks⟩ := launching_opens "ret\n"
  obtain ⟨_, hcompiling⟩ := failing_commands_spare_files Directory.system_laws .standard ["p.sl"]
    "" (w := compiledBefore launchingSource "ret\n") rfl
  obtain ⟨_, written, hleaves, hfile, _⟩ := hcompiling _ _ _ hopens
  obtain ⟨hstatus, hwritten⟩ := hleaves.refused hlacks
  obtain ⟨hfaulty, hnone⟩ := faulty_run "ret\n"
  obtain ⟨hothers, _⟩ := failing_commands_spare_files Directory.system_laws .standard ["p.sl"]
    "" (w := compiledBefore faultySource "ret\n") rfl
  refine ⟨hstatus, ?_, hfaulty, hothers hnone⟩
  rw [← hblocks, ← hwritten (Directory.system_takesAll hroom _)]
  exact hfile _ rfl

/-- **Not every failing command leaves the files as they were.**  The assembly file from an
earlier time is emptied. -/
theorem failing_command_empties_file :
    ¬ ∀ (files : List (String × ByteArray)) (args : List String) (filterText : String),
      ((runCommand Directory.system args filterText).run (.ofFiles files)).1 ≠ 0 →
        ((runCommand Directory.system args filterText).run (.ofFiles files)).2.files =
          (Directory.ofFiles files).files := by
  intro hclaim
  obtain ⟨hstatus, hfile⟩ := launching_empties "ret\n"
  have hsame := hclaim [("p.sl", launchingSource.toUTF8), ("p.asm", "ret\n".toUTF8)] ["p.sl"] ""
    (by rw [← compiledBefore, hstatus]; decide)
  rw [← compiledBefore] at hsame
  have hkept : (compiledBefore launchingSource "ret\n").file? ["p.asm"] = some .empty := by
    rw [← hfile]
    exact (congrArg (List.lookup ["p.asm"]) hsame).symm
  rw [compiledBefore_eq] at hkept
  have hempty : ByteArray.empty = "ret\n".toUTF8 := (Option.some.inj hkept).symm
  exact absurd (congrArg ByteArray.size hempty) (by decide)

end CommandLine

end Slate
