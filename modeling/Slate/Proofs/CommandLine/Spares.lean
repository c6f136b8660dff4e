import Slate.CommandLine.Command
import Slate.Proofs.CommandLine.Files
import Slate.Proofs.Compile.Refused

/-!
# What the parts of the command do to files

Most of what the command does reads files, prints and complains, and leaves every file as it
is; so does a run of a program, however it ends (`Spares`).  What is left is compiling.  The
assembly file is opened first, before the program is looked at, and then the blocks of the
text are added to it as they are full.

What the file holds and what is held back for it make up what has been written so far
(`Blocks.join_add`), and each piece moves both as long as no write fails (`writePiece_run`).
A write that fails leaves a beginning of what was to be written; and so do all the steps
together (`perform_steps`), of which the induction is on the steps of the emission.

* `prepare_spares`, `evaluate_spares` — what changes no file;
* `compileInto_run` — what compiling leaves in the file.
-/

namespace Slate.CommandLine

/-! ## Blocks -/

/-- What has been written to a file as long as no write fails, and what is held back. -/
structure Blocks where
  written : ByteArray
  held : ByteArray

namespace Blocks

/-- Nothing written yet. -/
def none : Blocks := ⟨.empty, .empty⟩

/-- The blocks when there is to be room for so many bytes. -/
def makeRoom (b : Blocks) (size : Nat) : Blocks :=
  if blockSize - b.held.size < size then ⟨b.written ++ b.held, .empty⟩ else b

/-- The blocks with a piece for which there is room. -/
def putPiece (b : Blocks) (piece : ByteArray) : Blocks :=
  if blockSize ≤ piece.size then ⟨b.written ++ piece, b.held⟩ else ⟨b.written, b.held ++ piece⟩

/-- The blocks after a further piece. -/
def add (b : Blocks) (piece : ByteArray) : Blocks := (b.makeRoom piece.size).putPiece piece

/-- All that has been handed over. -/
def join (b : Blocks) : ByteArray := b.written ++ b.held

/-- The blocks after some texts. -/
def addTexts (b : Blocks) (texts : List String) : Blocks :=
  texts.foldl (fun b text => b.add text.toUTF8) b

/-- Making room leaves the bytes in their order. -/
theorem join_makeRoom (b : Blocks) (size : Nat) : (b.makeRoom size).join = b.join := by
  unfold makeRoom
  split
  · exact ByteArray.append_empty
  · rfl

/-- What is as long as a block finds room only where nothing is held back. -/
theorem held_makeRoom (b : Blocks) {size : Nat} (hlong : blockSize ≤ size) :
    (b.makeRoom size).held = .empty := by
  unfold makeRoom
  split
  · rfl
  · refine ByteArray.size_eq_zero_iff.1 ?_
    have hsize : 0 < blockSize := by decide
    omega

/-- Nothing is lost in blocks, and nothing changes places. -/
theorem join_add (b : Blocks) (piece : ByteArray) : (b.add piece).join = b.join ++ piece := by
  rw [← b.join_makeRoom piece.size]
  unfold add putPiece join
  split
  · next hlong => simp [b.held_makeRoom hlong]
  · exact ByteArray.append_assoc.symm

/-- What has gone from the blocks to the file, and what is still held back, is what was held
back before and the piece. -/
theorem append_of_add {b : Blocks} {piece part rest : ByteArray}
    (h : ⟨b.written ++ part, rest⟩ = b.add piece) : part ++ rest = b.held ++ piece := by
  have hjoin := b.join_add piece
  rw [← h, join, join, ByteArray.append_assoc, ByteArray.append_assoc] at hjoin
  exact (ByteArray.append_right_inj _).1 hjoin

theorem join_addTexts (b : Blocks) (texts : List String) :
    (b.addTexts texts).join = b.join ++ (String.join texts).toUTF8 := by
  induction texts generalizing b with
  | nil =>
      show b.join = b.join ++ "".toUTF8
      exact ByteArray.append_empty.symm
  | cons text texts ih =>
      show ((b.add text.toUTF8).addTexts texts).join = _
      rw [ih, join_add, String.join_cons, ByteArray.append_assoc]
      exact congrArg (b.join ++ ·) String.toByteArray_append.symm

end Blocks

/-! ## Actions that leave the files alone -/

section

variable {W V α β : Type} {system : System (StateM W)} {view : W → V}

/-- Two actions after each other are run on the world the first leaves. -/
theorem run_bind (x : StateM W α) (f : α → StateM W β) (w : W) :
    (x >>= f).run w = (f (x.run w).1).run (x.run w).2 := rfl

/-- The action leaves all that is seen as it is. -/
def Spares (view : W → V) (x : StateM W α) : Prop := ∀ w, view (x.run w).2 = view w

namespace Spares

theorem answer (a : α) : Spares view (pure a : StateM W α) := fun _ => rfl

/-- One action after another. -/
theorem bind {x : StateM W α} {f : α → StateM W β} (hx : Spares view x)
    (hf : ∀ a, Spares view (f a)) : Spares view (x >>= f) :=
  fun w => (hf _ _).trans (hx w)

end Spares

variable (quiet : Quiet system view)

include quiet

/-- So does giving up. -/
theorem giveUp_spares (complaint : String) : Spares view (giveUp system complaint) :=
  Spares.bind (quiet.complain complaint) fun _ => .answer 1

/-- So does showing messages. -/
theorem showAll_spares (shows : Message → Bool) (messages : List Message) :
    Spares view (showAll system shows messages) := by
  induction messages with
  | nil => exact .answer ()
  | cons message rest ih =>
      unfold showAll
      dsimp only
      split
      · exact .bind (quiet.complain _) fun _ => ih
      · exact ih

/-- So do complaints. -/
theorem complainAll_spares (complaints : List String) :
    Spares view (complainAll system complaints) := by
  induction complaints with
  | nil => exact .answer ()
  | cons complaint rest ih => exact .bind (quiet.complain complaint) fun _ => ih

/-- Reading a file spares what is in view. -/
theorem readText_spares (name : String) : Spares view (readText system name) := by
  refine .bind (quiet.read name) fun bytes => ?_
  cases bytes with
  | error e => exact .answer _
  | ok bytes =>
      dsimp only
      split <;> exact .answer _

/-- So does reading the settings. -/
theorem readSettings_spares (libraries : Libraries) (name : Option String) :
    Spares view (readSettings libraries system name) := by
  refine .bind (readText_spares quiet _) fun text => ?_
  cases text with
  | error e =>
      dsimp only
      split <;> exact .answer _
  | ok text =>
      dsimp only
      split <;> exact .answer _

/-- So does ending the program. -/
theorem finish_spares (ending : Ending) : Spares view (finish system ending) := by
  cases ending with
  | refused complaint => exact giveUp_spares quiet complaint
  | shown text =>
      refine .bind (quiet.print _) fun failure => ?_
      cases failure with
      | none => exact .answer 0
      | some e => exact .bind (quiet.complain _) fun _ => .answer panicStatus

/-- What is printed goes to no file. -/
theorem perform_standardOutput_spares (trouble : Option FileError) (deeds : List Deed) :
    Spares view (perform system system.standardOutput trouble deeds ()) := by
  induction deeds generalizing trouble with
  | nil =>
      unfold perform
      exact .answer _
  | cons deed deeds ih =>
      cases deed with
      | flush => exact .bind (.bind quiet.flush fun _ => .answer _) fun _ => ih _
      | write bytes =>
          cases trouble with
          | none => exact .bind (.bind (quiet.print bytes) fun _ => .answer _) fun _ => ih _
          | some e => exact ih _
      | say message =>
          cases trouble with
          | none => exact .bind (quiet.complain _) fun _ => ih _
          | some e => exact ih _

/-- **A run touches no file**, however it ends. -/
theorem evaluate_spares (shows : Message → Bool) (p : Program) :
    Spares view (evaluate system shows p) := by
  refine .bind (perform_standardOutput_spares quiet none _) fun answer => ?_
  obtain ⟨trouble, _⟩ := answer
  cases trouble with
  | some e => exact giveUp_spares quiet _
  | none =>
      dsimp only
      split
      · exact .bind (showAll_spares quiet shows _) fun _ => .answer _
      · exact giveUp_spares quiet _
      · exact giveUp_spares quiet _

/-- So does refusing the arguments. -/
theorem refuse_spares (complaint : String) : Spares view (refuse system complaint) :=
  .bind (giveUp_spares quiet complaint) fun _ => .answer _

/-- So does all that is done with the text of a source before a file is opened. -/
theorem prepareText_spares (arguments : Arguments) (settings : Settings)
    (shows : Message → Bool) (source : String) :
    Spares view (prepareText system arguments settings shows source) := by
  refine .bind (showAll_spares quiet shows _) fun _ => ?_
  split
  · exact refuse_spares quiet _
  · exact .answer _

/-- So does all that is done before a file is opened. -/
theorem prepareFile_spares (arguments : Arguments) (settings : Settings)
    (listening : Listening) : Spares view (prepareFile system arguments settings listening) := by
  refine .bind (complainAll_spares quiet _) fun _ => ?_
  refine .bind (readText_spares quiet _) fun source => ?_
  cases source with
  | error e => exact refuse_spares quiet _
  | ok source => exact prepareText_spares quiet arguments settings _ source

/-- **What comes before the work touches no file**, whether it leads to any work or not. -/
theorem prepare_spares (libraries : Libraries) (args : List String) (filterText : String) :
    Spares view (prepare libraries system args filterText) := by
  unfold prepare
  split
  · exact .bind (finish_spares quiet _) fun _ => .answer _
  · refine .bind (readSettings_spares quiet libraries _) fun settings => ?_
    cases settings with
    | error complaint => exact refuse_spares quiet complaint
    | ok settings => exact prepareFile_spares quiet _ settings _

end

/-! ## What is written to a file -/

section

variable {W F : Type} {system : System (StateM W)} {files : W → F → Option ByteArray}
  {file : system.Handle → Option F} {h : system.Handle} {w w' w'' : W}
  {held piece more : ByteArray}

/-- Between two worlds some bytes have come behind those that the file of a handle held, and
no other file has changed. -/
structure Grows (files : W → F → Option ByteArray) (file : system.Handle → Option F)
    (h : system.Handle) (w w' : W) (bytes : ByteArray) : Prop where
  here {q : F} {before : ByteArray} (there : file h = some q)
    (holds : files w q = some before) : files w' q = some (before ++ bytes)
  elsewhere {q : F} (hq : file h ≠ some q) : files w' q = files w q

namespace Grows

/-- Files that are spared grow by nothing. -/
theorem of_spared (heq : files w' = files w) : Grows files file h w w' .empty :=
  ⟨fun _ holds => by rw [heq, holds, ByteArray.append_empty], fun _ => by rw [heq]⟩

/-- A file that grows twice has grown by both pieces. -/
theorem trans {first second : ByteArray} (hfirst : Grows files file h w w' first)
    (hsecond : Grows files file h w' w'' second) :
    Grows files file h w w'' (first ++ second) where
  here there holds := by
    rw [hsecond.here there (hfirst.here there holds), ByteArray.append_assoc]
  elsewhere hq := (hsecond.elsewhere hq).trans (hfirst.elsewhere hq)

/-- What spares the files does not count. -/
theorem then_spared {bytes : ByteArray} (hgrows : Grows files file h w w' bytes)
    (heq : files w'' = files w') : Grows files file h w w'' bytes := by
  have hall := hgrows.trans (.of_spared heq)
  rwa [ByteArray.append_empty] at hall

/-- A write makes the file grow by the bytes that were taken. -/
theorem write {bytes : ByteArray} {failure : Option FileError} {n : Nat}
    (laws : FileLaws system files file)
    (run : (system.write h bytes).run w = ((failure, n), w')) :
    Grows files file h w w' (bytes.extract 0 n) :=
  ⟨laws.write_file run, laws.write_other run⟩

end Grows

variable (laws : FileLaws system files file)

include laws

/-- What is held back is written from its beginning on, and what is not written is answered. -/
theorem writeHeld_run {failure : Option FileError} {rest : ByteArray}
    (run : (system.writeHeld h held).run w = ((failure, rest), w')) :
    ∃ part, Grows files file h w w' part ∧ part ++ rest = held ∧
      (failure = none → part = held ∧ rest = .empty) := by
  unfold System.writeHeld at run
  split at run
  · next hempty =>
    cases run
    have hnone : held = .empty :=
      ByteArray.size_eq_zero_iff.1 (by simpa [ByteArray.isEmpty] using hempty)
    exact ⟨.empty, .of_spared rfl, ByteArray.empty_append, fun _ => ⟨hnone.symm, hnone⟩⟩
  · rcases hwrite : (system.write h held).run w with ⟨⟨failed, n⟩, w₁⟩
    rw [run_bind, hwrite] at run
    cases run
    refine ⟨held.extract 0 n, .write laws hwrite, by simp, ?_⟩
    rintro rfl
    rw [laws.write_all hwrite]
    exact ⟨ByteArray.extract_zero_size, ByteArray.extract_same⟩

theorem makeRoom_run {b : Blocks} {size : Nat} {failure : Option FileError} {rest : ByteArray}
    (run : (system.makeRoom h size b.held).run w = ((failure, rest), w')) :
    ∃ part, Grows files file h w w' part ∧ part ++ rest = b.held ∧
      (failure = none → ⟨b.written ++ part, rest⟩ = b.makeRoom size) := by
  unfold System.makeRoom at run
  unfold Blocks.makeRoom
  split at run
  · next hsize =>
    obtain ⟨part, hgrows, hjoin, hall⟩ := writeHeld_run laws run
    refine ⟨part, hgrows, hjoin, fun hnone => ?_⟩
    obtain ⟨rfl, rfl⟩ := hall hnone
    rw [if_pos hsize]
  · next hsize =>
    cases run
    refine ⟨.empty, .of_spared rfl, ByteArray.empty_append, fun _ => ?_⟩
    rw [if_neg hsize, ByteArray.append_empty]

theorem putPiece_run {b : Blocks} (hempty : blockSize ≤ piece.size → b.held = .empty)
    {failure : Option FileError} {rest : ByteArray}
    (run : (system.putPiece h piece b.held).run w = ((failure, rest), w')) :
    ∃ part, Grows files file h w w' part ∧ (∃ tail, part ++ tail = b.held ++ piece) ∧
      (failure = none → ⟨b.written ++ part, rest⟩ = b.putPiece piece) := by
  unfold System.putPiece at run
  unfold Blocks.putPiece
  split at run
  · next hlong =>
    rcases hwrite : (system.write h piece).run w with ⟨⟨failed, n⟩, w₁⟩
    rw [run_bind, hwrite] at run
    cases run
    refine ⟨piece.extract 0 n, .write laws hwrite, ⟨piece.extract n piece.size, ?_⟩, ?_⟩
    · simp [hempty hlong]
    · rintro rfl
      rw [if_pos hlong, laws.write_all hwrite, ByteArray.extract_zero_size]
  · next hshort =>
    cases run
    refine ⟨.empty, .of_spared rfl, ⟨_, ByteArray.empty_append⟩, fun _ => ?_⟩
    rw [if_neg hshort, ByteArray.append_empty]

/-- **A piece** goes where the blocks say if there is no trouble, and in any case a beginning
of what was held back and the piece is written. -/
theorem writePiece_run {b : Blocks} {failure : Option FileError} {rest : ByteArray}
    (run : (system.writePiece h piece b.held).run w = ((failure, rest), w')) :
    ∃ part, Grows files file h w w' part ∧ (∃ tail, part ++ tail = b.held ++ piece) ∧
      (failure = none → ⟨b.written ++ part, rest⟩ = b.add piece) := by
  unfold System.writePiece at run
  rcases hroom : (system.makeRoom h piece.size b.held).run w with ⟨⟨trouble, left⟩, w₁⟩
  obtain ⟨part, hgrows, hjoin, hblocks⟩ := makeRoom_run laws hroom
  rw [run_bind, hroom] at run
  cases trouble with
  | some e =>
      cases run
      refine ⟨part, hgrows, ⟨rest ++ piece, ?_⟩, fun hnone => nomatch hnone⟩
      rw [← ByteArray.append_assoc, hjoin]
  | none =>
      have hblocks := hblocks rfl
      have hheld : left = (b.makeRoom piece.size).held := congrArg Blocks.held hblocks
      subst hheld
      obtain ⟨more, hmore, ⟨tail, htail⟩, hput⟩ := putPiece_run laws b.held_makeRoom run
      refine ⟨part ++ more, hgrows.trans hmore, ⟨tail, ?_⟩, fun hnone => ?_⟩
      · rw [ByteArray.append_assoc, htail, ← ByteArray.append_assoc, hjoin]
      · rw [Blocks.add, ← hput hnone, ← congrArg Blocks.written hblocks, ByteArray.append_assoc]

omit laws in
/-- A step writes a piece, or shows a message at most. -/
theorem stepDeeds_cases (shows : Message → Bool) (step : EmitStep) :
    (∃ text, step = .write text ∧ stepDeeds shows step = [.write text.toUTF8]) ∨
      step.text? = none ∧
        (stepDeeds shows step = [] ∨ ∃ message, stepDeeds shows step = [.say message]) := by
  have hsaying : ∀ message, saying shows message = [] ∨
      ∃ shown, saying shows message = [.say shown] := by
    intro message
    unfold saying
    split
    · exact .inr ⟨message, rfl⟩
    · exact .inl rfl
  cases step with
  | write text => exact .inl ⟨text, rfl, rfl⟩
  | begins f locals => exact .inr ⟨rfl, hsaying _⟩
  | ends functions literals => exact .inr ⟨rfl, hsaying _⟩

omit laws in
/-- A step that writes nothing adds no text. -/
theorem textsOf_silent {step : EmitStep} (h : step.text? = none) (steps : List EmitStep) :
    textsOf (step :: steps) = textsOf steps := by
  rw [textsOf, List.filterMap_cons_none h, textsOf]

omit laws in
/-- The text of a step that writes stands in front of those of the others. -/
theorem join_textsOf_write (text : String) (steps : List EmitStep) :
    (String.join (textsOf (.write text :: steps))).toUTF8 =
      text.toUTF8 ++ (String.join (textsOf steps)).toUTF8 := by
  show (String.join (text :: textsOf steps)).toUTF8 = _
  rw [String.join_cons]
  exact String.toByteArray_append

omit laws in
/-- After trouble nothing more is written of an assembly. -/
theorem perform_trouble (shows : Message → Bool) (e : FileError) (steps : List EmitStep)
    (held : ByteArray) :
    perform system (system.fileOutput h) (some e) (steps.flatMap (stepDeeds shows)) held =
      pure (some e, held) := by
  induction steps with
  | nil => rfl
  | cons step steps ih =>
      rw [List.flatMap_cons]
      obtain ⟨text, _, hdeeds⟩ | ⟨_, hdeeds | ⟨message, hdeeds⟩⟩ := stepDeeds_cases shows step
      all_goals
        rw [hdeeds]
        exact ih

/-- **What is written of the steps of an emission** is what the blocks have, if there is no
trouble, and a beginning of all of it in any case. -/
theorem perform_steps (shows : Message → Bool) {steps : List EmitStep} {b : Blocks}
    {trouble : Option FileError} {rest : ByteArray}
    (run : (perform system (system.fileOutput h) none (steps.flatMap (stepDeeds shows))
      b.held).run w = ((trouble, rest), w')) :
    ∃ part, Grows files file h w w' part ∧
      (∃ tail, part ++ tail = b.held ++ (String.join (textsOf steps)).toUTF8) ∧
      (trouble = none → ⟨b.written ++ part, rest⟩ = b.addTexts (textsOf steps)) := by
  induction steps generalizing b w with
  | nil =>
      cases run
      refine ⟨.empty, .of_spared rfl, ⟨_, ByteArray.empty_append⟩, fun _ => ?_⟩
      rw [ByteArray.append_empty]
      rfl
  | cons step steps ih =>
      rw [List.flatMap_cons] at run
      obtain ⟨text, rfl, hdeeds⟩ | ⟨hsilent, hdeeds | ⟨message, hdeeds⟩⟩ :=
        stepDeeds_cases shows step
      · rcases hpiece : (system.writePiece h text.toUTF8 b.held).run w with ⟨⟨failure, left⟩, w₁⟩
        obtain ⟨part, hgrows, ⟨tail, htail⟩, hblocks⟩ := writePiece_run laws hpiece
        have hwrite : ((system.fileOutput h).write text.toUTF8 b.held).run w =
            ((failure, left), w₁) := hpiece
        rw [hdeeds, List.singleton_append, perform, run_bind, hwrite] at run
        rw [join_textsOf_write]
        cases failure with
        | some e =>
            dsimp only at run
            rw [perform_trouble] at run
            cases run
            refine ⟨part, hgrows, ⟨tail ++ (String.join (textsOf steps)).toUTF8, ?_⟩,
              fun hnone => nomatch hnone⟩
            rw [← ByteArray.append_assoc, htail, ByteArray.append_assoc]
        | none =>
            have hblocks := hblocks rfl
            have hpart := Blocks.append_of_add hblocks
            have hheld : left = (b.add text.toUTF8).held := congrArg Blocks.held hblocks
            subst hheld
            obtain ⟨more, hmore, ⟨last, hlast⟩, hall⟩ := ih run
            refine ⟨part ++ more, hgrows.trans hmore, ⟨last, ?_⟩, fun hnone => ?_⟩
            · rw [ByteArray.append_assoc, hlast, ← ByteArray.append_assoc, hpart,
                ByteArray.append_assoc]
            · show _ = (b.add text.toUTF8).addTexts (textsOf steps)
              rw [← hall hnone, ← congrArg Blocks.written hblocks, ByteArray.append_assoc]
      · rw [hdeeds] at run
        rw [textsOf_silent hsilent]
        exact ih run
      · rw [hdeeds] at run
        rw [textsOf_silent hsilent]
        obtain ⟨part, hgrows, hjoin, hblocks⟩ :=
          ih (w := ((system.complain message.line).run w).2) run
        refine ⟨part, ?_, hjoin, hblocks⟩
        have hall := (Grows.of_spared (laws.complain message.line w)).trans hgrows
        rwa [ByteArray.empty_append] at hall

end

/-! ## Where no write fails -/

section

variable {W α β : Type} {system : System (StateM W)} {h : system.Handle} {calm : W → Prop}
  {w w' : W}

/-- In worlds of a kind the action does not fail, and it does not lead out of them. -/
def GoesWell (calm : W → Prop) (x : StateM W (Option FileError × α)) : Prop :=
  ∀ w, calm w → (x.run w).1.1 = none ∧ calm (x.run w).2

theorem GoesWell.answer (a : α) : GoesWell calm (pure (none, a)) :=
  fun _ hw => ⟨rfl, hw⟩

/-- Two actions after each other go well if the second does where the first has. -/
theorem GoesWell.bind {x : StateM W (Option FileError × α)}
    {f : Option FileError × α → StateM W (Option FileError × β)} (hx : GoesWell calm x)
    (hf : ∀ a, GoesWell calm (f (none, a))) : GoesWell calm (x >>= f) := by
  intro w hw
  have hwell := hx w hw
  rcases hrun : x.run w with ⟨⟨failure, a⟩, w₁⟩
  rw [hrun] at hwell
  obtain ⟨rfl, hw₁⟩ := hwell
  rw [run_bind, hrun]
  exact hf a w₁ hw₁

/-- What goes well in all calm worlds does not fail where no write fails, and no write fails
after it. -/
theorem System.TakesAll.run {x : StateM W (Option FileError × α)} {failure : Option FileError}
    {a : α} (hall : system.TakesAll h w) (hwell : ∀ calm, Calm system h calm → GoesWell calm x)
    (run : x.run w = ((failure, a), w')) : failure = none ∧ system.TakesAll h w' := by
  obtain ⟨calm, hcalm, hw⟩ := hall
  obtain ⟨hnone, hw'⟩ := hwell calm hcalm w hw
  rw [run] at hnone hw'
  exact ⟨hnone, calm, hcalm, hw'⟩

section

variable (hcalm : Calm system h calm)
include hcalm

theorem write_goesWell (bytes : ByteArray) : GoesWell calm (system.write h bytes) :=
  fun _ hw => ⟨hcalm.succeeds hw bytes, hcalm.write hw bytes⟩

/-- What is held back is written. -/
theorem writeHeld_goesWell (held : ByteArray) : GoesWell calm (system.writeHeld h held) := by
  unfold System.writeHeld
  split
  · exact .answer _
  · exact .bind (write_goesWell hcalm held) fun _ => .answer _

/-- So is a piece, or it is held back. -/
theorem writePiece_goesWell (piece held : ByteArray) :
    GoesWell calm (system.writePiece h piece held) := by
  have hroom : GoesWell calm (system.makeRoom h piece.size held) := by
    unfold System.makeRoom
    split
    · exact writeHeld_goesWell hcalm held
    · exact .answer _
  refine .bind hroom fun left => ?_
  show GoesWell calm (system.putPiece h piece left)
  unfold System.putPiece
  split
  · exact .bind (write_goesWell hcalm piece) fun _ => .answer _
  · exact .answer _

/-- Where no write fails there is no trouble. -/
theorem perform_goesWell (deeds : List Deed) :
    ∀ held, GoesWell calm (perform system (system.fileOutput h) none deeds held) := by
  induction deeds with
  | nil => exact fun held => .answer held
  | cons deed deeds ih =>
      intro held
      cases deed with
      | write bytes => exact .bind (writePiece_goesWell hcalm bytes held) ih
      | flush => exact .bind (writeHeld_goesWell hcalm held) ih
      | say message => exact fun w hw => ih held _ (hcalm.complain hw message.line)

end

end

/-! ## Compiling to a file -/

/-- What has been written to the file of a handle when the compilation of a program to it,
which began in the world `w`, ends with a status. -/
structure Leaves {W : Type} (system : System (StateM W)) (h : system.Handle) (p : Program)
    (w : W) (status : Nat) (written : ByteArray) : Prop where
  ends : status = 0 ∨ status = 1
  /-- It is a beginning of what there is to write, which is the assembly text if the program
  compiles. -/
  beginning : ∃ tail, written ++ tail = p.writtenText.toUTF8
  /-- A command that does not fail has written all of it. -/
  whole : status = 0 → ∃ text, p.assemblyText = .ok text ∧ written = text.toUTF8
  /-- A builtin without a routine makes it fail; and if no write fails, then those blocks
  have been written that were full by then. -/
  refused : (∃ f ∈ p.functions, f.lacksRoutine = true) → status = 1 ∧
    (system.TakesAll h w → written = (Blocks.none.addTexts (textsOf p.emission.steps)).written)
  /-- Nothing else makes it fail but writes. -/
  compiled : (∀ f ∈ p.functions, f.lacksRoutine = false) → system.TakesAll h w → status = 0

/-- Writing the assembly of a well-typed program goes well if all of its builtins have
routines. -/
theorem emission_ok_iff {p : Program} (hp : TypedProgram p) :
    p.emission.result = .ok () ↔ ∀ f ∈ p.functions, f.lacksRoutine = false := by
  have htext : p.assemblyText = p.compile.map Assembly.text := rfl
  rw [p.emission_result]
  cases hfind : p.functions.find? Function.lacksRoutine with
  | some f =>
      rw [hp.assemblyText_error hfind] at htext
      cases hcompile : p.compile with
      | error e =>
          have hlacks : f.lacksRoutine = true := List.find?_some hfind
          refine ⟨(fun hok => nomatch hok), fun hall => ?_⟩
          exact nomatch (hall f (List.mem_of_find?_eq_some hfind)).symm.trans hlacks
      | ok a =>
          rw [hcompile] at htext
          cases htext
  | none =>
      obtain ⟨text, hok⟩ := hp.assemblyText_ok hfind
      rw [hok] at htext
      refine ⟨fun _ f hf => Bool.eq_false_iff.2 (List.find?_eq_none.1 hfind f hf), fun _ => ?_⟩
      cases hcompile : p.compile with
      | error e =>
          rw [hcompile] at htext
          cases htext
      | ok a => rfl

/-- A program whose emission ends well has an assembly text. -/
theorem exists_assemblyText {p : Program} (h : p.emission.result = .ok ()) :
    ∃ text, p.assemblyText = .ok text := by
  rw [p.emission_result] at h
  cases hcompile : p.compile with
  | error e =>
      rw [hcompile] at h
      cases h
  | ok a => exact ⟨a.text, Program.assemblyText_of_compile hcompile⟩

section

variable {W F : Type} {system : System (StateM W)} {files : W → F → Option ByteArray}
  {file : system.Handle → Option F} {h : system.Handle} {w w' : W} {status : Nat}

/-- A failure behind everything else is complained of, with status 1. -/
theorem giveUp_run (laws : FileLaws system files file) {complaint : String}
    (run : (giveUp system complaint).run w = (status, w')) :
    status = 1 ∧ files w' = files w := by
  have hspared := giveUp_spares laws.toQuiet complaint w
  rw [run] at hspared
  refine ⟨?_, hspared⟩
  have hstatus : ((giveUp system complaint).run w).1 = 1 := rfl
  rwa [run] at hstatus

/-- What is held back at the end is written, or a beginning of it. -/
theorem finishFile_run (laws : FileLaws system files file) {shows : Message → Bool}
    {path : String} {held : ByteArray}
    (run : (finishFile system shows path h held).run w = (status, w')) :
    ∃ part, Grows files file h w w' part ∧ (∃ tail, part ++ tail = held) ∧
      (status = 0 ∧ part = held ∨ status = 1 ∧ ¬ system.TakesAll h w) := by
  unfold finishFile at run
  rcases hlast : (system.writeHeld h held).run w with ⟨⟨failure, rest⟩, w₁⟩
  obtain ⟨part, hgrows, hrest, hdone⟩ := writeHeld_run laws hlast
  have hflush : ((system.fileOutput h).flush held).run w = ((failure, rest), w₁) := hlast
  rw [run_bind, hflush] at run
  cases failure with
  | some e =>
      rcases hclose : (system.writeHeld h rest).run w₁ with ⟨⟨again, left⟩, w₂⟩
      obtain ⟨more, hmore, hleft, _⟩ := writeHeld_run laws hclose
      have hflush : ((system.fileOutput h).flush rest).run w₁ = ((again, left), w₂) := hclose
      dsimp only at run
      rw [run_bind, hflush] at run
      obtain ⟨rfl, hspared⟩ := giveUp_run laws run
      refine ⟨part ++ more, (hgrows.trans hmore).then_spared hspared, ⟨left, ?_⟩,
        .inr ⟨rfl, fun htakes => ?_⟩⟩
      · rw [ByteArray.append_assoc, hleft, hrest]
      · exact nomatch (htakes.run (fun _ hcalm => writeHeld_goesWell hcalm held) hlast).1
  | none =>
      obtain ⟨rfl, rfl⟩ := hdone rfl
      have hshown := showAll_spares laws.toQuiet shows
        [note .info "" "wrote assembly" [("path", path)]] w₁
      cases run
      exact ⟨part, hgrows.then_spared hshown, ⟨.empty, ByteArray.append_empty⟩, .inl ⟨rfl, rfl⟩⟩

/-- **What compiling to a file leaves there**, and nowhere else. -/
theorem compileInto_run (laws : FileLaws system files file) {shows : Message → Bool}
    {p : Program} (hp : TypedProgram p) {path : String}
    (run : (compileInto system shows p path h).run w = (status, w')) :
    ∃ written, Grows files file h w w' written ∧ Leaves system h p w status written := by
  unfold compileInto at run
  rcases hperform : (perform system (system.fileOutput h) none
    (p.emission.steps.flatMap (stepDeeds shows)) .empty).run w with ⟨⟨trouble, held⟩, w₁⟩
  obtain ⟨part, hgrows, ⟨tail, htail⟩, hblocks⟩ := perform_steps laws shows (b := .none) hperform
  have htail : part ++ tail = p.writtenText.toUTF8 := htail.trans ByteArray.empty_append
  have hcalm : system.TakesAll h w → trouble = none ∧ system.TakesAll h w₁ :=
    fun hall => hall.run (fun _ hcalm => perform_goesWell hcalm _ _) hperform
  rw [run_bind, hperform] at run
  cases trouble with
  | some e =>
      have htakes : ¬ system.TakesAll h w := fun hall => nomatch (hcalm hall).1
      obtain ⟨rfl, hspared⟩ := giveUp_run laws run
      exact ⟨part, hgrows.then_spared hspared, .inr rfl, ⟨tail, htail⟩, (fun h => nomatch h),
        fun _ => ⟨rfl, fun hall => (htakes hall).elim⟩, fun _ hall => (htakes hall).elim⟩
  | none =>
      have hblocks := hblocks rfl
      dsimp only at run
      cases hresult : p.emission.result with
      | error e =>
          have hlacks : ¬ ∀ f ∈ p.functions, f.lacksRoutine = false := by
            rw [← emission_ok_iff hp, hresult]
            exact fun hok => nomatch hok
          have hpart : part = (Blocks.none.addTexts (textsOf p.emission.steps)).written :=
            ByteArray.empty_append.symm.trans (congrArg Blocks.written hblocks)
          rw [hresult] at run
          obtain ⟨rfl, hspared⟩ := giveUp_run laws run
          exact ⟨part, hgrows.then_spared hspared, .inr rfl, ⟨tail, htail⟩, (fun h => nomatch h),
            fun _ => ⟨rfl, fun _ => hpart⟩, fun hok => (hlacks hok).elim⟩
      | ok _ =>
          have hroutines := (emission_ok_iff hp).1 hresult
          have hjoin : part ++ held = p.writtenText.toUTF8 := by
            have hall := Blocks.none.join_addTexts (textsOf p.emission.steps)
            rw [← hblocks] at hall
            simpa [Blocks.join, Blocks.none, Program.writtenText] using hall
          rw [hresult] at run
          obtain ⟨last, hlast, ⟨left, hleft⟩, hends⟩ := finishFile_run laws run
          refine ⟨part ++ last, hgrows.trans hlast, ?_, ⟨left, ?_⟩, ?_, ?_, ?_⟩
          · exact hends.imp And.left And.left
          · rw [ByteArray.append_assoc, hleft, hjoin]
          · rintro rfl
            obtain ⟨_, rfl⟩ | ⟨hone, _⟩ := hends
            · obtain ⟨text, htext⟩ := exists_assemblyText hresult
              exact ⟨text, htext, by rw [hjoin, Program.emission_text htext]⟩
            · cases hone
          · rintro ⟨f, hf, hlacks⟩
            exact nomatch (hroutines f hf).symm.trans hlacks
          · intro _ htakes
            obtain ⟨hzero, _⟩ | ⟨_, hfails⟩ := hends
            · exact hzero
            · exact (hfails (hcalm htakes).2).elim

end

end Slate.CommandLine
