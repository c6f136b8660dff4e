import Slate.CommandLine.Directory
import Slate.Grammar.Reading

/-!
# Files

What is known of the files of a system, whatever it is (`FileLaws`): which of its actions
leave all files alone, and what becomes of a file that is opened or written to.  These are the
customs of files: one that is opened for writing is made or emptied, at once, or nothing
happens to any; and a write adds a beginning of its bytes at the end.  Nothing is said about
where a name leads, or about when an action fails.

The directory that exists only as a value is such a system: setting the contents of a file
changes what is found at its path and nowhere else.

* `Directory.file?_put` — setting the contents of a file;
* `Directory.system_laws` — the directory keeps the laws.
-/

namespace Slate.CommandLine

variable {W F : Type}

/-- Nothing that is seen in a view of the world is changed by reading, printing and
complaining. -/
structure Quiet {V : Type} (system : System (StateM W)) (view : W → V) : Prop where
  read (name : String) (w : W) : view ((system.read name).run w).2 = view w
  print (bytes : ByteArray) (w : W) : view ((system.print bytes).run w).2 = view w
  flush (w : W) : view (system.flush.run w).2 = view w
  complain (text : String) (w : W) : view ((system.complain text).run w).2 = view w

/-- **What is known of the files of a system.**  In a world `w` the files are those that have
contents in `files w`, by whatever it is that tells files apart; and `file h` is the file that
is written to by way of `h`, if that is not a device. -/
structure FileLaws (system : System (StateM W)) (files : W → F → Option ByteArray)
    (file : system.Handle → Option F) : Prop extends Quiet system files where
  /-- A file that cannot be opened is left alone. -/
  create_error {name : String} {w w' : W} {e : FileError}
    (run : (system.create name).run w = (.error e, w')) : files w' = files w
  /-- A file that is opened is empty then. -/
  create_file {name : String} {w w' : W} {h : system.Handle}
    (run : (system.create name).run w = (.ok h, w')) {q : F} (here : file h = some q) :
    files w' q = some .empty
  create_other {name : String} {w w' : W} {h : system.Handle}
    (run : (system.create name).run w = (.ok h, w')) {q : F} (elsewhere : file h ≠ some q) :
    files w' q = files w q
  /-- A write that does not fail has written all the bytes. -/
  write_all {h : system.Handle} {bytes : ByteArray} {w w' : W} {n : Nat}
    (run : (system.write h bytes).run w = ((none, n), w')) : n = bytes.size
  /-- What is written comes behind what the file holds. -/
  write_file {h : system.Handle} {bytes : ByteArray} {w w' : W} {failure : Option FileError}
    {n : Nat} (run : (system.write h bytes).run w = ((failure, n), w')) {q : F}
    {held : ByteArray} (here : file h = some q) (holds : files w q = some held) :
    files w' q = some (held ++ bytes.extract 0 n)
  write_other {h : system.Handle} {bytes : ByteArray} {w w' : W} {failure : Option FileError}
    {n : Nat} (run : (system.write h bytes).run w = ((failure, n), w')) {q : F}
    (elsewhere : file h ≠ some q) : files w' q = files w q

/-- In worlds of a kind no write by way of a handle fails, and neither writing so nor
complaining leads out of them. -/
structure Calm (system : System (StateM W)) (h : system.Handle) (calm : W → Prop) : Prop where
  succeeds {w : W} (hw : calm w) (bytes : ByteArray) : ((system.write h bytes).run w).1.1 = none
  write {w : W} (hw : calm w) (bytes : ByteArray) : calm ((system.write h bytes).run w).2
  complain {w : W} (hw : calm w) (text : String) : calm ((system.complain text).run w).2

/-- From a world on, no write by way of a handle fails. -/
def System.TakesAll (system : System (StateM W)) (h : system.Handle) (w : W) : Prop :=
  ∃ calm, Calm system h calm ∧ calm w

namespace Directory

variable {d : Directory} {path : Path}

/-! ## Contents -/

/-- A file set to some bytes is found with them, and any other with its own. -/
theorem lookup_map_set (files : List (Path × ByteArray)) (path q : Path) (bytes : ByteArray) :
    (files.map fun file => if file.1 = path then (path, bytes) else file).lookup q =
      if q = path then (files.lookup q).map fun _ => bytes else files.lookup q := by
  induction files with
  | nil => simp
  | cons file files ih =>
      obtain ⟨p, contents⟩ := file
      rw [List.map_cons]
      by_cases hp : p = path
      · subst hp
        by_cases hq : q = p
        · subst hq
          simp
        · have hne : (q == p) = false := beq_eq_false_iff_ne.2 hq
          simp only [if_pos, List.lookup_cons, hne, ih, if_neg hq]
      · rw [if_neg hp]
        by_cases hq : q = p
        · subst hq
          simp [hp]
        · have hne : (q == p) = false := beq_eq_false_iff_ne.2 hq
          simp only [List.lookup_cons, hne, ih]

/-- **Setting the contents of a file** changes that file and no other. -/
theorem file?_put (d : Directory) (path q : Path) (bytes : ByteArray) :
    (d.put path bytes).file? q = if q = path then some bytes else d.file? q := by
  unfold put
  split
  · next hsome =>
    show List.lookup q (d.files.map _) = _
    rw [lookup_map_set]
    split
    · next hq =>
      obtain ⟨contents, hcontents⟩ := Option.isSome_iff_exists.1 hsome
      have hlookup : d.files.lookup q = some contents := hq ▸ hcontents
      rw [hlookup]
      rfl
    · rfl
  · next hnone =>
    show List.lookup q (d.files ++ [(path, bytes)]) = _
    rw [List.lookup_append]
    split
    · next hq =>
      subst hq
      have hlookup : d.files.lookup q = none := Option.not_isSome_iff_eq_none.1 hnone
      simp [hlookup]
    · next hq =>
      have hne : (q == path) = false := beq_eq_false_iff_ne.2 hq
      simp [List.lookup_cons, hne, file?]

/-! ## The directory as a system -/

/-- The file at a place. -/
def placeFile : Place → Option Path
  | .within path => some path
  | .beyond _ => none

/-- A file that is made or emptied is the only one that changes. -/
theorem file?_create {name : String} {place : Place} {d' : Directory}
    (h : d.create name = .ok (place, d')) (q : Path) :
    d'.file? q = if placeFile place = some q then some .empty else d.file? q := by
  obtain ⟨reached, _, hmade⟩ := bind_eq_ok.1 h
  cases reached with
  | within path =>
      cases hmade
      have hput : (d.put path .empty).file? q = if placeFile (.within path) = some q then
          some .empty else d.file? q := by
        rw [file?_put]
        simp [placeFile, eq_comm]
      exact hput
  | beyond path =>
      cases hmade
      rfl

/-- What goes to a device touches no file. -/
theorem file?_send {d' : Directory} {bytes : ByteArray} {device : Device}
    (h : d.send bytes device = .ok d') : d'.file? = d.file? := by
  cases device with
  | full =>
      simp only [send] at h
      split at h
      · cases h
        rfl
      · cases h
  | _ =>
      cases h
      rfl

/-- What is written to a file comes behind what it holds, and changes no other file; what is
written to a file that is gone, or beyond the directory, changes none. -/
theorem file?_write {bytes : ByteArray} {place : Place} {answer : Option FileError × Nat}
    {d' : Directory} (h : d.write bytes place = (answer, d')) (q : Path) :
    d'.file? q = if placeFile place = some q then
      (d.file? q).map (· ++ bytes.extract 0 answer.2) else d.file? q := by
  unfold write at h
  split at h
  · next path =>
    have hsame : placeFile (.within path) = some q ↔ q = path := by
      simp [placeFile, eq_comm]
    simp only [hsame]
    split at h
    · next held hfile =>
      cases h
      refine (file?_put d path q _).trans ?_
      split
      · next hq => rw [hq, hfile, Option.map_some]
      · rfl
    · next hfile =>
      cases h
      split
      · next hq => rw [hq, hfile, Option.map_none]
      · rfl
  · next path =>
    have hbeyond : placeFile (.beyond path) ≠ some q := (Option.some_ne_none q).symm
    rw [if_neg hbeyond]
    split at h
    · cases h
      rfl
    · next hsent =>
      cases h
      obtain ⟨device, _, hsent⟩ := Option.map_eq_some_iff.1 hsent
      rw [file?_send hsent]
    · cases h
      rfl

/-- No more fits than is asked for. -/
theorem fitting_le (d : Directory) (count : Nat) : d.fitting count ≤ count := by
  unfold fitting
  split
  · exact Nat.le_refl _
  · exact Nat.min_le_left _ _

/-- A write that does not fail has written all the bytes. -/
theorem size_write {bytes : ByteArray} {place : Place} {n : Nat} {d' : Directory}
    (h : d.write bytes place = ((none, n), d')) : n = bytes.size := by
  unfold write at h
  split at h
  · split at h
    · obtain ⟨hanswer, _⟩ := Prod.mk.inj h
      obtain ⟨hnone, rfl⟩ := Prod.mk.inj hanswer
      refine Nat.le_antisymm (d.fitting_le _) (Nat.le_of_not_lt fun hlt => ?_)
      rw [if_pos hlt] at hnone
      cases hnone
    · cases h
      rfl
  · split at h <;> cases h
    · rfl
    · rfl

/-- A file that cannot be created leaves the directory as it is. -/
theorem system_create_error {name : String} {e : FileError} {d' : Directory}
    (h : (Directory.system.create name).run d = (.error e, d')) : d' = d := by
  have hopened : d.opened (d.create name) = (.error e, d') := h
  cases hcreate : d.create name with
  | error e =>
      rw [hcreate] at hopened
      cases hopened
      rfl
  | ok made =>
      rw [hcreate] at hopened
      cases hopened

/-- A file that can be is created in the directory. -/
theorem system_create_ok {name : String} {place : Place} {d' : Directory} :
    (Directory.system.create name).run d = (.ok place, d') ↔ d.create name = .ok (place, d') := by
  show d.opened (d.create name) = _ ↔ _
  cases d.create name with
  | error e => exact ⟨(fun h => nomatch h), fun h => nomatch h⟩
  | ok made =>
      constructor
      · intro h
        cases h
        rfl
      · intro h
        cases h
        rfl

/-- The files and the room beside them, of which all else in a directory is independent. -/
def stored (d : Directory) : List (Path × ByteArray) × Option Nat := (d.files, d.room)

/-- The system of directories does nothing to the files but where it says so. -/
theorem system_quiet : Quiet Directory.system stored :=
  ⟨fun _ _ => rfl, fun _ _ => rfl, fun _ => rfl, fun _ _ => rfl⟩

/-- **The directory keeps the laws of files.** -/
theorem system_laws : FileLaws Directory.system Directory.file? placeFile where
  read _ _ := rfl
  print _ _ := rfl
  flush _ := rfl
  complain _ _ := rfl
  create_error run := by rw [system_create_error run]
  create_file run _ here := by rw [file?_create (system_create_ok.1 run), if_pos here]
  create_other run _ elsewhere := by
    rw [file?_create (system_create_ok.1 run), if_neg elsewhere]
  write_all run := size_write run
  write_file run _ _ here holds := by rw [file?_write run, if_pos here, holds, Option.map_some]
  write_other run _ elsewhere := by rw [file?_write run, if_neg elsewhere]

/-- Where there is room for any number of bytes, all that is written to files is taken. -/
theorem system_takesAll (hroom : d.room = none) (path : Path) :
    Directory.system.TakesAll (.within path) d := by
  have hroomy (d : Directory) (path : Path) (held bytes : ByteArray) :
      (d.append path held bytes).2.room = d.room.map (· - (d.append path held bytes).1) := rfl
  refine ⟨fun d => d.room = none, ⟨fun {d} hd bytes => ?_, fun {d} hd bytes => ?_,
    fun hd _ => hd⟩, hroom⟩
  · show (d.write bytes (.within path)).1.1 = none
    unfold write
    dsimp only
    split
    · next held _ =>
      have hfits : (d.append path held bytes).1 = bytes.size := by
        show d.fitting bytes.size = bytes.size
        rw [fitting, hd]
      exact if_neg (by rw [hfits]; exact Nat.lt_irrefl _)
    · rfl
  · show (d.write bytes (.within path)).2.room = none
    unfold write
    dsimp only
    split
    · show (d.append path _ bytes).2.room = none
      rw [hroomy, hd]
      rfl
    · exact hd

end Directory

end Slate.CommandLine
