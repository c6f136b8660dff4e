import Slate.Proofs.Compile.Definitions
import Slate.Proofs.Flow.Texts
import Slate.Proofs.Machine.Listing

/-!
# The assembly of accepted programs as it is written

The labels in the assembly of an accepted program are words: names of functions are, and what
the compiler makes up is made from them, from a few words, and from numbers.  So every line that
the compiler writes is one line of the text (`RoutineOf.lines_text`), whatever the functions
are called.

A label that the compiler makes up has an underscore, and so it has no meaning of its own for an
assembler.  If this is also true of the names of functions, the whole text is read back
(`AssemblyOf.read_text`).
-/

namespace Slate

/-! ## Words -/

section

variable {word more : List Char} {name : String}

/-- A name of a program is a word for an assembler too. -/
theorem isSymbol_of_isName (h : isName name = true) : isSymbol name.toList = true := by
  have hword := Lexeme.isWord_of_isName h
  unfold isWord at hword
  cases htext : name.toList with
  | nil =>
      rw [htext] at hword
      cases hword
  | cons c more =>
      rw [htext] at hword
      exact hword

/-- The names of the functions of an accepted program are words. -/
theorem frontEnd_names {source : String} {file : Option String} {p : Program}
    (h : frontEnd source file = .ok p) : ∀ f ∈ p.functions, isSymbol f.name.toList = true :=
  fun f hf => isSymbol_of_isName ((frontEnd_fromSource h).wellNamed f hf).1

/-- A word goes on with more characters of words. -/
theorem isSymbol_append (h : isSymbol word = true)
    (hmore : ∀ c ∈ more, c.isAlphanum = true ∨ c = '_') : isSymbol (word ++ more) = true := by
  cases word with
  | nil => cases h
  | cons c rest =>
      rw [isSymbol, Bool.and_eq_true] at h
      rw [List.cons_append, isSymbol, h.1, List.all_append, h.2, Bool.true_and, Bool.true_and,
        List.all_eq_true]
      exact fun d hd => by simpa using hmore d hd

/-- The digits of a number can go on a word. -/
theorem forall_mem_number (n : Nat) :
    ∀ c ∈ (toString n).toList, c.isAlphanum = true ∨ c = '_' := by
  intro c hc
  rw [toList_number] at hc
  have hdigit := Nat.isDigit_of_mem_toDigits (by decide) (by decide) hc
  exact .inl (by simp [Char.isAlphanum, hdigit])

/-- No reserved word has an underscore. -/
theorem isReserved_of_mem (h : '_' ∈ word) : isReserved word = false := by
  have hnone : ∀ reserved ∈ reservedWords, '_' ∉ reserved.toList := by decide
  rw [isReserved, decide_eq_false_iff_not]
  intro hmem
  refine hnone _ hmem ?_
  rw [String.toList_ofList]
  exact List.mem_map.2 ⟨'_', h, rfl⟩

end

/-! ## Labels -/

variable {p : Program} {f : Function} {a : Assembly} {r : Routine} {l : Label}
  {literals : List String}

theorem Label.isWord_control (h : isSymbol f.name.toList = true) (c : Construct) (i : Nat) :
    (Label.control f.name c i).IsWord := by
  show isSymbol (Label.control f.name c i).text.toList = true
  rw [text_control, List.append_assoc, ← List.singleton_append, ← List.singleton_append]
  refine isSymbol_append h ?_
  refine List.forall_mem_append.2 ⟨List.forall_mem_cons.2 ⟨.inr rfl, ?_⟩, ?_⟩
  · cases c <;> exact forall_mem_of_all (by decide)
  · exact List.forall_mem_cons.2 ⟨.inr rfl, forall_mem_number i⟩

theorem Label.isWord_data (i : Nat) : (Label.data i).IsWord := by
  show isSymbol (Label.data i).text.toList = true
  rw [text_data]
  exact isSymbol_append (by decide) (List.forall_mem_cons.2 ⟨.inr rfl, forall_mem_number i⟩)

/-- The labels that stand in a routine or are referred to in it. -/
def Routine.labels (r : Routine) : List Label :=
  .routine r.name :: labelsOf r.lines ++ referencesOf r.lines

/-- The label that stands on a line or is referred to there. -/
def Line.label? : Line → Option Label
  | .label l => some l
  | .instr i _ => i.label?

theorem Routine.mem_labels {line : Line} (hline : line ∈ r.lines) (hl : line.label? = some l) :
    l ∈ r.labels := by
  cases line with
  | label m =>
      refine List.mem_append_left _ (List.mem_cons_of_mem _ (List.mem_filterMap.2 ⟨_, hline, ?_⟩))
      exact hl
  | instr i remark => exact List.mem_append_right _ (List.mem_filterMap.2 ⟨_, hline, hl⟩)

section

variable (h : RoutineOf literals f r) (hf : TypedFunction p.signatures f) (hmem : f ∈ p.functions)
include h hf hmem

/-- They are names of functions, or the compiler has made them up. -/
theorem RoutineOf.label_kinds (hl : l ∈ r.labels) :
    (∃ g ∈ p.functions, l = .routine g.name) ∨ (∃ c i, l = .control f.name c i) ∨
      (∃ i, l = .data i) ∨ l ∈ [.inner "digit", .inner "write"] := by
  have hstanding : l ∈ Label.routine r.name :: labelsOf r.lines → (∃ g ∈ p.functions,
      l = .routine g.name) ∨ (∃ c i, l = .control f.name c i) ∨ (∃ i, l = .data i) ∨
        l ∈ [.inner "digit", .inner "write"] := by
    intro hl
    rcases List.mem_cons.1 hl with rfl | hl
    · exact .inl ⟨f, hmem, by rw [h.name_eq]⟩
    · rcases h.labels with ⟨_, hnumbered⟩ | ⟨_, hinner⟩
      · obtain ⟨c, i, rfl, _⟩ := hnumbered.each l hl
        exact .inr (.inl ⟨c, i, rfl⟩)
      · exact .inr (.inr (.inr (hinner ▸ hl)))
  rcases List.mem_append.1 hl with hl | hl
  · exact hstanding hl
  · rcases h.resolved hf l hl with hsupplied | hstands
    · cases hsupplied with
      | data known => exact .inr (.inr (.inl ⟨_, rfl⟩))
      | routine known =>
          obtain ⟨g, hg, rfl, _⟩ := mem_of_signatures known
          exact .inl ⟨g, hg, rfl⟩
    · exact hstanding (List.mem_cons_of_mem _ hstands)

variable (hnames : ∀ g ∈ p.functions, isSymbol g.name.toList = true)
include hnames

/-- **Labels are words** if the names of functions are. -/
theorem RoutineOf.isWord : ∀ l ∈ r.labels, l.IsWord := by
  intro l hl
  rcases h.label_kinds hf hmem hl with ⟨g, hg, rfl⟩ | ⟨c, i, rfl⟩ | ⟨i, rfl⟩ | hl
  · exact hnames g hg
  · exact Label.isWord_control (hnames f hmem) c i
  · exact Label.isWord_data i
  · simp only [List.mem_cons, List.not_mem_nil, or_false] at hl
    rcases hl with rfl | rfl <;> exact rfl

/-- Labels can be read if the names of functions are words without a meaning of their own: those
that the compiler makes up have an underscore. -/
theorem RoutineOf.label_readable (hfree : ∀ g ∈ p.functions, isReserved g.name.toList = false) :
    ∀ l ∈ r.labels, l.Readable := by
  intro l hl
  have hword := h.isWord hf hmem hnames l hl
  rcases h.label_kinds hf hmem hl with ⟨g, hg, rfl⟩ | ⟨c, i, rfl⟩ | ⟨i, rfl⟩ | hl
  · exact ⟨hword, hfree g hg⟩
  · refine ⟨hword, isReserved_of_mem ?_⟩
    rw [Label.text_control]
    exact List.mem_append_right _ List.mem_cons_self
  · refine ⟨hword, isReserved_of_mem ?_⟩
    rw [Label.text_data]
    exact List.mem_append_right _ List.mem_cons_self
  · simp only [List.mem_cons, List.not_mem_nil, or_false] at hl
    rcases hl with rfl | rfl <;> exact hword

end

/-! ## Lines -/

/-- An instruction of a function can be read if its label can. -/
theorem Instr.readable_of_inFunction {i : Instr} (h : i.inFunction = true)
    (hlabel : ∀ l, i.label? = some l → l.Readable) : i.Readable := by
  cases i <;> first | trivial | exact hlabel _ rfl

/-- The lines of the print routine can be read. -/
theorem printRoutine_readable : ∀ line ∈ printRoutine, line.Readable := by
  have hinner : (Label.inner "digit").Readable ∧ (Label.inner "write").Readable := ⟨rfl, rfl⟩
  simp [printRoutine, Line.of, Line.Readable, Instr.Readable, ByteConst.Readable, hinner, isMark]

/-- The lines of a function with a body are made of the instructions of functions. -/
theorem RoutineOf.inFunction (h : RoutineOf literals f r) (hblock : f.builtin = false) :
    ∀ line ∈ r.lines, line.inFunction = true := by
  cases h with
  | builtin builtin name =>
      rw [hblock] at builtin
      cases builtin
  | block block tracked compiled numbered known =>
      have hending : ∀ line ∈ codeLines (if endsInReturn f.body then [] else f.epilogue),
          line.inFunction = true := by
        split
        · exact List.forall_mem_nil _
        · exact inFunction_codeLines f.inFunction_epilogue
      refine List.forall_mem_append.2 ⟨List.forall_mem_append.2 ⟨?_, ?_⟩, hending⟩
      · exact inFunction_codeLines f.inFunction_prologue
      · exact (bodyCode_iff.1 compiled).inFunction

/-- Those of any other function are the print routine. -/
theorem RoutineOf.made (h : RoutineOf literals f r) :
    r.lines = printRoutine ∨ ∀ line ∈ r.lines, line.inFunction = true := by
  cases hblock : f.builtin with
  | false => exact .inr (h.inFunction hblock)
  | true =>
      cases h with
      | builtin builtin name => exact .inl rfl
      | block block tracked compiled numbered known =>
          rw [hblock] at block
          cases block

/-- The lines of a routine can be read if its labels can. -/
theorem RoutineOf.readable (h : RoutineOf literals f r) (hlabels : ∀ l ∈ r.labels, l.Readable) :
    ∀ line ∈ Line.label (.routine r.name) :: r.lines, line.Readable := by
  refine List.forall_mem_cons.2 ⟨hlabels _ List.mem_cons_self, ?_⟩
  rcases h.made with hprint | hmade
  · exact hprint ▸ printRoutine_readable
  · intro line hline
    cases line with
    | label l => exact hlabels l (r.mem_labels hline rfl)
    | instr i remark =>
        obtain ⟨hi, hremark⟩ := Bool.and_eq_true_iff.1 (hmade _ hline)
        rw [Option.isNone_iff_eq_none.1 hremark] at hline ⊢
        exact Instr.readable_of_inFunction hi fun l hl => hlabels l (r.mem_labels hline hl)

/-- **The text of a program is read as its assembly**, if the names of its functions are words
without a meaning of their own. -/
theorem AssemblyOf.read_text (ha : AssemblyOf p a) (hp : TypedProgram p)
    (hnames : ∀ f ∈ p.functions, isSymbol f.name.toList = true)
    (hfree : ∀ f ∈ p.functions, isReserved f.name.toList = false) :
    readListing? a.text = some a.listing.plain := by
  refine Assembly.read_text (List.forall_mem_append.2 ⟨?_, fun line hline => ?_⟩)
  · split
    · exact entryStub_readable
    · exact List.forall_mem_nil _
  · obtain ⟨r, hr, hline⟩ := List.mem_flatMap.1 hline
    obtain ⟨f, hf, hroutine⟩ := ha.function r hr
    exact hroutine.readable (hroutine.label_readable (hp.each f hf) hf hnames hfree) line hline

/-! ## Lines of the text -/

/-- An instruction of a function stays on its line if its label is a word. -/
theorem Instr.oneLine {i : Instr} (h : i.inFunction = true)
    (hlabel : ∀ l, i.label? = some l → l.IsWord) : ∀ c ∈ ['\n', '\r'], c ∉ i.text.toList := by
  intro c hc
  simp only [List.mem_cons, List.not_mem_nil, or_false] at hc
  have hplain : i.Readable → c ∉ i.text.toList := by
    intro hi hmem
    have hcomma := hi.reads.forall_mem c hmem
    rcases hc with rfl | rfl <;> exact absurd (hcomma (by decide)) (by decide)
  have hword : ∀ l : Label, l.IsWord → c ∉ l.text.toList := by
    intro l hl hmem
    have hletter := hl.forall_mem c hmem
    rcases hc with rfl | rfl <;> exact absurd hletter (by decide)
  have hlabelled : ∀ (name : String) (texts : List String) (l : Label), i.label? = some l →
      c ∉ name.toList → (∀ t ∈ texts, c ∉ t.toList) →
        c ∉ (operation name (texts ++ [l.text])).toList := by
    intro name texts l hl hname htexts hmem
    have hall :=
      List.forall_mem_append.2 ⟨htexts, List.forall_mem_singleton.2 (hword l (hlabel l hl))⟩
    refine @forall_mem_operation (· ≠ c) name (texts ++ [l.text]) ?_ ?_ ?_ ?_ c hmem rfl
    · exact fun d hd heq => hname (heq ▸ hd)
    · rcases hc with rfl | rfl <;> decide
    · rcases hc with rfl | rfl <;> decide
    · exact fun t ht d hd heq => hall t ht (heq ▸ hd)
  cases i with
  | moveLabel dst l =>
      refine hlabelled "mov" [dst.text] l rfl ?_ (List.forall_mem_singleton.2 ?_)
      · rcases hc with rfl | rfl <;> decide
      · cases dst <;> rcases hc with rfl | rfl <;> decide
  | jump l =>
      refine hlabelled "jmp" [] l rfl ?_ (List.forall_mem_nil _)
      rcases hc with rfl | rfl <;> decide
  | jumpIf condition l =>
      refine hlabelled ("j" ++ condition.text) [] l rfl ?_ (List.forall_mem_nil _)
      cases condition <;> rcases hc with rfl | rfl <;> decide
  | call l =>
      refine hlabelled "call" [] l rfl ?_ (List.forall_mem_nil _)
      rcases hc with rfl | rfl <;> decide
  | storeByteConst | addByteConst => cases h
  | _ => exact hplain trivial

/-- Every line of a function with a body is one line of the text if its labels are words. -/
theorem RoutineOf.oneLine (h : RoutineOf literals f r) (hlabels : ∀ l ∈ r.labels, l.IsWord) :
    ∀ line ∈ Line.label (.routine r.name) :: r.lines, line.OneLine := by
  have hlabel : ∀ l ∈ r.labels, (Line.label l).OneLine := by
    intro l hl c hc
    have hletters := (hlabels l hl).forall_mem c
    simp only [List.mem_cons, List.not_mem_nil, or_false] at hc
    unfold Line.written
    rw [String.toList_append, List.mem_append, not_or]
    rcases hc with rfl | rfl
    · exact ⟨fun hmem => absurd (hletters hmem) (by decide), by decide⟩
    · exact ⟨fun hmem => absurd (hletters hmem) (by decide), by decide⟩
  refine List.forall_mem_cons.2 ⟨hlabel _ List.mem_cons_self, ?_⟩
  rcases h.made with hprint | hmade
  · exact fun line hline => (printRoutine_readable line (hprint ▸ hline)).oneLine
  · intro line hline
    cases line with
    | label l => exact hlabel l (r.mem_labels hline rfl)
    | instr i remark =>
        obtain ⟨hi, hremark⟩ := Bool.and_eq_true_iff.1 (hmade _ hline)
        rw [Option.isNone_iff_eq_none.1 hremark] at hline ⊢
        exact i.oneLine hi fun l hl => hlabels l (r.mem_labels hline hl)

/-- The lines of a text. -/
def linesOf (text : String) : List String := (Text.lines text.toList).map String.ofList

/-- Whether a text begins with another one. -/
def beginsWith (start text : String) : Bool := start.toList.isPrefixOf text.toList

/-- The lines of a text that begin with another one. -/
def linesWith (start text : String) : List String := (linesOf text).filter (beginsWith start)

/-- A label that is a word has only letters, digits, underscores and dots. -/
theorem Label.IsWord.not_mem {l : Label} (h : l.IsWord) {c : Char}
    (hc : (c = '.' || c.isAlphanum || c = '_') = false) : c ∉ l.text.toList := by
  intro hmem
  simp only [Bool.or_eq_false_iff, decide_eq_false_iff_not] at hc
  rcases h.forall_mem c hmem with hdot | halnum | hunderscore
  · exact hc.1.1 hdot
  · rw [hc.1.2] at halnum
    cases halnum
  · exact hc.2 hunderscore

/-- So its line does not begin like an instruction with operands. -/
theorem Label.IsWord.beginsWith_eq_false {l : Label} (h : l.IsWord) {start : String}
    (hstart : ' ' ∈ start.toList) : beginsWith start (l.text ++ ":") = false := by
  rw [Bool.eq_false_iff]
  intro hbegins
  have hmem := (List.isPrefixOf_iff_prefix.1 hbegins).subset hstart
  rw [String.toList_append] at hmem
  rcases List.mem_append.1 hmem with hmem | hmem
  · exact h.not_mem rfl hmem
  · exact absurd hmem (by decide)

/-- **The lines of a routine are those of its text**, whatever the functions are called. -/
theorem RoutineOf.lines_text (h : RoutineOf literals f r) (hlabels : ∀ l ∈ r.labels, l.IsWord) :
    linesOf r.text = "" :: (Line.label (.routine r.name) :: r.lines).map Line.written := by
  have hlines := lines_routineText (h.oneLine hlabels) []
  rw [List.append_nil, Text.lines_nil, List.append_nil] at hlines
  unfold linesOf
  rw [hlines]
  simp

/-- The text of a program has the text of each of its routines. -/
theorem Program.assemblyText_eq (hcompiled : p.compile = .ok a) (hr : r ∈ a.routines) :
    ∃ before after, p.assemblyText = .ok (before ++ r.text ++ after) := by
  obtain ⟨front, back, heq⟩ := List.append_of_mem hr
  refine ⟨Assembly.headerText a.hasEntry ++ String.join (front.map Routine.text),
    String.join (back.map Routine.text) ++ Assembly.dataSectionText a.literals, ?_⟩
  rw [Program.assemblyText_of_compile hcompiled]
  refine congrArg Except.ok ?_
  unfold Assembly.text
  rw [heq]
  simp [String.append_assoc]

end Slate
