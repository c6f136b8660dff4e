import Mathlib.Data.List.DropRight
import Slate.Proofs.Machine.Operands

/-!
# Assembly as an assembler reads it

An assembler takes the text of a program apart line by line, without knowing what has made
it.  What stands behind a semicolon is a remark, a line that ends in a colon is a label, and
every other line of code is the name of an instruction with its operands.  A line is only read
if it is understood as a whole (`readListing?`).

What is written of a program is read back, instruction by instruction, line by line and section
by section.  What comes back is the program as far as an assembler can tell: its labels are
known by their letters, and its remarks are gone (`Listing.plain`).  A process that is made from
it takes the same steps (`Loading.run_plain`).

* `Assembly.read_text` — the text of an assembly is read as the assembly, if its labels are
  words without a meaning of their own.
-/

namespace Slate

/-! ## Instructions -/

/-- The condition at the end of the name of an instruction. -/
def readCondition? : List Char → Option Condition
  | ['e'] => some .equal
  | ['n', 'e'] => some .notEqual
  | ['n', 'z'] => some .notZero
  | ['n', 's'] => some .notNegative
  | _ => none

/-- A move, by what it moves from where to where. -/
def readMove? : List Operand → Option Instr
  | [.register dst, .register src] => some (.move dst src)
  | [.register dst, .address none src] => some (.load dst src)
  | [.register dst, .label l] => some (.moveLabel dst l)
  | [.register dst, src] => src.word?.map (.moveConst dst)
  | [.address none dst, .register src] => some (.store dst src)
  | [.address none dst, .byteRegister src] => some (.storeByte dst src)
  | [.address (some .dword) dst, src] => src.word?.map (.storeConst dst)
  | [.address (some .byte) dst, src] => src.byte?.map (.storeByteConst dst)
  | _ => none

/-- An instruction that takes a register as its only operand. -/
def readUnary? (make : Register → Instr) : List Operand → Option Instr
  | [.register r] => some (make r)
  | _ => none

/-- An instruction on two registers, or on a register and a number. -/
def readBinary? (registers : Register → Register → Instr) (constant : Register → Nat → Instr) :
    List Operand → Option Instr
  | [.register dst, .register src] => some (registers dst src)
  | [.register dst, src] => src.natural?.map (constant dst)
  | _ => none

/-- An instruction on two registers and nothing else. -/
def readRegisters? (make : Register → Register → Instr) : List Operand → Option Instr
  | [.register dst, .register src] => some (make dst src)
  | _ => none

/-- An instruction that goes to a label. -/
def readTarget? (make : Label → Instr) : List Operand → Option Instr
  | [.label l] => some (make l)
  | _ => none

/-- An instruction that depends on a condition: `set` on a byte register, or a jump. -/
def readConditional? (name : List Char) (operands : List Operand) : Option Instr :=
  match name, operands with
  | 's' :: 'e' :: 't' :: c, [.byteRegister dst] => (readCondition? c).map (.set · dst)
  | 'j' :: c, [.label l] => (readCondition? c).map (.jumpIf · l)
  | _, _ => none

/-- An instruction by its name and its operands. -/
def readInstr? (name : String) (operands : List Operand) : Option Instr :=
  match name with
  | "mov" => readMove? operands
  | "lea" =>
    match operands with
    | [.register dst, .address none src] => some (.loadAddress dst src)
    | _ => none
  | "push" => readUnary? .push operands
  | "pop" => readUnary? .pop operands
  | "add" =>
    match operands with
    | [.byteRegister dst, src] => src.byte?.map (.addByteConst dst)
    | _ => readBinary? .add .addConst operands
  | "sub" => readBinary? .sub .subConst operands
  | "imul" => readRegisters? .multiply operands
  | "div" => readUnary? .divide operands
  | "neg" => readUnary? .negate operands
  | "not" => readUnary? .complement operands
  | "inc" => readUnary? .increment operands
  | "dec" => readUnary? .decrement operands
  | "xor" => readRegisters? .xor operands
  | "cmp" =>
    match operands with
    | [.byteRegister left, right] => right.natural?.map (.compareByteConst left)
    | _ => readBinary? .compare .compareConst operands
  | "test" => readRegisters? .test operands
  | "movzx" =>
    match operands with
    | [.register dst, .byteRegister src] => some (.widen dst src)
    | _ => none
  | "jmp" => readTarget? .jump operands
  | "call" => readTarget? .call operands
  | "ret" => if operands.isEmpty then some .ret else none
  | "int" =>
    match operands with
    | [.number n] => if n = 128 then some .systemCall else none
    | _ => none
  | _ => readConditional? name.toList operands

/-! ## Lines -/

/-- A line without its remark, and without the spaces in front of that. -/
def withoutRemark (line : List Char) : List Char := (line.takeWhile (· ≠ ';')).rdropWhile (· = ' ')

/-- The operands behind the name of an instruction, cut at the commas. -/
def readOperands? (text : List Char) : Option (List Operand) :=
  if text = [] then some [] else readOperandsWith? readOperand? (text.drop 1)

/-- An instruction with its operands. -/
def readOperation? (line : List Char) : Option Instr := do
  let operands ← readOperands? (line.dropWhile (· ≠ ' '))
  readInstr? (String.ofList (line.takeWhile (· ≠ ' '))) operands

/-- A line of code: a label with its colon, or an instruction. -/
def readLine? (line : List Char) : Option Line :=
  if line.getLast? = some ':' then (readLabel? line.dropLast).map .label
  else (readOperation? line).map .of

/-- The two parts of a program. -/
inductive Section where
  | code
  | data

/-- The lines of a text, section by section.  Empty lines say nothing, and neither does the
declaration of a label that is to be seen from outside. -/
def readLines? : Section → List (List Char) → Option Listing
  | _, [] => some ⟨[], []⟩
  | here, line :: rest =>
    let text := withoutRemark line
    if text = [] then readLines? here rest
    else if text = "section .text".toList then readLines? .code rest
    else if text = "section .data".toList then readLines? .data rest
    else if "global ".toList.isPrefixOf text then readLines? here rest
    else
      match here with
      | .code => do
        let l ← readLine? text
        let more ← readLines? .code rest
        pure { more with lines := l :: more.lines }
      | .data => do
        let d ← readDataLine? line
        let more ← readLines? .data rest
        pure { more with data := d :: more.data }

/-- The code and the data of a program.  It begins with code. -/
def readListing? (text : String) : Option Listing := readLines? .code (Text.lines text.toList)

/-! ## What is left for an assembler -/

/-- An instruction with the letters of its label. -/
def Instr.plain : Instr → Instr
  | .moveLabel dst l => .moveLabel dst l.plain
  | .jump l => .jump l.plain
  | .jumpIf c l => .jumpIf c l.plain
  | .call l => .call l.plain
  | i => i

/-- A line with the letters of its labels, and without its remark. -/
def Line.plain : Line → Line
  | .label l => .label l.plain
  | .instr i _ => .of i.plain

/-- A program with the letters of its labels, and without its remarks. -/
def Listing.plain (a : Listing) : Listing := { a with lines := a.lines.map Line.plain }

/-! ## Instructions are read as they are written -/

/-- What is true of the characters of the name and of the operands, and of what parts them, is
true of all characters of an instruction. -/
theorem forall_mem_operation {P : Char → Prop} {name : String} {texts : List String}
    (hname : ∀ c ∈ name.toList, P c) (hcomma : P ',') (hspace : P ' ')
    (htexts : ∀ t ∈ texts, ∀ c ∈ t.toList, P c) : ∀ c ∈ (operation name texts).toList, P c := by
  unfold operation
  split
  · exact hname
  · simp only [String.toList_append]
    refine List.forall_mem_append.2 ⟨List.forall_mem_append.2 ⟨hname, ?_⟩, fun c hc => ?_⟩
    · exact List.forall_mem_singleton.2 hspace
    · rcases mem_intercalate hc with hc | ⟨t, ht, hc⟩
      · have hsep : c = ',' ∨ c = ' ' := by simpa using hc
        rcases hsep with rfl | rfl
        · exact hcomma
        · exact hspace
      · exact htexts t ht c hc

/-- Whether a text is a word of letters. -/
def isLetters (cs : List Char) : Bool := !cs.isEmpty && cs.all Char.isAlpha

/-- A word is of letters exactly if it has some and nothing else. -/
theorem isLetters_iff {cs : List Char} :
    isLetters cs = true ↔ cs ≠ [] ∧ ∀ c ∈ cs, c.isAlpha = true := by
  simp [isLetters]

/-- A text that is the name of an instruction, with operands that make it this instruction. -/
inductive ReadsTo : String → Instr → Prop
  | operation {name : String} {texts : List String} {operands : List Operand} {i : Instr}
      (word : isLetters name.toList = true)
      (each : List.Forall₂ ReadsAs texts operands) (made : readInstr? name operands = some i) :
      ReadsTo (operation name texts) i

namespace ReadsTo

variable {name : String} {texts : List String} {operands : List Operand} {i : Instr}

/-- An instruction of one operand is read back where its operand is. -/
theorem single {text : String} {a : Operand}
    (hword : isLetters name.toList = true) (ha : ReadsAs text a)
    (hmade : readInstr? name [a] = some i) : ReadsTo (Slate.operation name [text]) i :=
  .operation hword (.cons ha .nil) hmade

/-- An instruction of two operands is read back where both are. -/
theorem pair {first second : String} {a b : Operand}
    (hword : isLetters name.toList = true) (ha : ReadsAs first a)
    (hb : ReadsAs second b) (hmade : readInstr? name [a, b] = some i) :
    ReadsTo (Slate.operation name [first, second]) i :=
  .operation hword (.cons ha (.cons hb .nil)) hmade

/-- A letter is no space. -/
theorem ne_space {c : Char} (h : c.isAlpha = true) : c ≠ ' ' := by
  rintro rfl
  cases h

/-- What is read to an instruction is so as an operation by itself. -/
theorem read {text : String} (h : ReadsTo text i) : readOperation? text.toList = some i := by
  obtain @⟨name, texts, operands, i, hword, each, made⟩ := h
  obtain ⟨_, hletters⟩ := isLetters_iff.1 hword
  have hname : ∀ c ∈ name.toList, decide (c ≠ ' ') = true :=
    fun c hc => decide_eq_true (ne_space (hletters c hc))
  rw [← made]
  unfold readOperation?
  cases each with
  | nil =>
      have htext : (Slate.operation name []).toList = name.toList ++ [] := by
        simp [Slate.operation]
      rw [htext, List.dropWhile_append_of_pos hname, List.takeWhile_append_of_pos hname]
      simp [readOperands?]
  | @cons first operand texts operands hfirst hothers =>
      have htext : (Slate.operation name (first :: texts)).toList =
          name.toList ++ ' ' :: (", ".intercalate (first :: texts)).toList := by
        simp [Slate.operation]
      have hread : readOperandsWith? readOperand? (", ".intercalate (first :: texts)).toList =
          some (operand :: operands) :=
        readOperandsWith?_intercalate ((hothers.cons hfirst).imp fun _ _ h => h.between) (by simp)
      rw [htext, List.dropWhile_append_of_pos hname, List.takeWhile_append_of_pos hname]
      generalize (", ".intercalate (first :: texts)).toList = text at hread
      simp [readOperands?, hread]

/-- No mark stands in the text but commas. -/
theorem forall_mem {text : String} (h : ReadsTo text i) :
    ∀ c ∈ text.toList, isMark c = true → c = ',' := by
  obtain @⟨name, texts, operands, i, hword, each, made⟩ := h
  obtain ⟨_, hletters⟩ := isLetters_iff.1 hword
  have htexts : ∀ t ∈ texts, ∀ c ∈ t.toList, isMark c = false := by
    clear made
    induction each with
    | nil => exact List.forall_mem_nil _
    | cons hfirst _ ih => exact List.forall_mem_cons.2 ⟨hfirst.unmarked, ih⟩
  have hunmarked : ∀ c, isMark c = false → isMark c = true → c = ',' := fun c hc hmark => by
    rw [hc] at hmark
    cases hmark
  refine forall_mem_operation (fun c hc => hunmarked c ?_) (by decide) (by decide)
    fun t ht c hc => hunmarked c ?_
  · exact isMark_of_symbol (.inl (by simp [Char.isAlphanum, hletters c hc]))
  · exact htexts t ht c hc

/-- Operands with commas between them do not end in a space. -/
theorem getLast?_operands (each : List.Forall₂ ReadsAs texts operands) (hne : texts ≠ []) :
    ∃ c, (", ".intercalate texts).toList.getLast? = some c ∧ c ≠ ' ' := by
  induction each with
  | nil => exact (hne rfl).elim
  | @cons first operand texts operands hfirst hothers ih =>
      cases hothers with
      | nil =>
          have hread := hfirst.read
          have hlast := hfirst.last
          rw [String.intercalate_singleton]
          cases heq : first.toList.getLast? with
          | none =>
              rw [List.getLast?_eq_none_iff.1 heq] at hread
              cases hread
          | some c =>
              rw [heq] at hlast
              exact ⟨c, rfl, fun h => hlast (congrArg some h)⟩
      | cons =>
          obtain ⟨c, hc, hspace⟩ := ih (by simp)
          refine ⟨c, ?_, hspace⟩
          rw [String.intercalate_cons_cons, String.toList_append, List.getLast?_append, hc]
          rfl

/-- Neither does the whole instruction. -/
theorem getLast? {text : String} (h : ReadsTo text i) :
    ∃ c, text.toList.getLast? = some c ∧ c ≠ ' ' := by
  obtain @⟨name, texts, operands, i, hword, each, made⟩ := h
  obtain ⟨hne, hletters⟩ := isLetters_iff.1 hword
  unfold Slate.operation
  split
  · refine ⟨_, List.getLast?_eq_some_getLast hne, ?_⟩
    exact ne_space (hletters _ (List.getLast_mem hne))
  · next hempty =>
    obtain ⟨c, hc, hspace⟩ := getLast?_operands each (by simpa using hempty)
    refine ⟨c, ?_, hspace⟩
    rw [String.toList_append, List.getLast?_append, hc]
    rfl

end ReadsTo

/-- An instruction that can be read back. -/
def Instr.Readable : Instr → Prop
  | .moveLabel _ l | .jump l | .jumpIf _ l | .call l => l.Readable
  | .storeByteConst _ b | .addByteConst _ b => b.Readable
  | _ => True

/-- **An instruction is read as itself**, as far as the letters of its label go. -/
theorem Instr.Readable.reads {i : Instr} (h : i.Readable) : ReadsTo i.text i.plain := by
  cases i with
  | moveConst dst n =>
      refine .pair (by decide) (readsAs_register dst) (readsAs_int n.toInt) ?_
      exact congrArg (Option.map _) (word?_int32 n)
  | moveLabel dst l => exact .pair (by decide) (readsAs_register dst) (Label.Readable.readsAs h) rfl
  | move dst src => exact .pair (by decide) (readsAs_register dst) (readsAs_register src) rfl
  | load dst src => exact .pair (by decide) (readsAs_register dst) (readsAs_address src) rfl
  | store dst src => exact .pair (by decide) (readsAs_address dst) (readsAs_register src) rfl
  | storeConst dst n =>
      refine .pair (by decide) (readsAs_dword dst) (readsAs_int n.toInt) ?_
      exact congrArg (Option.map _) (word?_int32 n)
  | storeByte dst src =>
      exact .pair (by decide) (readsAs_address dst) (readsAs_byteRegister src) rfl
  | storeByteConst dst b =>
      refine .pair (by decide) (readsAs_byte dst) (readsAs_byteConst h) ?_
      exact congrArg (Option.map _) (ByteConst.byte?_operand h)
  | loadAddress dst src => exact .pair (by decide) (readsAs_register dst) (readsAs_address src) rfl
  | push src => exact .single (by decide) (readsAs_register src) rfl
  | pop dst => exact .single (by decide) (readsAs_register dst) rfl
  | add dst src => exact .pair (by decide) (readsAs_register dst) (readsAs_register src) rfl
  | addConst dst n =>
      refine .pair (by decide) (readsAs_register dst) (readsAs_int n) ?_
      exact congrArg (Option.map _) (natural?_nat n)
  | addByteConst dst b =>
      refine .pair (by decide) (readsAs_byteRegister dst) (readsAs_byteConst h) ?_
      exact congrArg (Option.map _) (ByteConst.byte?_operand h)
  | sub dst src => exact .pair (by decide) (readsAs_register dst) (readsAs_register src) rfl
  | subConst dst n =>
      refine .pair (by decide) (readsAs_register dst) (readsAs_int n) ?_
      exact congrArg (Option.map _) (natural?_nat n)
  | multiply dst src => exact .pair (by decide) (readsAs_register dst) (readsAs_register src) rfl
  | divide r => exact .single (by decide) (readsAs_register r) rfl
  | negate dst => exact .single (by decide) (readsAs_register dst) rfl
  | complement dst => exact .single (by decide) (readsAs_register dst) rfl
  | increment dst => exact .single (by decide) (readsAs_register dst) rfl
  | decrement dst => exact .single (by decide) (readsAs_register dst) rfl
  | xor dst src => exact .pair (by decide) (readsAs_register dst) (readsAs_register src) rfl
  | compare l r => exact .pair (by decide) (readsAs_register l) (readsAs_register r) rfl
  | compareConst l n =>
      refine .pair (by decide) (readsAs_register l) (readsAs_int n) ?_
      exact congrArg (Option.map _) (natural?_nat n)
  | compareByteConst l n =>
      refine .pair (by decide) (readsAs_byteRegister l) (readsAs_int n) ?_
      exact congrArg (Option.map _) (natural?_nat n)
  | test l r => exact .pair (by decide) (readsAs_register l) (readsAs_register r) rfl
  | set c dst =>
      refine .single (by cases c <;> decide) (readsAs_byteRegister dst) ?_
      cases c <;> rfl
  | widen dst src => exact .pair (by decide) (readsAs_register dst) (readsAs_byteRegister src) rfl
  | jump l => exact .single (by decide) (Label.Readable.readsAs h) rfl
  | jumpIf c l =>
      refine .single (by cases c <;> decide) (Label.Readable.readsAs h) ?_
      cases c <;> rfl
  | call l => exact .single (by decide) (Label.Readable.readsAs h) rfl
  | ret => exact .operation (by decide) .nil rfl
  | systemCall =>
      have hmask : ReadsAs "0x80" (.number 128) :=
        ⟨by decide, forall_mem_of_all (by decide), by decide, by decide⟩
      exact .single (by decide) hmask rfl

/-! ## Lines are read as they are written -/

/-- A line without what ends it. -/
def Line.written : Line → String
  | .label l => l.text ++ ":"
  | .instr i none => i.text
  | .instr i (some remark) => i.text ++ " ; " ++ remark

/-- A line is what is written on it and its end. -/
theorem Line.text_eq (line : Line) : line.text = line.written ++ "\n" := by
  match line with
  | .label l =>
      have hmark : ":\n" = ":" ++ "\n" := by decide
      unfold text written
      rw [hmark, String.append_assoc]
  | .instr i none => rfl
  | .instr i (some remark) => rfl

/-- A line that can be read back. -/
def Line.Readable : Line → Prop
  | .label l => l.Readable
  | .instr i none => i.Readable
  | .instr i (some remark) => i.Readable ∧ '\n' ∉ remark.toList ∧ '\r' ∉ remark.toList

/-- A remark and the spaces in front of it do not count. -/
theorem withoutRemark_append {text rest : List Char} {c : Char} (hsemicolon : ';' ∉ text)
    (hlast : text.getLast? = some c) (hspace : c ≠ ' ')
    (hrest : rest = [] ∨ ∃ more, rest = ' ' :: ';' :: more) :
    withoutRemark (text ++ rest) = text := by
  have htext : ∀ d ∈ text, decide (d ≠ ';') = true := by
    refine fun d hd => decide_eq_true ?_
    rintro rfl
    exact hsemicolon hd
  obtain ⟨front, rfl⟩ := List.getLast?_eq_some_iff.1 hlast
  unfold withoutRemark
  rw [List.takeWhile_append_of_pos htext]
  rcases hrest with rfl | ⟨more, rfl⟩
  · rw [List.takeWhile_nil, List.append_nil,
      List.rdropWhile_concat_neg _ _ _ (by simpa using hspace)]
  · rw [List.takeWhile_cons_of_pos (by decide), List.takeWhile_cons_of_neg (by decide),
      List.rdropWhile_concat_pos _ _ _ (by decide),
      List.rdropWhile_concat_neg _ _ _ (by simpa using hspace)]

/-- A line that is read is not empty, and is no directive. -/
theorem readLine?_directive {text : List Char} {line : Line} (h : readLine? text = some line) :
    text ≠ [] ∧ text ≠ "section .text".toList ∧ text ≠ "section .data".toList ∧
      "global ".toList.isPrefixOf text = false := by
  refine ⟨?_, ?_, ?_, ?_⟩
  · rintro rfl
    cases h
  · rintro rfl
    cases h
  · rintro rfl
    cases h
  · rw [Bool.eq_false_iff]
    intro hglobal
    obtain ⟨rest, rfl⟩ := List.isPrefixOf_iff_prefix.1 hglobal
    unfold readLine? at h
    split at h
    · next hlast =>
      rw [List.dropLast_append_of_ne_nil] at h
      · cases h
      · rintro rfl
        cases hlast
    · have hname : readOperation? ("global ".toList ++ rest) =
          (readOperands? (' ' :: rest)).bind (readInstr? "global") := rfl
      rw [hname] at h
      cases hoperands : readOperands? (' ' :: rest) with
      | none =>
          rw [hoperands] at h
          cases h
      | some operands =>
          rw [hoperands] at h
          cases h

/-- A readable line is read as itself, with its remark gone. -/
theorem Line.Readable.read {line : Line} (h : line.Readable) :
    readLine? (withoutRemark line.written.toList) = some line.plain := by
  match line, h with
  | .label l, h =>
      have hread := h.readsAs
      have htext : (Line.label l).written.toList = (l.text.toList ++ [':']) ++ [] := by
        simp [Line.written]
      have hsemicolon : ';' ∉ l.text.toList ++ [':'] := by
        rw [List.mem_append, not_or]
        exact ⟨fun hc => ne_of_isMark (hread.unmarked _ hc) (by decide) rfl, by decide⟩
      rw [htext, withoutRemark_append hsemicolon List.getLast?_concat (by decide) (.inl rfl),
        readLine?, if_pos List.getLast?_concat, List.dropLast_concat, Label.Readable.read h]
      rfl
  | .instr i remark, h =>
      have hi : i.Readable := by
        cases remark with
        | none => exact h
        | some remark => exact h.1
      have hreads := hi.reads
      obtain ⟨c, hlast, hspace⟩ := hreads.getLast?
      have hsemicolon : ';' ∉ i.text.toList :=
        fun hc => absurd (hreads.forall_mem _ hc (by decide)) (by decide)
      have hcolon : i.text.toList.getLast? ≠ some ':' := fun hc =>
        absurd (hreads.forall_mem _ (List.mem_of_getLast? hc) (by decide)) (by decide)
      have htext : ∃ rest, (Line.instr i remark).written.toList = i.text.toList ++ rest ∧
          (rest = [] ∨ ∃ more, rest = ' ' :: ';' :: more) := by
        cases remark with
        | none => exact ⟨[], by simp [Line.written], .inl rfl⟩
        | some remark => exact ⟨_, by simp [Line.written], .inr ⟨' ' :: remark.toList, rfl⟩⟩
      obtain ⟨rest, htext, hrest⟩ := htext
      rw [htext, withoutRemark_append hsemicolon hlast hspace hrest, readLine?, if_neg hcolon,
        hreads.read]
      rfl

/-- Nothing in the line ends it. -/
def Line.OneLine (line : Line) : Prop := ∀ c ∈ ['\n', '\r'], c ∉ line.written.toList

/-- A line that can be read back is one line. -/
theorem Line.Readable.oneLine {line : Line} (h : line.Readable) : line.OneLine := by
  intro c hc
  have hmark : isMark c = true ∧ c ≠ ',' ∧ c ∉ ":".toList ∧ c ∉ " ; ".toList := by
    simp only [List.mem_cons, List.not_mem_nil, or_false] at hc
    rcases hc with rfl | rfl <;> decide
  obtain ⟨hmark, hcomma, hcolon, hbetween⟩ := hmark
  have hinstr : ∀ i : Instr, i.Readable → c ∉ i.text.toList :=
    fun i hi hmem => hcomma (hi.reads.forall_mem c hmem hmark)
  match line, h with
  | .label l, h =>
      unfold written
      rw [String.toList_append, List.mem_append, not_or]
      exact ⟨fun hmem => ne_of_isMark (h.readsAs.unmarked c hmem) hmark rfl, hcolon⟩
  | .instr i none, h => exact hinstr i h
  | .instr i (some remark), h =>
      have hremark : c ∉ remark.toList := by
        simp only [List.mem_cons, List.not_mem_nil, or_false] at hc
        rcases hc with rfl | rfl
        · exact h.2.1
        · exact h.2.2
      unfold written
      simp only [String.toList_append, List.mem_append, not_or]
      exact ⟨⟨hinstr i h.1, hbetween⟩, hremark⟩

/-! ## Programs are read as they are written -/

/-- The lines of a text that is written line by line. -/
theorem lines_linesText {lines : List Line} (h : ∀ line ∈ lines, line.OneLine)
    (rest : List Char) :
    Text.lines ((linesText lines).toList ++ rest) =
      lines.map (fun line => line.written.toList) ++ Text.lines rest := by
  induction lines with
  | nil => rfl
  | cons line lines ih =>
      obtain ⟨hline, hlines⟩ := List.forall_mem_cons.1 h
      have htext : (linesText (line :: lines)).toList ++ rest =
          line.written.toList ++ '\n' :: ((linesText lines).toList ++ rest) := by
        simp [linesText, line.text_eq]
      rw [htext, Text.lines_append_newline _ _ (hline _ (by simp)) (hline _ (by simp)), ih hlines]
      rfl

/-- The lines of a routine: a blank one, its label and its code. -/
theorem lines_routineText {r : Routine}
    (h : ∀ line ∈ .label (.routine r.name) :: r.lines, line.OneLine) (rest : List Char) :
    Text.lines (r.text.toList ++ rest) =
      [] :: (.label (.routine r.name) :: r.lines).map (fun line => line.written.toList) ++
        Text.lines rest := by
  have htext : r.text.toList ++ rest =
      '\n' :: ((linesText (.label (.routine r.name) :: r.lines)).toList ++ rest) := by
    simp [Routine.text, linesText]
  rw [htext, Text.lines_newline, lines_linesText h]
  rfl

/-- Puts lines of code in front of a listing. -/
def Listing.behind (lines : List Line) (a : Listing) : Listing :=
  { a with lines := lines ++ a.lines }

/-- A line of code is read, and then what is below it. -/
theorem readLines?_line {text : List Char} {line : Line}
    (h : readLine? (withoutRemark text) = some line) (rest : List (List Char)) :
    readLines? .code (text :: rest) = (readLines? .code rest).map (·.behind [line]) := by
  obtain ⟨hempty, hcode, hdata, hglobal⟩ := readLine?_directive h
  rw [readLines?, if_neg hempty, if_neg hcode, if_neg hdata,
    if_neg (Bool.eq_false_iff.1 hglobal), h]
  cases readLines? .code rest <;> rfl

/-- Lines of code are read one by one. -/
theorem readLines?_written {lines : List Line} (h : ∀ line ∈ lines, line.Readable)
    (rest : List (List Char)) :
    readLines? .code (lines.map (fun line => line.written.toList) ++ rest) =
      (readLines? .code rest).map (·.behind (lines.map Line.plain)) := by
  induction lines with
  | nil =>
      show readLines? .code rest = _
      cases readLines? .code rest <;> rfl
  | cons line lines ih =>
      obtain ⟨hline, hlines⟩ := List.forall_mem_cons.1 h
      rw [List.map_cons, List.cons_append, readLines?_line hline.read, ih hlines, Option.map_map]
      rfl

/-- Routines are read one by one. -/
theorem readLines?_routines {rs : List Routine}
    (h : ∀ r ∈ rs, ∀ line ∈ .label (.routine r.name) :: r.lines, line.Readable)
    (rest : List Char) :
    readLines? .code (Text.lines ((String.join (rs.map Routine.text)).toList ++ rest)) =
      (readLines? .code (Text.lines rest)).map
        (·.behind (rs.flatMap fun r => (.label (.routine r.name) :: r.lines).map Line.plain)) := by
  induction rs with
  | nil =>
      have hnone : (String.join ([].map Routine.text)).toList ++ rest = rest := by simp
      rw [hnone]
      cases readLines? .code (Text.lines rest) <;> rfl
  | cons r rs ih =>
      obtain ⟨hr, hrs⟩ := List.forall_mem_cons.1 h
      have htext : (String.join ((r :: rs).map Routine.text)).toList ++ rest =
          r.text.toList ++ ((String.join (rs.map Routine.text)).toList ++ rest) := by
        simp
      have hblank : ∀ ls, readLines? .code ([] :: ls) = readLines? .code ls := fun _ => rfl
      rw [htext, lines_routineText fun line hline => (hr line hline).oneLine, List.cons_append,
        hblank, readLines?_written hr, ih hrs, Option.map_map, List.flatMap_cons]
      refine congrArg (Option.map · _) (funext fun a => ?_)
      exact congrArg (Listing.mk · a.data) (List.append_assoc _ _ _).symm

/-- The entry stub can be read. -/
theorem entryStub_readable : ∀ line ∈ Line.label .entry :: entryStub, line.Readable := by
  refine List.forall_mem_cons.2 ⟨⟨by decide, by decide⟩, ?_⟩
  refine List.forall_mem_cons.2 ⟨⟨by decide, by decide⟩, ?_⟩
  refine List.forall_mem_cons.2 ⟨trivial, ?_⟩
  refine List.forall_mem_cons.2 ⟨⟨trivial, by decide, by decide⟩, ?_⟩
  exact List.forall_mem_singleton.2 trivial

/-- What comes before the routines is read as the entry stub, if there is one. -/
theorem readLines?_header (hasEntry : Bool) (rest : List Char) :
    readLines? .code (Text.lines ((Assembly.headerText hasEntry).toList ++ rest)) =
      (readLines? .code (Text.lines rest)).map
        (·.behind (if hasEntry then (.label .entry :: entryStub).map Line.plain else [])) := by
  have hsection : ∀ text : List Char,
      readLines? .code (Text.lines ("section .text\n".toList ++ text)) =
        readLines? .code (Text.lines text) := by
    intro text
    have hlines := Text.lines_append_newline "section .text".toList text (by decide) (by decide)
    have hhead : "section .text\n".toList ++ text = "section .text".toList ++ '\n' :: text := rfl
    rw [hhead, hlines]
    rfl
  cases hasEntry with
  | false =>
      show readLines? .code (Text.lines ("section .text\n".toList ++ rest)) = _
      rw [hsection]
      cases readLines? .code (Text.lines rest) <;> rfl
  | true =>
      have htext : (Assembly.headerText true).toList ++ rest = "global _start".toList ++ '\n' ::
          '\n' :: ("section .text\n".toList ++
            ((linesText (.label .entry :: entryStub)).toList ++ rest)) := by
        rw [Assembly.headerText, if_pos rfl]
        simp only [String.toList_append, List.append_assoc]
        rfl
      have hglobal : ∀ ls, readLines? .code ("global _start".toList :: [] :: ls) =
          readLines? .code ls := fun _ => rfl
      rw [htext, Text.lines_append_newline _ _ (by decide) (by decide), Text.lines_newline, hglobal,
        hsection, lines_linesText fun line hline => (entryStub_readable line hline).oneLine,
        readLines?_written entryStub_readable]
      rfl

/-- Lines of data that begin with the name of a data line are read one by one. -/
theorem readLines?_dataLines {lines : List (List Char)}
    (h : ∀ line ∈ lines, ∃ more, line = 'd' :: more) :
    readLines? .data lines = (lines.mapM readDataLine?).map (⟨[], ·⟩) := by
  induction lines with
  | nil => rfl
  | cons line lines ih =>
      obtain ⟨⟨more, rfl⟩, hlines⟩ := List.forall_mem_cons.1 h
      have hhead : ∃ rest, withoutRemark ('d' :: more) = 'd' :: rest := by
        unfold withoutRemark
        rw [List.takeWhile_cons_of_pos (by decide)]
        generalize more.takeWhile (· ≠ ';') = front
        obtain ⟨tail, heq⟩ := List.rdropWhile_prefix (· = ' ') ('d' :: front)
        cases hkept : ('d' :: front).rdropWhile (· = ' ') with
        | nil =>
            exact absurd (List.rdropWhile_eq_nil_iff.1 hkept 'd' List.mem_cons_self) (by decide)
        | cons c rest =>
            rw [hkept] at heq
            exact ⟨rest, congrArg (· :: rest) (List.cons.inj heq).1⟩
      obtain ⟨rest, hhead⟩ := hhead
      have hread : readLines? .data (('d' :: more) :: lines) = (do
          let d ← readDataLine? ('d' :: more)
          let more ← readLines? .data lines
          pure { more with data := d :: more.data }) := by
        rw [readLines?, hhead]
        rfl
      rw [hread, List.mapM_cons, ih hlines]
      cases readDataLine? ('d' :: more) with
      | none => rfl
      | some d => cases lines.mapM readDataLine? <;> rfl

/-- The data section is read as its data lines. -/
theorem readLines?_data (literals : List String) :
    readLines? .code (Text.lines (Assembly.dataSectionText literals).toList) =
      some ⟨[], literals.mapIdx fun i s => ((Label.data i).text, dataBytes s)⟩ := by
  have hread := readDataLines?_text literals 0
  have htext : (Assembly.dataSectionText literals).toList =
      '\n' :: ("section .data".toList ++ '\n' :: (dataLinesText 0 literals).toList) := by
    simp [Assembly.dataSectionText]
  have hsection : ∀ ls, readLines? .code ([] :: "section .data".toList :: ls) =
      readLines? .data ls := fun _ => rfl
  have hlines : ∀ line ∈ Text.lines (dataLinesText 0 literals).toList,
      ∃ more, line = 'd' :: more := by
    intro line hline
    rw [lines_dataLinesText, List.mem_mapIdx] at hline
    obtain ⟨n, _, rfl⟩ := hline
    rw [dataLine, Label.text_data]
    exact ⟨_, rfl⟩
  unfold readDataLines? at hread
  rw [htext, Text.lines_newline, Text.lines_append_newline _ _ (by decide) (by decide), hsection,
    readLines?_dataLines hlines, hread]
  simp

/-- **The text of an assembly is read as the assembly**, if every line can be read back. -/
theorem Assembly.read_text {a : Assembly} (h : ∀ line ∈ a.lines, line.Readable) :
    readListing? a.text = some a.listing.plain := by
  have hroutines : ∀ r ∈ a.routines, ∀ line ∈ .label (.routine r.name) :: r.lines,
      line.Readable := fun r hr line hline =>
    h line (List.mem_append_right _ (List.mem_flatMap.2 ⟨r, hr, hline⟩))
  have htext : a.text.toList = (headerText a.hasEntry).toList ++
      ((String.join (a.routines.map Routine.text)).toList ++
        (dataSectionText a.literals).toList) := by
    unfold text
    rw [String.toList_append, String.toList_append, List.append_assoc]
  unfold readListing?
  rw [htext, readLines?_header, readLines?_routines hroutines, readLines?_data]
  unfold Assembly.listing Assembly.lines Listing.plain Listing.behind
  simp only [Option.map_some, List.append_nil, List.map_append, List.map_flatMap]
  cases a.hasEntry <;> rfl

/-! ## Processes -/

/-- The letters of a label are what it is found by. -/
theorem Label.key_plain (l : Label) : l.plain.key = l.key := by
  cases l <;> rfl

/-- A label names what it named when only its text is kept. -/
theorem Label.names_plain (l other : Label) : l.plain.names other.plain = l.names other := by
  rw [Bool.eq_iff_iff, Label.names_iff, Label.names_iff, key_plain, key_plain]

namespace Listing

variable (a : Listing) (l : Label)

/-- Labels with the same letters are found in the same place. -/
theorem target?_congr {l m : Label} (h : l.key = m.key) : a.target? l = a.target? m := by
  unfold target?
  congr 1
  funext line
  cases line with
  | label other =>
      show l.names other = m.names other
      rw [Bool.eq_iff_iff, Label.names_iff, Label.names_iff, h]
  | instr _ _ => rfl

/-- So a label leads to the line it led to. -/
theorem target?_plain : a.plain.target? l.plain = a.target? l := by
  unfold target? plain
  rw [List.findIdx?_map]
  congr 1
  funext line
  cases line with
  | label other => exact l.names_plain other
  | instr _ _ => rfl

/-- So does the label of the entry. -/
theorem target?_entry_plain : a.plain.target? .entry = a.target? .entry :=
  (a.plain.target?_congr (Label.key_plain .entry).symm).trans (a.target?_plain .entry)

/-- A label of data stands for the data it stood for. -/
theorem datum?_plain : a.plain.datum? l.plain = a.datum? l := by
  unfold datum? plain
  congr 1
  funext line
  exact l.names_plain (.routine line.1)

end Listing

namespace Loading

variable {a : Listing} (loading : Loading a.plain) {m : Machine}

/-- The place of a program is one for what is left of it. -/
def ofPlain : Loading a :=
  { loading with
    locate_code := fun n hn => loading.locate_code n (by simpa [Listing.plain] using hn)
    aside := loading.aside }

/-- A label has the address it had. -/
theorem symbol_plain (l : Label) : loading.symbol l.plain = loading.ofPlain.symbol l := by
  unfold symbol
  rw [a.target?_plain, a.datum?_plain]
  rfl

/-- So a jump goes where it went. -/
theorem jump_plain (l : Label) (m : Machine) :
    jump (a := a.plain) l.plain m = jump (a := a) l m := by
  unfold jump
  rw [a.target?_plain]

/-- An instruction does the same if only the letters of its label are known. -/
theorem execute_plain (m : Machine) (i : Instr) :
    loading.execute m i.plain = loading.ofPlain.execute m i := by
  cases i with
  | moveLabel dst l =>
      unfold execute Instr.plain
      dsimp only
      rw [loading.symbol_plain]
  | jump l => exact jump_plain l m
  | jumpIf c l =>
      unfold execute Instr.plain
      dsimp only
      rw [jump_plain]
  | call l =>
      unfold execute Instr.plain
      dsimp only
      simp only [jump_plain]
      rfl
  | _ => rfl

/-- So each step is the one it was. -/
theorem step_plain (m : Machine) : loading.step m = loading.ofPlain.step m := by
  have hline : a.plain.lines[m.line]? = a.lines[m.line]?.map Line.plain := List.getElem?_map
  unfold step
  rw [hline]
  cases a.lines[m.line]? with
  | none => rfl
  | some line =>
      cases line with
      | label l => rfl
      | instr i remark => exact loading.execute_plain m i

/-- **A process takes the same steps** if only the letters of labels are known. -/
theorem run_plain (n : Nat) (m : Machine) : loading.run n m = loading.ofPlain.run n m := by
  induction n generalizing m with
  | zero => rfl
  | succ n ih =>
      have hrest : loading.run n = loading.ofPlain.run n := funext ih
      rw [run, run, step_plain, hrest]

/-- It starts in the same states. -/
theorem Starts.ofPlain {loading : Loading a.plain} {m : Machine} (h : loading.Starts m) :
    loading.ofPlain.Starts m :=
  ⟨a.target?_entry_plain ▸ h.line, h.stack, h.loaded, h.output⟩

end Loading

end Slate
