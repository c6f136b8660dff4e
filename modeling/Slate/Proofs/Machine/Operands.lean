import Slate.Proofs.Machine.DataLines
import Slate.Proofs.Machine.Labels
import Slate.Text.Characters

/-!
# Operands as an assembler reads them

An assembler knows what an operand is from its characters alone: an address ends in a bracket,
the registers have their names, a number begins with a digit or a minus sign, a character
stands between apostrophes, and every other word is a label, unless it has a meaning of its own
(`readOperand?`).

Each of them is read as what it was written for (`ReadsAs`), wherever it stands among the
operands of its line: its characters are no marks, and its first and last one are no spaces.  A
label has to be a word for that, and not a reserved one (`Label.Readable`); and it comes back
with its letters only, so that the name of a function cannot be told from a label that was made
up for a loop (`Label.plain`).
-/

namespace Slate

/-! ## Words -/

/-- Words with a meaning of their own, in lower case: registers, sizes, and the names of
instructions and directives. -/
def reservedWords : List String :=
  ["eax", "ebx", "ecx", "edx", "esi", "edi", "ebp", "esp", "ax", "bx", "cx", "dx", "si", "di",
    "bp", "sp", "al", "bl", "cl", "dl", "ah", "bh", "ch", "dh", "cs", "ds", "es", "fs", "gs", "ss",
    "byte", "word", "dword", "qword", "mov", "lea", "push", "pop", "add", "sub", "imul", "div",
    "neg", "not", "inc", "dec", "xor", "cmp", "test", "sete", "setne", "setnz", "setns", "movzx",
    "jmp", "je", "jne", "jnz", "jns", "call", "ret", "int", "db"]

/-- Whether a word has a meaning of its own, in whatever case it is written. -/
def isReserved (word : List Char) : Bool := String.ofList (word.map Char.toLower) ∈ reservedWords

/-- Whether a text can be a word: ASCII letters, digits and underscores, and no digit first. -/
def isSymbol : List Char → Bool
  | [] => false
  | c :: rest => (c.isAlpha || c = '_') && rest.all fun c => c.isAlphanum || c = '_'

/-- A label that starts with a dot belongs to its routine.  No other label is a word with a
meaning of its own. -/
def readLabel? : List Char → Option Label
  | '.' :: name => if isSymbol name then some (.inner (String.ofList name)) else none
  | word => if isSymbol word && !isReserved word then some (.routine (String.ofList word)) else none

/-- The registers by name. -/
def readRegister? (word : List Char) : Option Register :=
  match String.ofList word with
  | "eax" => some .eax
  | "ebx" => some .ebx
  | "ecx" => some .ecx
  | "edx" => some .edx
  | "esi" => some .esi
  | "edi" => some .edi
  | "ebp" => some .ebp
  | "esp" => some .esp
  | _ => none

/-- The byte registers by name. -/
def readByteRegister? (word : List Char) : Option ByteRegister :=
  match String.ofList word with
  | "al" => some .al
  | "dl" => some .dl
  | _ => none

/-! ## Numbers -/

/-- A number in decimal digits. -/
def readDecimal? (digits : List Char) : Option Nat :=
  if digits ≠ [] ∧ digits.all Char.isDigit then some (Nat.ofDigitChars 10 digits 0) else none

/-- A number in hexadecimal digits. -/
def readHex? (digits : List Char) : Option Nat :=
  if digits = [] then none
  else digits.foldlM (fun n c => (Text.hexDigit? c).map (16 * n + ·)) 0

/-- A number: in decimal digits, maybe behind a minus sign, or in hexadecimal ones. -/
def readNumber? : List Char → Option Int
  | '-' :: digits => (readDecimal? digits).map fun n : Nat => -(n : Int)
  | '0' :: 'x' :: digits => (readHex? digits).map Int.ofNat
  | digits => (readDecimal? digits).map Int.ofNat

/-! ## Operands -/

/-- The sizes that can be given for what lies at an address. -/
inductive Size where
  | byte
  | dword
deriving DecidableEq

/-- What an instruction works on. -/
inductive Operand where
  | register (r : Register)
  | byteRegister (r : ByteRegister)
  | address (size : Option Size) (a : Address)
  | number (n : Int)
  | character (c : Char)
  | label (l : Label)
deriving DecidableEq

/-- The offset behind a register. -/
def readOffset? : List Char → Option Int
  | [] => some 0
  | ' ' :: '+' :: ' ' :: digits => (readDecimal? digits).map Int.ofNat
  | ' ' :: '-' :: ' ' :: digits => (readDecimal? digits).map fun n : Nat => -(n : Int)
  | _ => none

/-- The inside of the brackets of an address: a register, maybe with an offset. -/
def readAddress? (inner : List Char) : Option Address := do
  let base ← readRegister? (inner.takeWhile Char.isAlpha)
  let offset ← readOffset? (inner.dropWhile Char.isAlpha)
  pure ⟨base, offset⟩

/-- What is written in front of an address, if it is a size or nothing at all. -/
def readSize? (text : List Char) : Option (Option Size) :=
  match String.ofList text with
  | "" => some none
  | "byte " => some (some .byte)
  | "dword " => some (some .dword)
  | _ => none

/-- An operand that lies in memory: maybe a size, and an address in brackets. -/
def readMemory? (text : List Char) : Option Operand := do
  let size ← readSize? (text.takeWhile (· ≠ '['))
  let a ← readAddress? ((text.dropWhile (· ≠ '[')).drop 1).dropLast
  pure (.address size a)

/-- A character between apostrophes. -/
def readCharacter? : List Char → Option Operand
  | ['\'', c, '\''] => some (.character c)
  | _ => none

/-- An operand, which is in memory if it ends in a bracket. -/
def readOperand? (text : List Char) : Option Operand :=
  if text.getLast? = some ']' then readMemory? text
  else
    ((readRegister? text).map .register).or <| ((readByteRegister? text).map .byteRegister).or <|
      ((readNumber? text).map .number).or <| (readCharacter? text).or <|
        (readLabel? text).map .label

namespace Operand

/-- The word that a number stands for, if it fits. -/
def word? : Operand → Option Int32
  | number n => if -2147483648 ≤ n ∧ n < 4294967296 then some (Int32.ofInt n) else none
  | _ => none

/-- The natural number that is written. -/
def natural? : Operand → Option Nat
  | number n => if 0 ≤ n then some n.toNat else none
  | _ => none

/-- The byte that a number or a character stands for, if it fits. -/
def byte? : Operand → Option ByteConst
  | number n => if 0 ≤ n ∧ n < 256 then some (.number (UInt8.ofNat n.toNat)) else none
  | character c => if c.toNat < 256 then some (.character c) else none
  | _ => none

end Operand

/-! ## Characters of operands -/

/-- The characters that part a text into lines and operands. -/
def isMark (c : Char) : Bool := c ∈ [',', '"', ';', ':', '\n', '\r']

/-- A character of a word is no mark. -/
theorem isMark_of_symbol {c : Char} (h : c.isAlphanum = true ∨ c = '_') : isMark c = false := by
  rw [isMark, decide_eq_false_iff_not]
  intro hmark
  simp only [List.mem_cons, List.not_mem_nil, or_false] at hmark
  rcases hmark with rfl | rfl | rfl | rfl | rfl | rfl <;> exact absurd h (by decide)

/-- A character that stands in no mark is told from each of them. -/
theorem ne_of_isMark {c mark : Char} (hc : isMark c = false) (hmark : isMark mark = true) :
    c ≠ mark := by
  rintro rfl
  rw [hc] at hmark
  cases hmark

/-- What holds of the characters of a text one by one. -/
theorem forall_mem_of_all {P : Char → Prop} [DecidablePred P] {cs : List Char}
    (h : cs.all (fun c => decide (P c)) = true) : ∀ c ∈ cs, P c :=
  fun c hc => of_decide_eq_true (List.all_eq_true.1 h c hc)

/-! ## Operands are read as they are written -/

/-- A text that is read as an operand, wherever it stands among operands. -/
structure ReadsAs (text : String) (operand : Operand) : Prop where
  read : readOperand? text.toList = some operand
  unmarked : ∀ c ∈ text.toList, isMark c = false
  first : text.toList.head? ≠ some ' '
  last : text.toList.getLast? ≠ some ' '

namespace ReadsAs

variable {text : String} {operand : Operand}

/-- A text without spaces has none at its ends. -/
theorem of_spaceless (hread : readOperand? text.toList = some operand)
    (h : ∀ c ∈ text.toList, isMark c = false ∧ c ≠ ' ') : ReadsAs text operand :=
  ⟨hread, fun c hc => (h c hc).1, fun hfirst => (h _ (List.mem_of_head? hfirst)).2 rfl,
    fun hlast => (h _ (List.mem_of_getLast? hlast)).2 rfl⟩

/-- A text that is read as an operand is so with no blank around it. -/
theorem between (h : ReadsAs text operand) : OperandFor readOperand? text.toList operand := by
  refine ⟨cutCommas_plain ?_ ?_, ?_, h.read⟩
  · exact fun hc => ne_of_isMark (h.unmarked _ hc) (by decide) rfl
  · exact fun hc => ne_of_isMark (h.unmarked _ hc) (by decide) rfl
  · cases htext : text.toList with
    | nil => rfl
    | cons c more =>
        have hfirst := h.first
        rw [htext] at hfirst
        exact List.dropWhile_cons_of_neg (by simpa using hfirst)

end ReadsAs

/-! ### Registers -/

/-- The name of a register is read as the register. -/
theorem readRegister?_text (r : Register) : readRegister? r.text.toList = some r := by
  cases r <;> decide

/-- What is read as a register is its name. -/
theorem eq_of_readRegister? {word : List Char} {r : Register} (h : readRegister? word = some r) :
    word = r.text.toList := by
  unfold readRegister? at h
  split at h <;> cases h <;> exact String.toList_ofList.symm.trans (congrArg String.toList ‹_›)

/-- What is read as a byte register is its name. -/
theorem eq_of_readByteRegister? {word : List Char} {r : ByteRegister}
    (h : readByteRegister? word = some r) : word = r.text.toList := by
  unfold readByteRegister? at h
  split at h <;> cases h <;> exact String.toList_ofList.symm.trans (congrArg String.toList ‹_›)

/-- The names of registers are reserved. -/
theorem Register.isReserved_text (r : Register) : isReserved r.text.toList = true := by
  cases r <;> decide

/-- The name of a byte register is reserved. -/
theorem ByteRegister.isReserved_text (r : ByteRegister) : isReserved r.text.toList = true := by
  cases r <;> decide

/-- A word that starts like no register is none. -/
theorem readRegister?_of_head {c : Char} {more : List Char} (hc : c ≠ 'e') :
    readRegister? (c :: more) = none := by
  refine Option.eq_none_iff_forall_not_mem.2 fun r hr => ?_
  have hword := eq_of_readRegister? hr
  cases r <;> exact hc (List.cons.inj hword).1

/-- A word that starts like no byte register is none. -/
theorem readByteRegister?_of_head {c : Char} {more : List Char} (ha : c ≠ 'a') (hd : c ≠ 'd') :
    readByteRegister? (c :: more) = none := by
  refine Option.eq_none_iff_forall_not_mem.2 fun r hr => ?_
  have hword := eq_of_readByteRegister? hr
  cases r with
  | al => exact ha (List.cons.inj hword).1
  | dl => exact hd (List.cons.inj hword).1

/-- A register is read back from its name. -/
theorem readsAs_register (r : Register) : ReadsAs r.text (.register r) := by
  refine .of_spaceless ?_ (by cases r <;> exact forall_mem_of_all (by decide))
  cases r <;> decide

/-- So is a byte register. -/
theorem readsAs_byteRegister (r : ByteRegister) : ReadsAs r.text (.byteRegister r) := by
  refine .of_spaceless ?_ (by cases r <;> exact forall_mem_of_all (by decide))
  cases r <;> decide

/-! ### Numbers -/

/-- The digits of a number. -/
theorem toList_number (n : Nat) : (toString n).toList = Nat.toDigits 10 n := Nat.toList_repr

/-- A negative number is written with a minus sign in front of its digits. -/
theorem toList_negSucc (n : Nat) :
    (toString (Int.negSucc n)).toList = '-' :: (toString (n + 1)).toList := by
  show ("-" ++ toString (n + 1)).toList = _
  rw [String.toList_append]
  rfl

/-- A number has a digit in front. -/
theorem exists_digit (n : Nat) : ∃ d ds, (toString n).toList = d :: ds ∧ d.isDigit = true := by
  obtain ⟨d, ds, heq⟩ := List.exists_cons_of_ne_nil (@Nat.toDigits_ne_nil n 10)
  refine ⟨d, ds, (toList_number n).trans heq, ?_⟩
  exact Nat.isDigit_of_mem_toDigits (by decide) (by decide) (heq ▸ List.mem_cons_self)

/-- The digits of a number are read as the number. -/
theorem readDecimal?_number (n : Nat) : readDecimal? (toString n).toList = some n := by
  have hdigits : (Nat.toDigits 10 n).all Char.isDigit = true :=
    List.all_eq_true.2 fun c hc => Nat.isDigit_of_mem_toDigits (by decide) (by decide) hc
  rw [toList_number, readDecimal?, if_pos ⟨Nat.toDigits_ne_nil, hdigits⟩,
    Nat.ofDigitChars_ten_toDigits]

/-- What begins with a digit is not in hexadecimal digits if all of it is decimal ones. -/
theorem readNumber?_number (n : Nat) : readNumber? (toString n).toList = some (n : Int) := by
  have hread := readDecimal?_number n
  have hminus := @not_mem_number '-' rfl n
  have hhex := @not_mem_number 'x' rfl n
  generalize (toString n).toList = digits at hread hminus hhex
  unfold readNumber?
  split
  · exact (hminus List.mem_cons_self).elim
  · exact (hhex (List.mem_cons_of_mem _ List.mem_cons_self)).elim
  · rw [hread]
    rfl

/-- The digits behind a sign are read as the negative number. -/
theorem readNumber?_negative (n : Nat) :
    readNumber? ('-' :: (toString n).toList) = some (-(n : Int)) := by
  rw [readNumber?, readDecimal?_number]
  rfl

/-- A word that is no operand in memory and starts like no register is a number, a character or
a label. -/
theorem readOperand?_of_head {c : Char} {more : List Char} (hlast : (c :: more).getLast? ≠ some ']')
    (hc : c ∉ ['e', 'a', 'd']) :
    readOperand? (c :: more) = ((readNumber? (c :: more)).map Operand.number).or
      ((readCharacter? (c :: more)).or ((readLabel? (c :: more)).map .label)) := by
  simp only [List.mem_cons, List.not_mem_nil, or_false, not_or] at hc
  rw [readOperand?, if_neg hlast, readRegister?_of_head hc.1,
    readByteRegister?_of_head hc.2.1 hc.2.2]
  rfl

/-- An integer is read as itself. -/
theorem readsAs_int (i : Int) : ReadsAs (toString i) (.number i) := by
  have hmark : ∀ c : Char, isMark c = true ∨ c = ' ' ∨ c = ']' → c.isDigit = false := by
    rintro c (hc | rfl | rfl)
    · rw [isMark, decide_eq_true_eq] at hc
      simp only [List.mem_cons, List.not_mem_nil, or_false] at hc
      rcases hc with rfl | rfl | rfl | rfl | rfl | rfl <;> rfl
    · rfl
    · rfl
  have hplain : ∀ n : Nat, ∀ c ∈ (toString n).toList, isMark c = false ∧ c ≠ ' ' ∧ c ≠ ']' := by
    intro n c hc
    refine ⟨Bool.eq_false_iff.2 fun h => ?_, ?_, ?_⟩
    · exact not_mem_number (hmark c (.inl h)) n hc
    · rintro rfl
      exact not_mem_number rfl n hc
    · rintro rfl
      exact not_mem_number rfl n hc
  have hheads : ∀ d : Char, d.isDigit = true → d ∉ ['e', 'a', 'd'] := by
    intro d hd hmem
    simp only [List.mem_cons, List.not_mem_nil, or_false] at hmem
    rcases hmem with rfl | rfl | rfl <;> cases hd
  cases i with
  | ofNat n =>
      show ReadsAs (toString n) (.number n)
      refine .of_spaceless ?_ fun c hc => ⟨(hplain n c hc).1, (hplain n c hc).2.1⟩
      obtain ⟨d, ds, heq, hd⟩ := exists_digit n
      have hread := readNumber?_number n
      have hlast : (toString n).toList.getLast? ≠ some ']' :=
        fun h => (hplain n _ (List.mem_of_getLast? h)).2.2 rfl
      rw [heq] at hread hlast ⊢
      rw [readOperand?_of_head hlast (hheads d hd), hread]
      rfl
  | negSucc n =>
      have hall : ∀ c ∈ '-' :: (toString (n + 1)).toList, isMark c = false ∧ c ≠ ' ' ∧ c ≠ ']' :=
        List.forall_mem_cons.2 ⟨by decide, hplain (n + 1)⟩
      have hlast : ('-' :: (toString (n + 1)).toList).getLast? ≠ some ']' :=
        fun h => (hall _ (List.mem_of_getLast? h)).2.2 rfl
      refine .of_spaceless ?_ ?_
      · rw [toList_negSucc, readOperand?_of_head hlast (by decide), readNumber?_negative]
        rfl
      · rw [toList_negSucc]
        exact fun c hc => ⟨(hall c hc).1, (hall c hc).2.1⟩

/-! ### Characters -/

/-- What begins with neither a digit nor a minus sign is no number. -/
theorem readNumber?_of_head {c : Char} {more : List Char} (hdigit : c.isDigit = false)
    (hminus : c ≠ '-') : readNumber? (c :: more) = none := by
  unfold readNumber?
  split
  · next heq => exact (hminus (List.cons.inj heq).1).elim
  · next heq =>
    obtain rfl : c = '0' := (List.cons.inj heq).1
    cases hdigit
  · simp [readDecimal?, hdigit]

/-- A byte that can be told from the marks around it: a number, or a character of one byte. -/
def ByteConst.Readable : ByteConst → Prop
  | .number _ => True
  | .character c => isMark c = false ∧ c.toNat < 256

/-- The operand that a byte is read as. -/
def ByteConst.operand : ByteConst → Operand
  | .number n => .number n.toNat
  | .character c => .character c

/-- A byte is read back as the number or the character it was written as. -/
theorem readsAs_byteConst {b : ByteConst} (h : b.Readable) : ReadsAs b.text b.operand := by
  cases b with
  | number n => exact readsAs_int n.toNat
  | character c =>
      have htext : (ByteConst.character c).text.toList = ['\'', c, '\''] := by
        simp [ByteConst.text]
      refine ⟨?_, ?_, ?_, ?_⟩
      · rw [htext, readOperand?_of_head (by simp) (by decide),
          readNumber?_of_head (by decide) (by decide)]
        rfl
      · rw [htext]
        simp only [List.forall_mem_cons]
        exact ⟨by decide, h.1, by decide, List.forall_mem_nil _⟩
      · simp [htext]
      · simp [htext]

/-- The byte that is meant comes back. -/
theorem ByteConst.byte?_operand {b : ByteConst} (h : b.Readable) : b.operand.byte? = some b := by
  cases b with
  | number n =>
      have hlt : n.toNat < 256 := n.toNat_lt
      have hbyte : UInt8.ofNat ((n.toNat : Int)).toNat = n := by
        rw [Int.toNat_natCast, UInt8.ofNat_toNat]
      rw [operand, Operand.byte?, if_pos (by omega), hbyte]
  | character c => exact if_pos h.2

/-! ### Labels -/

/-- A label as far as its letters go. -/
def Label.plain : Label → Label
  | .inner name => .inner name
  | l => .routine l.text

/-- A label that is a word, maybe behind a dot. -/
def Label.IsWord : Label → Prop
  | .inner name => isSymbol name.toList = true
  | l => isSymbol l.text.toList = true

/-- A label that an assembler can read: a word, which has no meaning of its own unless a dot
keeps it apart. -/
def Label.Readable : Label → Prop
  | .inner name => isSymbol name.toList = true
  | l => isSymbol l.text.toList = true ∧ isReserved l.text.toList = false

section

variable {word : List Char} {text name : String} {c other : Char}

/-- A word begins with a letter or an underscore. -/
theorem exists_of_isSymbol (h : isSymbol word = true) :
    ∃ c more, word = c :: more ∧ (c.isAlpha = true ∨ c = '_') := by
  cases word with
  | nil => cases h
  | cons c more =>
      rw [isSymbol, Bool.and_eq_true] at h
      exact ⟨c, more, rfl, by simpa using h.1⟩

/-- The characters of a word. -/
theorem forall_of_isSymbol (h : isSymbol word = true) :
    ∀ c ∈ word, c.isAlphanum = true ∨ c = '_' := by
  cases word with
  | nil => exact List.forall_mem_nil _
  | cons c more =>
      rw [isSymbol, Bool.and_eq_true, List.all_eq_true] at h
      refine List.forall_mem_cons.2 ⟨?_, fun d hd => by simpa using h.2 d hd⟩
      have hfirst : c.isAlpha = true ∨ c = '_' := by simpa using h.1
      exact hfirst.imp_left fun hc => by simp [Char.isAlphanum, hc]

/-- A character of a word is none of the others that stand in an operand. -/
theorem ne_of_symbol (h : c.isAlphanum = true ∨ c = '_')
    (hother : (other.isAlphanum || other = '_') = false) : c ≠ other := by
  rintro rfl
  simp only [Bool.or_eq_false_iff, decide_eq_false_iff_not] at hother
  exact h.elim (fun h => by rw [hother.1] at h; cases h) hother.2

/-- A letter is no digit. -/
theorem isDigit_of_isAlpha (h : c.isAlpha = true) : c.isDigit = false := by
  have hletter : (decide (c.val ≥ 65 ∧ c.val ≤ 90) || c.val ≥ 97 && c.val ≤ 122) = true := h
  change (decide (c.val ≥ 48) && decide (c.val ≤ 57)) = false
  simp only [Bool.or_eq_true, Bool.and_eq_true, Bool.and_eq_false_iff, decide_eq_true_eq,
    decide_eq_false_iff_not, UInt32.le_iff_toNat_le, ge_iff_le] at hletter ⊢
  simp only [UInt32.reduceToNat] at hletter ⊢
  omega

/-- A word that is not reserved is read as a label. -/
theorem readLabel?_word (hsymbol : isSymbol text.toList = true)
    (hreserved : isReserved text.toList = false) :
    readLabel? text.toList = some (.routine text) := by
  obtain ⟨c, more, heq, hc⟩ := exists_of_isSymbol hsymbol
  unfold readLabel?
  split
  · next heq' =>
    rw [heq] at heq'
    obtain rfl : c = '.' := (List.cons.inj heq').1
    exact absurd hc (by decide)
  · rw [hsymbol, hreserved, String.ofList_toList]
    rfl

/-- A symbol that is not reserved is read as the label of a routine. -/
theorem readsAs_word (hsymbol : isSymbol text.toList = true)
    (hreserved : isReserved text.toList = false) : ReadsAs text (.label (.routine text)) := by
  have hall := forall_of_isSymbol hsymbol
  have hread := readLabel?_word hsymbol hreserved
  refine .of_spaceless ?_ fun d hd => ⟨isMark_of_symbol (hall d hd), ne_of_symbol (hall d hd) rfl⟩
  have hlast : text.toList.getLast? ≠ some ']' :=
    fun h => ne_of_symbol (hall _ (List.mem_of_getLast? h)) (by decide) rfl
  obtain ⟨c, more, heq, hc⟩ := exists_of_isSymbol hsymbol
  have hcharacter : readCharacter? (c :: more) = none := by
    unfold readCharacter?
    split
    · next heq' =>
      obtain rfl : c = '\'' := (List.cons.inj heq').1
      exact absurd hc (by decide)
    · rfl
  have hnumber : readNumber? (c :: more) = none := by
    refine readNumber?_of_head ?_ (ne_of_symbol (hall c (heq ▸ List.mem_cons_self)) (by decide))
    exact hc.elim isDigit_of_isAlpha fun h => h ▸ rfl
  have hregister : readRegister? (c :: more) = none := by
    refine Option.eq_none_iff_forall_not_mem.2 fun r hr => ?_
    rw [heq, eq_of_readRegister? hr, r.isReserved_text] at hreserved
    cases hreserved
  have hbyte : readByteRegister? (c :: more) = none := by
    refine Option.eq_none_iff_forall_not_mem.2 fun r hr => ?_
    rw [heq, eq_of_readByteRegister? hr, r.isReserved_text] at hreserved
    cases hreserved
  rw [heq] at hlast hread ⊢
  rw [readOperand?, if_neg hlast, hregister, hbyte, hnumber, hcharacter, hread]
  rfl

/-- A word behind a dot is read as a label, whatever it means otherwise. -/
theorem readLabel?_inner (h : isSymbol name.toList = true) :
    readLabel? ('.' :: name.toList) = some (.inner name) := by
  rw [readLabel?, h, String.ofList_toList]
  rfl

/-- Behind a dot it is read as a label inside one. -/
theorem readsAs_inner (h : isSymbol name.toList = true) :
    ReadsAs ("." ++ name) (.label (.inner name)) := by
  have htext : ("." ++ name).toList = '.' :: name.toList := String.toList_append
  have hall : ∀ d ∈ '.' :: name.toList, isMark d = false ∧ d ≠ ' ' ∧ d ≠ ']' := by
    refine List.forall_mem_cons.2 ⟨by decide, fun d hd => ?_⟩
    have hd := forall_of_isSymbol h d hd
    exact ⟨isMark_of_symbol hd, ne_of_symbol hd rfl, ne_of_symbol hd rfl⟩
  have hlast : ('.' :: name.toList).getLast? ≠ some ']' :=
    fun h => (hall _ (List.mem_of_getLast? h)).2.2 rfl
  refine .of_spaceless ?_ ?_
  · rw [htext, readOperand?_of_head hlast (by decide), readNumber?_of_head (by decide) (by decide),
      readLabel?_inner h]
    rfl
  · rw [htext]
    exact fun d hd => ⟨(hall d hd).1, (hall d hd).2.1⟩

end

namespace Label.Readable

variable {l : Label}

/-- The text of a readable label is read as the label, with nothing left of how it was made. -/
theorem read (h : l.Readable) : readLabel? l.text.toList = some l.plain := by
  cases l with
  | inner name =>
      have htext : (Label.inner name).text.toList = '.' :: name.toList := String.toList_append
      rw [htext]
      exact readLabel?_inner h
  | _ => exact readLabel?_word h.1 h.2

/-- So it is as an operand. -/
theorem readsAs (h : l.Readable) : ReadsAs l.text (.label l.plain) := by
  cases l with
  | inner name => exact readsAs_inner h
  | _ => exact readsAs_word h.1 h.2

end Label.Readable

/-- The characters of a label that is a word. -/
theorem Label.IsWord.forall_mem {l : Label} (h : l.IsWord) :
    ∀ c ∈ l.text.toList, c = '.' ∨ c.isAlphanum = true ∨ c = '_' := by
  cases l with
  | inner name =>
      have htext : (Label.inner name).text.toList = '.' :: name.toList := String.toList_append
      rw [htext]
      exact List.forall_mem_cons.2 ⟨.inl rfl, fun c hc => .inr (forall_of_isSymbol h c hc)⟩
  | _ => exact fun c hc => .inr (forall_of_isSymbol h c hc)

/-! ### Addresses -/

/-- How the offset of an address is written. -/
def offsetText (offset : Int) : String :=
  if offset < 0 then " - " ++ toString offset.natAbs
  else if offset = 0 then ""
  else " + " ++ toString offset.natAbs

/-- What stands between the brackets of an address. -/
def Address.inner (a : Address) : String := a.base.text ++ offsetText a.offset

/-- An offset is read as itself. -/
theorem readOffset?_text (offset : Int) : readOffset? (offsetText offset).toList = some offset := by
  unfold offsetText
  split
  · have hnegative : -((offset.natAbs : Nat) : Int) = offset := by omega
    rw [String.toList_append]
    show (readDecimal? (toString offset.natAbs).toList).map (fun n : Nat => -(n : Int)) = _
    rw [readDecimal?_number, Option.map_some, hnegative]
  · split
    · next hzero => exact hzero ▸ rfl
    · have hpositive : ((offset.natAbs : Nat) : Int) = offset := by omega
      rw [String.toList_append]
      show (readDecimal? (toString offset.natAbs).toList).map Int.ofNat = _
      rw [readDecimal?_number, Option.map_some]
      exact congrArg some hpositive

/-- An offset is written behind a space. -/
theorem offsetText_eq (offset : Int) :
    (offsetText offset).toList = [] ∨ ∃ more, (offsetText offset).toList = ' ' :: more := by
  unfold offsetText
  split
  · exact .inr ⟨_, String.toList_append⟩
  · split
    · exact .inl rfl
    · exact .inr ⟨_, String.toList_append⟩

/-- The characters of an address between its brackets. -/
theorem Address.forall_mem_inner (a : Address) :
    ∀ c ∈ a.inner.toList, isMark c = false ∧ c ≠ '[' ∧ c ≠ ']' := by
  have hnumber : ∀ n : Nat, ∀ c ∈ (toString n).toList, isMark c = false ∧ c ≠ '[' ∧ c ≠ ']' := by
    intro n c hc
    rw [toList_number] at hc
    have hdigit := Nat.isDigit_of_mem_toDigits (by decide) (by decide) hc
    have hsymbol : c.isAlphanum = true ∨ c = '_' := .inl (by simp [Char.isAlphanum, hdigit])
    exact ⟨isMark_of_symbol hsymbol, ne_of_symbol hsymbol rfl, ne_of_symbol hsymbol rfl⟩
  unfold inner offsetText
  rw [String.toList_append]
  refine List.forall_mem_append.2 ⟨by cases a.base <;> exact forall_mem_of_all (by decide), ?_⟩
  split
  · rw [String.toList_append]
    exact List.forall_mem_append.2 ⟨forall_mem_of_all (by decide), hnumber _⟩
  · split
    · exact List.forall_mem_nil _
    · rw [String.toList_append]
      exact List.forall_mem_append.2 ⟨forall_mem_of_all (by decide), hnumber _⟩

/-- An address is written in brackets. -/
theorem Address.text_eq (a : Address) : a.text = "[" ++ a.inner ++ "]" := by
  unfold text inner offsetText
  split
  · simp only [String.append_assoc]
  · split
    · simp
    · simp only [String.append_assoc]

/-- What stands inside the brackets is read as the address. -/
theorem readAddress?_inner (a : Address) : readAddress? a.inner.toList = some a := by
  have hbase : ∀ c ∈ a.base.text.toList, c.isAlpha = true := by
    cases a.base <;> exact forall_mem_of_all (by decide)
  have hbehind : (offsetText a.offset).toList.takeWhile Char.isAlpha = [] ∧
      (offsetText a.offset).toList.dropWhile Char.isAlpha = (offsetText a.offset).toList := by
    rcases offsetText_eq a.offset with heq | ⟨more, heq⟩
    · rw [heq]
      exact ⟨rfl, rfl⟩
    · rw [heq]
      exact ⟨rfl, rfl⟩
  unfold readAddress? Address.inner
  rw [String.toList_append, List.takeWhile_append_of_pos hbase, List.dropWhile_append_of_pos hbase,
    hbehind.1, hbehind.2, List.append_nil, readRegister?_text, readOffset?_text]
  rfl

/-- An address is read as itself, with the size in front of it. -/
theorem readsAs_memory {front : String} {size : Option Size}
    (hsize : readSize? front.toList = some size)
    (hfront : ∀ c ∈ front.toList, isMark c = false ∧ c ≠ '[')
    (hfirst : front.toList.head? ≠ some ' ') (a : Address) :
    ReadsAs (front ++ a.text) (.address size a) := by
  have htext : (front ++ a.text).toList = front.toList ++ '[' :: (a.inner.toList ++ [']']) := by
    simp [a.text_eq]
  have hopen : ∀ c ∈ front.toList, decide (c ≠ '[') = true :=
    fun c hc => decide_eq_true (hfront c hc).2
  have hlast : (front.toList ++ '[' :: (a.inner.toList ++ [']'])).getLast? = some ']' := by
    rw [← List.cons_append, ← List.append_assoc, List.getLast?_concat]
  refine ⟨?_, ?_, ?_, ?_⟩
  · rw [htext, readOperand?, if_pos hlast]
    unfold readMemory?
    rw [List.takeWhile_append_of_pos hopen, List.dropWhile_append_of_pos hopen,
      List.takeWhile_cons_of_neg (by decide), List.dropWhile_cons_of_neg (by decide),
      List.append_nil, hsize, List.drop_succ_cons, List.drop_zero, List.dropLast_concat,
      readAddress?_inner]
    rfl
  · rw [htext]
    refine List.forall_mem_append.2 ⟨fun c hc => (hfront c hc).1, ?_⟩
    refine List.forall_mem_cons.2 ⟨by decide,
      List.forall_mem_append.2 ⟨?_, forall_mem_of_all (by decide)⟩⟩
    exact fun c hc => (a.forall_mem_inner c hc).1
  · rw [htext, List.head?_append]
    cases hhead : front.toList.head? with
    | none => simp
    | some c =>
        rw [hhead] at hfirst
        exact hfirst
  · rw [htext, hlast]
    decide

/-- An address is read back from its text. -/
theorem readsAs_address (a : Address) : ReadsAs a.text (.address none a) := by
  have h := @readsAs_memory "" none rfl (List.forall_mem_nil _) (by simp) a
  rwa [String.empty_append] at h

/-- So is the address of a byte. -/
theorem readsAs_byte (a : Address) : ReadsAs ("byte " ++ a.text) (.address (some .byte) a) :=
  readsAs_memory (by decide) (forall_mem_of_all (by decide)) (by decide) a

/-- So is the address of a word. -/
theorem readsAs_dword (a : Address) : ReadsAs ("dword " ++ a.text) (.address (some .dword) a) :=
  readsAs_memory (by decide) (forall_mem_of_all (by decide)) (by decide) a

/-! ### Values -/

/-- A word is read as itself. -/
theorem word?_int32 (n : Int32) : (Operand.number n.toInt).word? = some n := by
  have hlow := n.le_toInt
  have hhigh := n.toInt_lt
  rw [Operand.word?, if_pos ⟨hlow, by omega⟩, Int32.ofInt_toInt]

/-- A natural number is read as itself. -/
theorem natural?_nat (n : Nat) : (Operand.number n).natural? = some n := by
  rw [Operand.natural?, if_pos (Int.natCast_nonneg n), Int.toNat_natCast]

end Slate
