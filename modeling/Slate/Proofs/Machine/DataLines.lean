import Mathlib.Data.List.Forall2
import Slate.Proofs.Machine.Basic
import Slate.Text.Lines

/-!
# Data lines as an assembler reads them

An assembler takes a data line apart without knowing what it was made from: the label up to
the colon, `db`, and operands between commas (`readDataLine?`).  A text between double quotes
stands for its bytes as they are, whatever else it looks like, and a decimal number stands for
one byte.  There is no way to write a quote between quotes, and no other escape.

* `readDataLines?_text` — the data lines of some strings are read as the labels and the bytes
  they were made for: every string with a zero byte behind it.
-/

namespace Slate

/-! ## Reading -/

/-- Cuts a text at its commas, except for those between double quotes; `quoted` says whether the
text begins between quotes. -/
def cutCommas (quoted : Bool) : List Char → List (List Char)
  | [] => [[]]
  | c :: rest =>
    if c = ',' ∧ quoted = false then [] :: cutCommas false rest
    else Text.consLine c (cutCommas (if c = '"' then !quoted else quoted) rest)

/-- The bytes that an operand stands for. -/
def operandBytes? : List Char → Option (List UInt8)
  | '"' :: rest =>
    if rest.getLast? = some '"' ∧ '"' ∉ rest.dropLast then
      some (String.ofList rest.dropLast).toUTF8.data.toList
    else none
  | digits =>
    if digits ≠ [] ∧ digits.all Char.isDigit ∧ Nat.ofDigitChars 10 digits 0 < 256 then
      some [UInt8.ofNat (Nat.ofDigitChars 10 digits 0)]
    else none

/-- Reads the operands of a text between its commas.  Spaces in front of an operand do not
belong to it. -/
def readOperandsWith? {α : Type} (read : List Char → Option α) (text : List Char) :
    Option (List α) :=
  (cutCommas false text).mapM fun operand => read (operand.dropWhile (· = ' '))

/-- The bytes that operands stand for, one after the other. -/
def operandsBytes? (text : List Char) : Option (List UInt8) :=
  (readOperandsWith? operandBytes? text).map List.flatten

/-- The label of a data line and the bytes of its operands. -/
def readDataLine? (line : List Char) : Option (String × List UInt8) :=
  match line.dropWhile (· ≠ ':') with
  | ':' :: ' ' :: 'd' :: 'b' :: ' ' :: operands => do
    let bytes ← operandsBytes? operands
    pure (String.ofList (line.takeWhile (· ≠ ':')), bytes)
  | _ => none

/-- The labels and the bytes of data lines. -/
def readDataLines? (text : String) : Option (List (String × List UInt8)) :=
  (Text.lines text.toList).mapM readDataLine?

/-! ## Operands -/

/-- The bytes that an operand was made for. -/
def DataOperand.bytes : DataOperand → List UInt8
  | quoted s => s.toUTF8.data.toList
  | byte b => [b]

/-- An operand that can be told from what is around it. -/
def DataOperand.Clear : DataOperand → Prop
  | quoted s => '"' ∉ s.toList
  | byte _ => True

variable {text rest first inner : List Char} {more : List (List Char)} {operand : DataOperand}
  {operands : List DataOperand}

/-- A text without commas and quotes belongs to the operand that goes on behind it. -/
theorem cutCommas_plain (hcomma : ',' ∉ text) (hquote : '"' ∉ text)
    (hrest : cutCommas false rest = first :: more) :
    cutCommas false (text ++ rest) = (text ++ first) :: more := by
  induction text with
  | nil => exact hrest
  | cons c text ih =>
      rw [List.mem_cons, not_or] at hcomma hquote
      rw [List.cons_append, cutCommas, if_neg fun h => hcomma.1 h.1.symm,
        if_neg fun h => hquote.1 h.symm, ih hcomma.2 hquote.2]
      rfl

/-- So does what stands between quotes, up to the quote that ends it. -/
theorem cutCommas_inner (hquote : '"' ∉ inner)
    (hrest : cutCommas false rest = first :: more) :
    cutCommas true (inner ++ '"' :: rest) = (inner ++ '"' :: first) :: more := by
  induction inner with
  | nil =>
      rw [List.nil_append, cutCommas, if_neg (by simp), if_pos rfl, Bool.not_true, hrest]
      rfl
  | cons c inner ih =>
      rw [List.mem_cons, not_or] at hquote
      rw [List.cons_append, cutCommas, if_neg (by simp), if_neg fun h => hquote.1 h.symm,
        ih hquote.2]
      rfl

/-- A text that is read as a value wherever it stands between commas. -/
structure OperandFor {α : Type} (read : List Char → Option α) (text : List Char) (value : α) :
    Prop where
  uncut : ∀ {rest first : List Char} {more : List (List Char)},
    cutCommas false rest = first :: more → cutCommas false (text ++ rest) = (text ++ first) :: more
  start : text.dropWhile (· = ' ') = text
  read : read text = some value

section

variable {α : Type} {read : List Char → Option α} {value : α} {texts : List String}
  {values : List α}

/-- Operands between commas are cut there, with the space behind each comma. -/
theorem cutCommas_operands {first : String} (hfirst : OperandFor read first.toList value)
    (h : List.Forall₂ (fun text : String => OperandFor read text.toList) texts values) :
    cutCommas false (", ".intercalate (first :: texts)).toList =
      first.toList :: texts.map fun text => ' ' :: text.toList := by
  induction h generalizing first value with
  | nil =>
      have hnone : cutCommas false [] = [[]] := rfl
      have hone := hfirst.uncut hnone
      rw [List.append_nil] at hone
      simpa using hone
  | @cons next _ others _ hnext _ ih =>
      have hrest := ih hnext
      generalize hbehind : (", ".intercalate (next :: others)).toList = behind at hrest
      have hspace : cutCommas false (' ' :: behind) =
          (' ' :: next.toList) :: others.map fun text => ' ' :: text.toList :=
        @cutCommas_plain [' '] _ _ _ (by decide) (by decide) hrest
      have hcut : cutCommas false (',' :: ' ' :: behind) =
          [] :: cutCommas false (' ' :: behind) := by
        rw [cutCommas, if_pos ⟨rfl, rfl⟩]
      rw [hspace] at hcut
      have hall := hfirst.uncut hcut
      rw [List.append_nil] at hall
      rw [String.intercalate_cons_cons, String.toList_append, String.toList_append, hbehind,
        List.append_assoc]
      exact hall

/-- **Operands between commas are read one by one.** -/
theorem readOperandsWith?_intercalate
    (h : List.Forall₂ (fun text : String => OperandFor read text.toList) texts values)
    (hne : texts ≠ []) : readOperandsWith? read (", ".intercalate texts).toList = some values := by
  cases h with
  | nil => exact (hne rfl).elim
  | @cons first value texts values hfirst hothers =>
      have hrest : (texts.map fun text => ' ' :: text.toList).mapM (fun operand =>
          read (operand.dropWhile (· = ' '))) = some values := by
        clear hfirst hne
        induction hothers with
        | nil => rfl
        | cons hnext _ ih =>
            rw [List.map_cons, List.mapM_cons, List.dropWhile_cons_of_pos (by simp), hnext.start,
              hnext.read, ih]
            rfl
      unfold readOperandsWith?
      rw [cutCommas_operands hfirst hothers, List.mapM_cons, hfirst.start, hfirst.read, hrest]
      rfl

end

/-- The digits of a number have no commas, quotes or spaces. -/
theorem not_mem_number {c : Char} (hc : c.isDigit = false) (n : Nat) :
    c ∉ (toString n).toList := by
  intro hmem
  have hdigits : c ∈ Nat.toDigits 10 n := by
    rw [← Nat.toList_repr]
    exact hmem
  rw [Nat.isDigit_of_mem_toDigits (by decide) (by decide) hdigits] at hc
  cases hc

/-- An operand ends at the comma behind it and not before. -/
theorem DataOperand.Clear.cutCommas (h : operand.Clear)
    (hrest : cutCommas false rest = first :: more) :
    cutCommas false (operand.text.toList ++ rest) = (operand.text.toList ++ first) :: more := by
  cases operand with
  | quoted s =>
      have htext : (DataOperand.quoted s).text.toList = '"' :: (s.toList ++ ['"']) := by
        simp [DataOperand.text]
      rw [htext, List.cons_append, List.append_assoc, Slate.cutCommas, if_neg (by simp),
        if_pos rfl, Bool.not_false]
      rw [List.singleton_append, cutCommas_inner h hrest]
      simp [Text.consLine]
  | byte b => exact cutCommas_plain (not_mem_number rfl _) (not_mem_number rfl _) hrest

/-- An operand is read as the bytes that it was made for. -/
theorem DataOperand.Clear.read (h : operand.Clear) :
    operandBytes? operand.text.toList = some operand.bytes := by
  cases operand with
  | quoted s =>
      have htext : (DataOperand.quoted s).text.toList = '"' :: (s.toList ++ ['"']) := by
        simp [DataOperand.text]
      have hinner : '"' ∉ s.toList := h
      rw [htext, operandBytes?, List.getLast?_concat, List.dropLast_concat, if_pos ⟨rfl, hinner⟩,
        String.ofList_toList]
      rfl
  | byte b =>
      have htext : (DataOperand.byte b).text.toList = Nat.toDigits 10 b.toNat :=
        Nat.toList_repr
      have hdigits : (Nat.toDigits 10 b.toNat).all Char.isDigit = true :=
        List.all_eq_true.2 fun c hc => Nat.isDigit_of_mem_toDigits (by decide) (by decide) hc
      have hvalue : Nat.ofDigitChars 10 (Nat.toDigits 10 b.toNat) 0 = b.toNat :=
        Nat.ofDigitChars_ten_toDigits
      rw [htext]
      unfold operandBytes?
      split
      · next heq =>
        rw [heq] at hdigits
        cases hdigits
      · have hlt : b.toNat < 256 := b.toNat_lt
        rw [hvalue, if_pos ⟨Nat.toDigits_ne_nil, hdigits, hlt⟩, UInt8.ofNat_toNat]
        rfl

/-- No operand begins with a space. -/
theorem DataOperand.dropWhile_text (operand : DataOperand) :
    operand.text.toList.dropWhile (· = ' ') = operand.text.toList := by
  cases operand with
  | quoted s => simp [DataOperand.text]
  | byte b =>
      have hnone : ' ' ∉ (DataOperand.byte b).text.toList := not_mem_number rfl _
      cases htext : (DataOperand.byte b).text.toList with
      | nil => rfl
      | cons c digits =>
          rw [htext, List.mem_cons, not_or] at hnone
          rw [List.dropWhile_cons_of_neg]
          simpa using Ne.symm hnone.1

/-- A clear operand stands for its bytes, also between other operands. -/
theorem DataOperand.Clear.written (h : operand.Clear) :
    OperandFor operandBytes? operand.text.toList operand.bytes :=
  ⟨h.cutCommas, operand.dropWhile_text, h.read⟩

/-- **Operands are read as the bytes that they were made for.** -/
theorem operandsBytes?_text (hne : operands ≠ []) (h : ∀ o ∈ operands, o.Clear) :
    operandsBytes? (", ".intercalate (operands.map DataOperand.text)).toList =
      some (operands.flatMap DataOperand.bytes) := by
  have hwritten : List.Forall₂ (fun text : String => OperandFor operandBytes? text.toList)
      (operands.map DataOperand.text) (operands.map DataOperand.bytes) := by
    rw [List.forall₂_map_left_iff, List.forall₂_map_right_iff]
    exact List.forall₂_same.2 fun o ho => (h o ho).written
  unfold operandsBytes?
  rw [readOperandsWith?_intercalate hwritten (by simpa using hne)]
  rfl

/-! ## Strings -/

/-- The bytes of a character are among those of a text that it stands in. -/
theorem mem_bytes {s : String} {c : Char} (hc : c ∈ s.toList) {b : UInt8}
    (hb : b ∈ String.utf8EncodeChar c) : b ∈ s.toUTF8.data.toList := by
  have hbytes : s.toUTF8.data.toList = s.toList.flatMap String.utf8EncodeChar := by
    rw [show s.toUTF8 = s.toList.utf8Encode from String.toByteArray_ofList ▸ by simp]
    simp [List.utf8Encode]
  rw [hbytes]
  exact List.mem_flatMap.2 ⟨c, hc, hb⟩

/-- The two forms of the operands of a string: in quotes, if every byte can stand there, or byte
by byte. -/
theorem dataOperands_cases (s : String) :
    (dataOperands s = [.quoted s, .byte 0] ∧ s.toUTF8.data.toList.all isPlainByte = true) ∨
      dataOperands s = s.toUTF8.data.toList.map .byte ++ [.byte 0] := by
  unfold dataOperands
  dsimp only
  split
  · next hplain =>
    rw [Bool.and_eq_true] at hplain
    exact .inl ⟨rfl, hplain.2⟩
  · exact .inr rfl

/-- A character that has a byte which cannot stand in quotes does not stand in quotes. -/
theorem not_mem_quoted {s : String} (h : s.toUTF8.data.toList.all isPlainByte = true) {c : Char}
    {b : UInt8} (hb : b ∈ String.utf8EncodeChar c) (hplain : isPlainByte b = false) :
    c ∉ s.toList := by
  intro hc
  have hbyte := List.all_eq_true.1 h b (mem_bytes hc hb)
  rw [hplain] at hbyte
  cases hbyte

/-- The operands of a string are clear. -/
theorem dataOperands_clear (s : String) : ∀ o ∈ dataOperands s, o.Clear := by
  have hzero : (DataOperand.byte 0).Clear := trivial
  rcases dataOperands_cases s with ⟨heq, hplain⟩ | heq
  · rw [heq]
    exact List.forall_mem_cons.2 ⟨not_mem_quoted (b := 34) hplain (by decide) (by decide),
      List.forall_mem_singleton.2 hzero⟩
  · rw [heq]
    refine List.forall_mem_append.2 ⟨fun o ho => ?_, List.forall_mem_singleton.2 hzero⟩
    obtain ⟨b, _, rfl⟩ := List.mem_map.1 ho
    trivial

/-- The operands of a string are made for its bytes and a zero. -/
theorem dataOperands_bytes (s : String) :
    (dataOperands s).flatMap DataOperand.bytes = dataBytes s := by
  unfold dataBytes
  rcases dataOperands_cases s with ⟨heq, _⟩ | heq
  · simp [heq, DataOperand.bytes]
  · rw [heq, List.flatMap_append, List.flatMap_map]
    simp [DataOperand.bytes]

/-- There is always an operand: the zero byte. -/
theorem dataOperands_eq_cons (s : String) : ∃ o os, dataOperands s = o :: os := by
  rcases dataOperands_cases s with ⟨heq, _⟩ | heq
  · exact ⟨_, _, heq⟩
  · exact List.exists_cons_of_ne_nil (by simp [heq])

/-! ## Data lines -/

/-- The data line of a string without its newline. -/
def dataLine (index : Nat) (s : String) : List Char :=
  (Label.data index).text.toList ++ ':' :: ' ' :: 'd' :: 'b' :: ' ' ::
    (", ".intercalate ((dataOperands s).map DataOperand.text)).toList

theorem dataText_eq (index : Nat) (s : String) :
    (dataText index s).toList = dataLine index s ++ ['\n'] := by
  obtain ⟨o, os, heq⟩ := dataOperands_eq_cons s
  simp [dataText, dataLine, operation, heq]

/-- What stands in texts with a separator stands in one of them or in the separator. -/
theorem mem_intercalate {c : Char} {separator : String} :
    ∀ {texts : List String}, c ∈ (separator.intercalate texts).toList →
      c ∈ separator.toList ∨ ∃ t ∈ texts, c ∈ t.toList
  | [], h => by simp at h
  | [t], h => .inr ⟨t, List.mem_singleton_self t, by simpa using h⟩
  | t :: u :: more, h => by
      rw [String.intercalate_cons_cons, String.toList_append, String.toList_append] at h
      rcases List.mem_append.1 h with h | h
      · rcases List.mem_append.1 h with h | h
        · exact .inr ⟨t, List.mem_cons_self, h⟩
        · exact .inl h
      · rcases mem_intercalate h with h | ⟨v, hv, h⟩
        · exact .inl h
        · exact .inr ⟨v, List.mem_cons_of_mem _ hv, h⟩

section

variable {c : Char} {b : UInt8} (hdigit : c.isDigit = false) (hb : b ∈ String.utf8EncodeChar c)
  (hplain : isPlainByte b = false) {around : List Char}
include hdigit hb hplain

/-- A character that is no digit and cannot stand in quotes is in no operand of a string. -/
theorem not_mem_operand {s : String} (hquote : c ≠ '"') (ho : operand ∈ dataOperands s) :
    c ∉ operand.text.toList := by
  have hbyte : ∀ n : UInt8, c ∉ (DataOperand.byte n).text.toList := fun n =>
    not_mem_number hdigit n.toNat
  rcases dataOperands_cases s with ⟨heq, hall⟩ | heq
  · rw [heq] at ho
    rw [List.mem_cons, List.mem_singleton] at ho
    rcases ho with rfl | rfl
    · have hinner := not_mem_quoted hall hb hplain
      simp [DataOperand.text, hquote, hinner]
    · exact hbyte 0
  · rw [heq] at ho
    rcases List.mem_append.1 ho with ho | ho
    · obtain ⟨n, _, rfl⟩ := List.mem_map.1 ho
      exact hbyte n
    · rw [List.mem_singleton.1 ho]
      exact hbyte 0

/-- Nor is it in the data line, unless it is one of the characters around the operands. -/
theorem not_mem_dataLine (haround : c ∉ "data_: db, \"".toList) (index : Nat) (s : String) :
    c ∉ dataLine index s := by
  simp only [String.reduceToList, List.mem_cons, List.not_mem_nil, not_or] at haround
  obtain ⟨hd, ha, ht, _, hunderscore, hcolon, hspace, _, hb', hcomma, _, hquote, _⟩ := haround
  have hnumber := not_mem_number hdigit index
  have hoperands : c ∉ (", ".intercalate ((dataOperands s).map DataOperand.text)).toList := by
    intro hmem
    rcases mem_intercalate hmem with hmem | ⟨text, htext, hmem⟩
    · simp [hcomma, hspace] at hmem
    · obtain ⟨o, ho, rfl⟩ := List.mem_map.1 htext
      exact not_mem_operand hdigit hb hplain hquote ho hmem
  have hlabel : c ∉ (Label.data index).text.toList := by
    rw [Label.text, String.toList_append, List.mem_append, not_or]
    exact ⟨by simp [hd, ha, ht, hunderscore], hnumber⟩
  unfold dataLine
  simp only [List.mem_append, List.mem_cons, not_or]
  exact ⟨hlabel, hcolon, hspace, hd, hb', hspace, hoperands⟩

end

/-- A data line is read as its label and the bytes of its string. -/
theorem readDataLine?_dataLine (index : Nat) (s : String) :
    readDataLine? (dataLine index s) = some ((Label.data index).text, dataBytes s) := by
  have hlabel : ∀ c ∈ (Label.data index).text.toList, decide (c ≠ ':') = true := by
    intro c hc
    rw [decide_eq_true_eq]
    rintro rfl
    rw [Label.text, String.toList_append] at hc
    rcases List.mem_append.1 hc with hc | hc
    · exact absurd hc (by decide)
    · exact not_mem_number rfl _ hc
  have hoperands :
      operandsBytes? (", ".intercalate ((dataOperands s).map DataOperand.text)).toList =
        some (dataBytes s) := by
    have hclear := dataOperands_clear s
    obtain ⟨o, os, heq⟩ := dataOperands_eq_cons s
    rw [← dataOperands_bytes]
    exact operandsBytes?_text (by simp [heq]) hclear
  unfold readDataLine? dataLine
  generalize (", ".intercalate ((dataOperands s).map DataOperand.text)).toList = texts
    at hoperands ⊢
  rw [List.dropWhile_append_of_pos hlabel, List.takeWhile_append_of_pos hlabel]
  simp [hoperands]

/-- Every string has a line. -/
theorem lines_dataLinesText (literals : List String) (index : Nat) :
    Text.lines (dataLinesText index literals).toList =
      literals.mapIdx fun n s => dataLine (index + n) s := by
  induction literals generalizing index with
  | nil => rfl
  | cons s literals ih =>
      have hnewline : '\n' ∉ dataLine index s :=
        not_mem_dataLine (b := 10) rfl (by decide) (by decide) (by decide) index s
      have hreturn : '\r' ∉ dataLine index s :=
        not_mem_dataLine (b := 13) rfl (by decide) (by decide) (by decide) index s
      rw [dataLinesText, String.toList_append, dataText_eq, List.append_assoc,
        List.singleton_append, Text.lines_append_newline _ _ hnewline hreturn, ih,
        List.mapIdx_cons]
      simp only [Nat.add_assoc, Nat.add_comm 1]
      rfl

/-- **Data lines are read as the strings that they were made for**, each under its number. -/
theorem readDataLines?_text (literals : List String) (index : Nat) :
    readDataLines? (dataLinesText index literals) =
      some (literals.mapIdx fun n s => ((Label.data (index + n)).text, dataBytes s)) := by
  unfold readDataLines?
  rw [lines_dataLinesText]
  induction literals generalizing index with
  | nil => rfl
  | cons s literals ih =>
      have hrest := ih (index + 1)
      simp only [Nat.add_assoc, Nat.add_comm 1] at hrest
      rw [List.mapIdx_cons, List.mapM_cons, readDataLine?_dataLine, hrest, List.mapIdx_cons]
      rfl

end Slate
