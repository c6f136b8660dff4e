import Slate.Assembly.Text

/-!
# Assembly in pieces

The text of a routine is handed to its sink in pieces, and a sink that writes
in blocks keeps every piece in one block.  So the pieces decide how much of a
text has been written when the rest is held back.

Most instructions are one piece with their newline.  Where an operand varies
from one program to the next, it is a piece of its own: a constant or an address
in a move, a label, the size of a frame.  Two instructions are cut only in one of
the places where they stand: `pop` when it loads a register for a system call,
and `set` when it takes the result of a comparison of two operands.

* `linesPieces_join` — the pieces of some lines make up their text;
* `dataPieces_join` — so do the pieces of a data line.
-/

namespace Slate

/-- An integer in pieces: the sign stands apart from the digits. -/
def intPieces (i : Int) : List String :=
  if i < 0 then ["-", toString i.natAbs] else [toString i.natAbs]

/-- Whether the code goes on with the system call that registers have been
loaded for. -/
def entersSystem : List Line → Bool
  | .instr (.pop _) _ :: rest => entersSystem rest
  | .instr .systemCall _ :: _ => true
  | _ => false

/-- Whether a line compares two operands. -/
def Line.compares : Line → Bool
  | .instr (.compare _ _) _ => true
  | _ => false

/-- The pieces of an instruction.  `compared` says whether it follows the
comparison of two operands, `loads` whether it loads registers for a system
call. -/
def Instr.pieces (compared loads : Bool) (i : Instr) : List String :=
  match i with
  | .moveConst dst n => ["mov " ++ dst.text ++ ", "] ++ intPieces n.toInt ++ ["\n"]
  | .moveLabel dst (.data index) => ["mov " ++ dst.text ++ ", data_", toString index, "\n"]
  | .storeConst dst n => ["mov dword ", dst.text, ", " ++ toString n.toInt ++ "\n"]
  | .loadAddress dst src => ["lea " ++ dst.text ++ ", ", src.text, "\n"]
  | .addConst dst n => ["add " ++ dst.text ++ ", ", toString n, "\n"]
  | .subConst dst n => ["sub " ++ dst.text ++ ", ", toString n, "\n"]
  | .jump l => ["jmp ", l.text, "\n"]
  | .jumpIf c l => ["j" ++ c.text ++ " ", l.text, "\n"]
  | .call l => ["call ", l.text, "\n"]
  | .pop dst => if loads then ["pop ", dst.text, "\n"] else [i.text ++ "\n"]
  | .set c dst => if compared then ["set" ++ c.text, " " ++ dst.text ++ "\n"] else [i.text ++ "\n"]
  | _ => [i.text ++ "\n"]

/-- The pieces of a line. -/
def Line.pieces (compared loads : Bool) : Line → List String
  | .label l => [l.text, ":\n"]
  | .instr i none => i.pieces compared loads
  | .instr i (some remark) => [(Line.instr i (some remark)).text]

/-- The pieces of some lines; `compared` says whether they follow the comparison
of two operands. -/
def linesPieces (compared : Bool) : List Line → List String
  | [] => []
  | line :: rest => line.pieces compared (entersSystem rest) ++ linesPieces line.compares rest

/-- The pieces of the label in front of a routine, with the blank line. -/
def routineLabelPieces (name : String) : List String := ["\n", name, ":\n"]

/-- The pieces of the data line of a string. -/
def dataPieces (index : Nat) (s : String) : List String :=
  let bytes := s.toUTF8.data.toList
  ["data_", toString index] ++
    if bytes.isEmpty then [": db 0\n"]
    else if bytes.all isPlainByte then [": db \"", s, "\", 0\n"]
    else [": db ", ", ".intercalate (bytes.map fun b => toString b.toNat), ", 0\n"]

/-- The pieces of the data lines of strings, numbered from `index` on. -/
def dataLinesPieces (index : Nat) : List String → List String
  | [] => []
  | s :: ss => dataPieces index s ++ dataLinesPieces (index + 1) ss

/-- The pieces of an integer make up its text. -/
theorem intPieces_join (i : Int) : String.join (intPieces i) = toString i := by
  cases i with
  | ofNat n =>
    rw [intPieces, if_neg (show ¬ Int.ofNat n < 0 from Int.not_lt.2 (Int.natCast_nonneg n))]
    exact String.empty_append
  | negSucc n =>
    rw [intPieces, if_pos (Int.negSucc_lt_zero n)]
    rfl

/-- An operation on two operands, written out. -/
theorem operation_pair (name a b : String) :
    operation name [a, b] = name ++ " " ++ (a ++ ", " ++ b) := rfl

/-- An operation on one operand, written out. -/
theorem operation_single (name a : String) : operation name [a] = name ++ " " ++ a := rfl

/-- The pieces of an instruction make up its text. -/
theorem instrPieces_join (compared loads : Bool) (i : Instr) :
    String.join (i.pieces compared loads) = i.text ++ "\n" := by
  have short : String.join [i.text ++ "\n"] = i.text ++ "\n" := by simp
  cases i
  case moveConst dst n =>
    simp [Instr.pieces, Instr.text, operation_pair, intPieces_join, String.append_assoc]
  case moveLabel dst l =>
    cases l
    case data index =>
      have mark : ", data_" = ", " ++ "data_" := by decide
      simp [Instr.pieces, Instr.text, Label.text, operation_pair, String.append_assoc]
      rw [mark, String.append_assoc]
    all_goals exact short
  case storeConst dst n =>
    have name : "mov dword " = "mov " ++ "dword " := by decide
    simp [Instr.pieces, Instr.text, operation_pair, String.append_assoc]
    rw [name, String.append_assoc]
  case loadAddress dst src =>
    simp [Instr.pieces, Instr.text, operation_pair, String.append_assoc]
  case addConst dst n =>
    simp [Instr.pieces, Instr.text, operation_pair, String.append_assoc]
  case subConst dst n =>
    simp [Instr.pieces, Instr.text, operation_pair, String.append_assoc]
  case jump l => simp [Instr.pieces, Instr.text, operation_single, String.append_assoc]
  case jumpIf c l => simp [Instr.pieces, Instr.text, operation_single, String.append_assoc]
  case call l => simp [Instr.pieces, Instr.text, operation_single, String.append_assoc]
  case pop dst =>
    cases loads
    · exact short
    · simp [Instr.pieces, Instr.text, operation_single, String.append_assoc]
  case set c dst =>
    cases compared
    · exact short
    · simp [Instr.pieces, Instr.text, operation_single, String.append_assoc]
  all_goals exact short

/-- The pieces of some lines make up their text. -/
theorem linesPieces_join (compared : Bool) (lines : List Line) :
    String.join (linesPieces compared lines) = linesText lines := by
  induction lines generalizing compared with
  | nil => rfl
  | cons line rest ih =>
    have first : String.join (line.pieces compared (entersSystem rest)) = line.text := by
      match line with
      | .label l => simp [Line.pieces, Line.text]
      | .instr i none => exact instrPieces_join compared _ i
      | .instr i (some remark) => simp [Line.pieces]
    rw [linesPieces, String.join_append, first, ih]
    simp [linesText]

/-- The pieces of the data line of a string make up its text. -/
theorem dataPieces_join (index : Nat) (s : String) :
    String.join (dataPieces index s) = dataText index s := by
  have hlabel : dataText index s = "data_" ++ toString index ++ ": " ++
      operation "db" ((dataOperands s).map DataOperand.text) ++ "\n" := rfl
  rw [hlabel, dataPieces, dataOperands]
  generalize s.toUTF8.data.toList = bytes
  cases bytes with
  | nil =>
      simp [operation, DataOperand.text, String.append_assoc]
      decide
  | cons b bytes =>
      have hbytes :
          ((b :: bytes).map DataOperand.byte ++ [DataOperand.byte 0]).map DataOperand.text =
          ((b :: bytes).map fun b => toString b.toNat) ++ ["0"] := by
        rw [List.map_append, List.map_map]
        rfl
      apply String.toList_inj.1
      simp only [List.isEmpty_cons, Bool.not_false, Bool.true_and, Bool.false_eq_true, if_false]
      split
      · simp [operation, DataOperand.text]
      · rw [hbytes, operation, if_neg (by simp),
          String.intercalate_append_of_ne_nil (by simp) (by simp)]
        simp

/-- The pieces of data lines make up their text. -/
theorem dataLinesPieces_join (index : Nat) (strings : List String) :
    String.join (dataLinesPieces index strings) = dataLinesText index strings := by
  induction strings generalizing index with
  | nil => rfl
  | cons s ss ih =>
      rw [dataLinesPieces, String.join_append, dataPieces_join, ih]
      rfl

end Slate
