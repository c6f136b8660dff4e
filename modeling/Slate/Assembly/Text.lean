import Slate.Assembly.Basic

/-!
# The written form of assembly

The text that an assembler reads: one line per instruction, label or data
line.  An address is written in brackets with its offset, unless that is
zero; a remark stands behind a semicolon.  A blank line comes before every
routine and before the data section.
-/

namespace Slate

/-- How a register is written. -/
def Register.text : Register → String
  | eax => "eax"
  | ebx => "ebx"
  | ecx => "ecx"
  | edx => "edx"
  | esi => "esi"
  | edi => "edi"
  | ebp => "ebp"
  | esp => "esp"

/-- How a byte register is written. -/
def ByteRegister.text : ByteRegister → String
  | al => "al"
  | dl => "dl"

/-- How an address is written. -/
def Address.text (a : Address) : String :=
  if a.offset < 0 then "[" ++ a.base.text ++ " - " ++ toString a.offset.natAbs ++ "]"
  else if a.offset = 0 then "[" ++ a.base.text ++ "]"
  else "[" ++ a.base.text ++ " + " ++ toString a.offset.natAbs ++ "]"

/-- How a byte is written. -/
def ByteConst.text : ByteConst → String
  | number n => toString n.toNat
  | character c => "'" ++ c.toString ++ "'"

/-- How a construct appears in a label. -/
def Construct.text : Construct → String
  | ifEnd => "if_end"
  | ifElse => "if_else"
  | whileStart => "while_start"
  | whileEnd => "while_end"

/-- How a label is written. -/
def Label.text : Label → String
  | entry => "_start"
  | routine name => name
  | control function construct index =>
    function ++ "_" ++ construct.text ++ "_" ++ toString index
  | data index => "data_" ++ toString index
  | inner name => "." ++ name

/-- How a condition appears at the end of an instruction name. -/
def Condition.text : Condition → String
  | equal => "e"
  | notEqual => "ne"
  | notZero => "nz"
  | notNegative => "ns"

/-- An instruction name and its operands. -/
def operation (name : String) (operands : List String) : String :=
  if operands.isEmpty then name else name ++ " " ++ ", ".intercalate operands

/-- How an instruction is written. -/
def Instr.text : Instr → String
  | moveConst dst n => operation "mov" [dst.text, toString n.toInt]
  | moveLabel dst l => operation "mov" [dst.text, l.text]
  | move dst src => operation "mov" [dst.text, src.text]
  | load dst src => operation "mov" [dst.text, src.text]
  | store dst src => operation "mov" [dst.text, src.text]
  | storeConst dst n => operation "mov" ["dword " ++ dst.text, toString n.toInt]
  | storeByte dst src => operation "mov" [dst.text, src.text]
  | storeByteConst dst b => operation "mov" ["byte " ++ dst.text, b.text]
  | loadAddress dst src => operation "lea" [dst.text, src.text]
  | push src => operation "push" [src.text]
  | pop dst => operation "pop" [dst.text]
  | add dst src => operation "add" [dst.text, src.text]
  | addConst dst n => operation "add" [dst.text, toString n]
  | addByteConst dst b => operation "add" [dst.text, b.text]
  | sub dst src => operation "sub" [dst.text, src.text]
  | subConst dst n => operation "sub" [dst.text, toString n]
  | multiply dst src => operation "imul" [dst.text, src.text]
  | divide r => operation "div" [r.text]
  | negate dst => operation "neg" [dst.text]
  | complement dst => operation "not" [dst.text]
  | increment dst => operation "inc" [dst.text]
  | decrement dst => operation "dec" [dst.text]
  | xor dst src => operation "xor" [dst.text, src.text]
  | compare l r => operation "cmp" [l.text, r.text]
  | compareConst l n => operation "cmp" [l.text, toString n]
  | compareByteConst l n => operation "cmp" [l.text, toString n]
  | test l r => operation "test" [l.text, r.text]
  | set c dst => operation ("set" ++ c.text) [dst.text]
  | widen dst src => operation "movzx" [dst.text, src.text]
  | jump l => operation "jmp" [l.text]
  | jumpIf c l => operation ("j" ++ c.text) [l.text]
  | call l => operation "call" [l.text]
  | ret => operation "ret" []
  | systemCall => operation "int" ["0x80"]

/-- How a line is written, with its newline. -/
def Line.text : Line → String
  | label l => l.text ++ ":\n"
  | instr i none => i.text ++ "\n"
  | instr i (some remark) => i.text ++ " ; " ++ remark ++ "\n"

/-- Lines one after the other. -/
def linesText (lines : List Line) : String := String.join (lines.map Line.text)

/-- How a routine is written: a blank line, its label and its lines. -/
def Routine.text (r : Routine) : String :=
  "\n" ++ (Line.label (.routine r.name)).text ++ linesText r.lines

/-- How an operand of a data line is written. -/
def DataOperand.text : DataOperand → String
  | quoted s => "\"" ++ s ++ "\""
  | byte b => toString b.toNat

/-- The data line of a string. -/
def dataText (index : Nat) (s : String) : String :=
  (Label.data index).text ++ ": " ++ operation "db" ((dataOperands s).map DataOperand.text) ++ "\n"

/-- The data lines of strings, numbered from `index` on. -/
def dataLinesText (index : Nat) : List String → String
  | [] => ""
  | s :: ss => dataText index s ++ dataLinesText (index + 1) ss

namespace Assembly

/-- What comes before the routines: the section, and the entry stub if there is
one. -/
def headerText (hasEntry : Bool) : String :=
  if hasEntry then
    "global " ++ Label.entry.text ++ "\n\nsection .text\n" ++
      linesText (.label .entry :: entryStub)
  else "section .text\n"

/-- What comes after the routines: the data section. -/
def dataSectionText (literals : List String) : String :=
  "\nsection .data\n" ++ dataLinesText 0 literals

/-- How a whole assembly is written. -/
def text (a : Assembly) : String :=
  headerText a.hasEntry ++ String.join (a.routines.map Routine.text) ++
    dataSectionText a.literals

end Assembly

end Slate
