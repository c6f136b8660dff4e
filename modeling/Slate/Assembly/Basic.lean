/-!
# Assembly

The programs that the compiler makes: 32-bit x86 instructions, in the subset
that it uses, with symbolic labels.  An assembly has an entry stub if the
program has a `main`, one routine per function, and one line of data per
string literal.

Labels are data here, and become text only in print (`Label.text`).  Whether
two labels can be confused is therefore a question about their texts.
-/

namespace Slate

/-- The 32-bit registers. -/
inductive Register where
  | eax
  | ebx
  | ecx
  | edx
  | esi
  | edi
  | ebp
  | esp
deriving DecidableEq, Inhabited

/-- The low bytes of registers. -/
inductive ByteRegister where
  | al
  | dl
deriving DecidableEq, Inhabited

/-- An address in memory: what a register holds, and an offset from there. -/
structure Address where
  base : Register
  offset : Int
deriving DecidableEq, Inhabited

/-- The address that a register holds. -/
def Address.of (base : Register) : Address := ⟨base, 0⟩

/-- A byte, given as a number or as a character. -/
inductive ByteConst where
  | number (value : UInt8)
  | character (value : Char)
deriving DecidableEq

/-- The byte that is meant. -/
def ByteConst.value : ByteConst → UInt8
  | number n => n
  | character c => UInt8.ofNat c.toNat

/-- The places of control flow that need a label. -/
inductive Construct where
  | ifEnd
  | ifElse
  | whileStart
  | whileEnd
deriving DecidableEq, Inhabited

/-- The names of places: the entry stub, routines, places of control flow
numbered within their function, data lines, and places inside a routine that
is always the same. -/
inductive Label where
  | entry
  | routine (name : String)
  | control (function : String) (construct : Construct) (index : Nat)
  | data (index : Nat)
  | inner (name : String)
deriving DecidableEq, Inhabited

/-- What a jump or a set instruction asks of the flags. -/
inductive Condition where
  | equal
  | notEqual
  | notZero
  | notNegative
deriving DecidableEq

/-- The instructions.  The destination comes first. -/
inductive Instr where
  | moveConst (dst : Register) (value : Int32)
  | moveLabel (dst : Register) (label : Label)
  | move (dst src : Register)
  | load (dst : Register) (src : Address)
  | store (dst : Address) (src : Register)
  | storeConst (dst : Address) (value : Int32)
  | storeByte (dst : Address) (src : ByteRegister)
  | storeByteConst (dst : Address) (value : ByteConst)
  | loadAddress (dst : Register) (src : Address)
  | push (src : Register)
  | pop (dst : Register)
  | add (dst src : Register)
  | addConst (dst : Register) (value : Nat)
  | addByteConst (dst : ByteRegister) (value : ByteConst)
  | sub (dst src : Register)
  | subConst (dst : Register) (value : Nat)
  | multiply (dst src : Register)
  | divide (divisor : Register)
  | negate (dst : Register)
  | complement (dst : Register)
  | increment (dst : Register)
  | decrement (dst : Register)
  | xor (dst src : Register)
  | compare (left right : Register)
  | compareConst (left : Register) (right : Nat)
  | compareByteConst (left : ByteRegister) (right : Nat)
  | test (left right : Register)
  | set (condition : Condition) (dst : ByteRegister)
  | widen (dst : Register) (src : ByteRegister)
  | jump (target : Label)
  | jumpIf (condition : Condition) (target : Label)
  | call (target : Label)
  | ret
  | systemCall
deriving DecidableEq

/-- A line of a routine: a label, or an instruction that may carry a remark. -/
inductive Line where
  | label (label : Label)
  | instr (instr : Instr) (remark : Option String)
deriving DecidableEq

/-- A line with an instruction and no remark. -/
def Line.of (i : Instr) : Line := .instr i none

/-- The code of a function, behind the label of its name. -/
structure Routine where
  name : String
  lines : List Line
deriving DecidableEq

/-- An operand of a data line: a quoted text, which stands for its bytes, or a
single byte. -/
inductive DataOperand where
  | quoted (text : String)
  | byte (value : UInt8)
deriving DecidableEq

/-- A whole assembly.  `literals` are the strings of its data lines. -/
structure Assembly where
  hasEntry : Bool
  routines : List Routine
  literals : List String
deriving DecidableEq

/-- The entry stub: calls `main` and ends the process with its result. -/
def entryStub : List Line :=
  [.of (.call (.routine "main")), .of (.move .ebx .eax),
    .instr (.moveConst .eax 1) (some "exit"), .of .systemCall]

/-- Whether a byte can stand for itself between double quotes. -/
def isPlainByte (b : UInt8) : Bool := 0x20 ≤ b && b ≤ 0x7E && b ≠ 0x22

/-- The operands of the data line of a string: its bytes, as one quoted text
if there are some and all can stand in it, and a zero byte. -/
def dataOperands (s : String) : List DataOperand :=
  let bytes := s.toUTF8.data.toList
  if !bytes.isEmpty && bytes.all isPlainByte then [.quoted s, .byte 0]
  else bytes.map .byte ++ [.byte 0]

end Slate
