import Slate.Assembly.Text

/-!
# The machine

What the instructions of an assembly do: 32-bit words, eight registers, two of the
flags, byte-addressed memory, and a process whose output is collected.

What an assembler knows of a program is a `Listing`: lines of code, and data lines with
their bytes.  A loader places it in memory.  A `Loading` says where: every line has an
address, which is what a call leaves on the stack, and every data line has one.  The
stack grows down from `top`, and an instruction that would move its pointer below `low`
overflows it.  The bytes of data lines lie outside of the stack.

Labels are found by how they are written (`Label.names`), as an assembler finds them,
so two labels with one text would be confused.  Only labels that start with a dot
belong to their routine.

A jump on flags that an instruction has left undefined, an access that does not fit
into the address space, and a system call that is neither a write to the standard
output nor an exit have no meaning here; the machine is stuck then.
-/

namespace Slate

/-- A machine word. -/
abbrev Word := BitVec 32

/-- The number of addresses. -/
def addressSpace : Nat := 4294967296

/-! ## Memory -/

/-- The contents of memory. -/
abbrev Memory := Nat → UInt8

namespace Memory

/-- The word at an address, its lowest byte first. -/
def word (memory : Memory) (p : Nat) : Word :=
  BitVec.ofNat 32 ((memory p).toNat + 256 * (memory (p + 1)).toNat +
    65536 * (memory (p + 2)).toNat + 16777216 * (memory (p + 3)).toNat)

/-- Stores a byte. -/
def setByte (memory : Memory) (p : Nat) (b : UInt8) : Memory :=
  fun q => if q = p then b else memory q

/-- Stores a word, its lowest byte first. -/
def setWord (memory : Memory) (p : Nat) (w : Word) : Memory := fun q =>
  if q = p then UInt8.ofNat w.toNat
  else if q = p + 1 then UInt8.ofNat (w.toNat / 256)
  else if q = p + 2 then UInt8.ofNat (w.toNat / 65536)
  else if q = p + 3 then UInt8.ofNat (w.toNat / 16777216)
  else memory q

/-- The bytes from an address on. -/
def bytes (memory : Memory) (p count : Nat) : ByteArray :=
  ⟨(List.range count).toArray.map fun i => memory (p + i)⟩

end Memory

/-! ## States -/

/-- The flags that conditions ask for. -/
structure Flags where
  zero : Bool
  negative : Bool
deriving DecidableEq

/-- The flags of a result. -/
def Flags.ofWord (w : Word) : Flags := ⟨w = 0, w.msb⟩

/-- The flags of a result in a byte. -/
def Flags.ofByte (b : UInt8) : Flags := ⟨b = 0, 128 ≤ b⟩

/-- Whether the flags satisfy a condition. -/
def Condition.holds : Condition → Flags → Bool
  | equal, flags => flags.zero
  | notEqual, flags => !flags.zero
  | notZero, flags => !flags.zero
  | notNegative, flags => !flags.negative

/-- A state of the machine.  `line` is the number of the line that comes next. -/
structure Machine where
  line : Nat
  registers : Register → Word
  flags : Option Flags
  memory : Memory
  output : ByteArray

namespace Machine

/-- Sets a register. -/
def set (m : Machine) (r : Register) (w : Word) : Machine :=
  { m with registers := fun other => if other = r then w else m.registers other }

/-- Goes on with the next line. -/
def advance (m : Machine) : Machine := { m with line := m.line + 1 }

/-- The address that is meant. -/
def address (m : Machine) (a : Address) : Nat :=
  (m.registers a.base + BitVec.ofInt 32 a.offset).toNat

/-- The state with a word more on the stack. -/
def pushed (m : Machine) (w : Word) : Machine :=
  { m.set .esp (m.registers .esp - 4) with
    memory := m.memory.setWord ((m.registers .esp).toNat - 4) w }

/-- The register that a byte register is the low byte of. -/
def wide : ByteRegister → Register
  | .al => .eax
  | .dl => .edx

/-- The byte in a byte register. -/
def byte (m : Machine) (r : ByteRegister) : UInt8 := UInt8.ofNat (m.registers (wide r)).toNat

/-- Sets a byte register; the other bytes of its register stay. -/
def setByte (m : Machine) (r : ByteRegister) (b : UInt8) : Machine :=
  m.set (wide r) (BitVec.ofNat 32 ((m.registers (wide r)).toNat / 256 * 256 + b.toNat))

end Machine

/-- What becomes of a state in one step. -/
inductive Effect where
  | next (m : Machine)
  | exits (status : Word) (output : ByteArray)
  | overflow
  | stuck

/-- Goes on from a state, if there is one. -/
def Effect.andThen : Effect → (Machine → Effect) → Effect
  | next m, f => f m
  | exits status output, _ => .exits status output
  | overflow, _ => .overflow
  | stuck, _ => .stuck

/-! ## Loading -/

/-- A program as an assembler knows it: the lines of its code, and its data lines, each
with its label as it is written and its bytes. -/
structure Listing where
  lines : List Line
  data : List (String × List UInt8)
deriving DecidableEq

/-- The lines of an assembly in the order of the text section. -/
def Assembly.lines (a : Assembly) : List Line :=
  (if a.hasEntry then .label .entry :: entryStub else []) ++
    a.routines.flatMap fun r => .label (.routine r.name) :: r.lines

/-- The bytes of a data line: those of its string, and a zero. -/
def dataBytes (s : String) : List UInt8 := s.toUTF8.data.toList ++ [0]

/-- The code and the data that an assembly is made for. -/
def Assembly.listing (a : Assembly) : Listing :=
  ⟨a.lines, a.literals.mapIdx fun i s => ((Label.data i).text, dataBytes s)⟩

/-- Whether the label of a line is the one that is asked for.  A label that starts with
a dot is found by its name, and every other label by how it is written. -/
def Label.names : Label → Label → Bool
  | .inner name, .inner other => name = other
  | .inner _, _ => false
  | _, .inner _ => false
  | l, other => l.text = other.text

/-- The number of the line that a label stands on, the first if there are several. -/
def Listing.target? (a : Listing) (l : Label) : Option Nat :=
  a.lines.findIdx? fun
    | .label other => l.names other
    | .instr _ _ => false

/-- The number of the data line that a label stands on. -/
def Listing.datum? (a : Listing) (l : Label) : Option Nat :=
  a.data.findIdx? fun line => l.names (.routine line.1)

/-- Where a listing is placed in memory. -/
structure Loading (a : Listing) where
  code : Nat → Word
  locate : Word → Option Nat
  data : Nat → Word
  low : Nat
  top : Nat
  locate_code : ∀ n ≤ a.lines.length, locate (code n) = some n
  low_le_top : low ≤ top
  top_lt : top < addressSpace
  aside : ∀ i line, a.data[i]? = some line →
    (data i).toNat + line.2.length ≤ low ∨
      (top ≤ (data i).toNat ∧ (data i).toNat + line.2.length ≤ addressSpace)

namespace Loading

variable {a : Listing} (loading : Loading a)

/-- The address that a label stands for.  Text and data share the names. -/
def symbol (l : Label) : Option Word :=
  match a.target? l with
  | some n => some (loading.code n)
  | none => (a.datum? l).map loading.data

/-- The data lines lie in memory. -/
def Loaded (memory : Memory) : Prop :=
  ∀ i line, a.data[i]? = some line → ∀ k b, line.2[k]? = some b →
    memory ((loading.data i).toNat + k) = b

/-- A state in which the process starts: at the entry label, with an empty stack and
nothing written.  What the registers hold otherwise is not known. -/
structure Starts (m : Machine) : Prop where
  line : a.target? .entry = some m.line
  stack : (m.registers .esp).toNat = loading.top
  loaded : loading.Loaded m.memory
  output : m.output = .empty

/-! ## Instructions -/

/-- Goes on with a word from memory. -/
def fetch (p : Nat) (m : Machine) (f : Word → Effect) : Effect :=
  if p + 4 ≤ addressSpace then f (m.memory.word p) else .stuck

/-- Puts a word on the stack. -/
def push (w : Word) (m : Machine) (f : Machine → Effect) : Effect :=
  if (m.registers .esp).toNat < loading.low + 4 then .overflow else f (m.pushed w)

/-- Goes on at a label. -/
def jump (l : Label) (m : Machine) : Effect :=
  match a.target? l with
  | some n => .next { m with line := n }
  | none => .stuck

/-- Sets a register to a result, and the flags by it. -/
def result (dst : Register) (w : Word) (m : Machine) : Effect :=
  .next { m.set dst w with line := m.line + 1, flags := some (.ofWord w) }

/-- Sets the flags and nothing else. -/
def flagged (flags : Flags) (m : Machine) : Effect :=
  .next { m with line := m.line + 1, flags := some flags }

/-- Asks the system. -/
def systemCall (m : Machine) : Effect :=
  if m.registers .eax = 1 then .exits (m.registers .ebx) m.output
  else if m.registers .eax = 4 ∧ m.registers .ebx = 1 ∧
      (m.registers .ecx).toNat + (m.registers .edx).toNat ≤ addressSpace then
    .next { m.set .eax (m.registers .edx) with
      line := m.line + 1
      output := m.output ++
        m.memory.bytes (m.registers .ecx).toNat (m.registers .edx).toNat }
  else .stuck

/-- Divides the double word in `edx` and `eax`. -/
def divide (divisor : Word) (m : Machine) : Effect :=
  let dividend := (m.registers .edx).toNat * addressSpace + (m.registers .eax).toNat
  if divisor.toNat = 0 ∨ addressSpace ≤ dividend / divisor.toNat then .stuck
  else
    .next { (m.set .eax (BitVec.ofNat 32 (dividend / divisor.toNat))).set .edx
        (BitVec.ofNat 32 (dividend % divisor.toNat)) with
      line := m.line + 1
      flags := none }

/-- Executes an instruction. -/
def execute (m : Machine) : Instr → Effect
  | .moveConst dst n => .next (m.set dst n.toBitVec).advance
  | .moveLabel dst l =>
    match loading.symbol l with
    | some w => .next (m.set dst w).advance
    | none => .stuck
  | .move dst src => .next (m.set dst (m.registers src)).advance
  | .load dst src => fetch (m.address src) m fun w => .next (m.set dst w).advance
  | .store dst src =>
    if m.address dst + 4 ≤ addressSpace then
      .next { m with
        line := m.line + 1
        memory := m.memory.setWord (m.address dst) (m.registers src) }
    else .stuck
  | .storeConst dst n =>
    if m.address dst + 4 ≤ addressSpace then
      .next { m with
        line := m.line + 1
        memory := m.memory.setWord (m.address dst) n.toBitVec }
    else .stuck
  | .storeByte dst src =>
    .next { m with
      line := m.line + 1
      memory := m.memory.setByte (m.address dst) (m.byte src) }
  | .storeByteConst dst b =>
    .next { m with
      line := m.line + 1
      memory := m.memory.setByte (m.address dst) b.value }
  | .loadAddress dst src => .next (m.set dst (BitVec.ofNat 32 (m.address src))).advance
  | .push src => loading.push (m.registers src) m fun m => .next m.advance
  | .pop dst =>
    fetch (m.registers .esp).toNat m fun w =>
      .next ((m.set .esp (m.registers .esp + 4)).set dst w).advance
  | .add dst src => result dst (m.registers dst + m.registers src) m
  | .addConst dst n => result dst (m.registers dst + BitVec.ofNat 32 n) m
  | .addByteConst dst b =>
    .next { m.setByte dst (m.byte dst + b.value) with
      line := m.line + 1
      flags := some (.ofByte (m.byte dst + b.value)) }
  | .sub dst src => result dst (m.registers dst - m.registers src) m
  | .subConst dst n =>
    if dst = .esp ∧ (m.registers .esp).toNat < loading.low + n then .overflow
    else result dst (m.registers dst - BitVec.ofNat 32 n) m
  | .multiply dst src =>
    .next { m.set dst (m.registers dst * m.registers src) with
      line := m.line + 1
      flags := none }
  | .divide divisor => divide (m.registers divisor) m
  | .negate dst => result dst (-m.registers dst) m
  | .complement dst => .next (m.set dst (~~~m.registers dst)).advance
  | .increment dst => result dst (m.registers dst + 1) m
  | .decrement dst => result dst (m.registers dst - 1) m
  | .xor dst src => result dst (m.registers dst ^^^ m.registers src) m
  | .compare left right => flagged (.ofWord (m.registers left - m.registers right)) m
  | .compareConst left n => flagged (.ofWord (m.registers left - BitVec.ofNat 32 n)) m
  | .compareByteConst left n => flagged (.ofByte (m.byte left - UInt8.ofNat n)) m
  | .test left right => flagged (.ofWord (m.registers left &&& m.registers right)) m
  | .set condition dst =>
    match m.flags with
    | some flags => .next (m.setByte dst (if condition.holds flags then 1 else 0)).advance
    | none => .stuck
  | .widen dst src => .next (m.set dst (BitVec.ofNat 32 (m.byte src).toNat)).advance
  | .jump l => jump (a := a) l m
  | .jumpIf condition l =>
    match m.flags with
    | some flags => if condition.holds flags then jump (a := a) l m else .next m.advance
    | none => .stuck
  | .call l => loading.push (loading.code (m.line + 1)) m fun m => jump (a := a) l m
  | .ret =>
    fetch (m.registers .esp).toNat m fun w =>
      match loading.locate w with
      | some n => .next { m.set .esp (m.registers .esp + 4) with line := n }
      | none => .stuck
  | .systemCall => systemCall m

/-- One step: a label is passed, and an instruction is executed. -/
def step (m : Machine) : Effect :=
  match a.lines[m.line]? with
  | some (.label _) => .next m.advance
  | some (.instr i _) => loading.execute m i
  | none => .stuck

/-- What becomes of a state in a number of steps. -/
def run : Nat → Machine → Effect
  | 0, m => .next m
  | n + 1, m => (loading.step m).andThen (run n)

end Loading

end Slate
