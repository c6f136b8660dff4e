import Slate.Assembly.Basic

/-!
# The print routine

The code behind the builtin `print`: it writes the integer that was pushed for
it to the standard output, in decimal digits, after a minus sign if it is
negative, and with a newline behind it.

The text is built backwards in a buffer of sixteen bytes on the stack: `ecx`
is its first byte, `ebx` its length.  The digits come from repeated unsigned
division by ten of the absolute value, which for the least integer is the
word itself read as unsigned.  The registers that a caller relies on are
saved and restored.
-/

namespace Slate

/-- The code of the builtin `print`. -/
def printRoutine : List Line :=
  [.of (.push .ebp),
    .of (.move .ebp .esp),
    .of (.push .ebx),
    .of (.push .esi),
    .of (.push .edi),
    .instr (.subConst .esp 16) (some "digits, sign and newline"),
    .of (.load .eax ⟨.ebp, 8⟩),
    .instr (.move .edi .eax) (some "keep the sign"),
    .of (.loadAddress .ecx ⟨.esp, 16⟩),
    .of (.decrement .ecx),
    .of (.storeByteConst (.of .ecx) (.number 10)),
    .instr (.moveConst .ebx 1) (some "byte count"),
    .of (.test .eax .eax),
    .of (.jumpIf .notNegative (.inner "digit")),
    .of (.negate .eax),
    .label (.inner "digit"),
    .of (.xor .edx .edx),
    .of (.moveConst .esi 10),
    .of (.divide .esi),
    .of (.addByteConst .dl (.character '0')),
    .of (.decrement .ecx),
    .of (.storeByte (.of .ecx) .dl),
    .of (.increment .ebx),
    .of (.test .eax .eax),
    .of (.jumpIf .notZero (.inner "digit")),
    .of (.test .edi .edi),
    .of (.jumpIf .notNegative (.inner "write")),
    .of (.decrement .ecx),
    .of (.storeByteConst (.of .ecx) (.character '-')),
    .of (.increment .ebx),
    .label (.inner "write"),
    .instr (.moveConst .eax 4) (some "write"),
    .of (.move .edx .ebx),
    .instr (.moveConst .ebx 1) (some "stdout"),
    .of .systemCall,
    .of (.addConst .esp 16),
    .of (.pop .edi),
    .of (.pop .esi),
    .of (.pop .ebx),
    .of (.pop .ebp),
    .of .ret]

end Slate
