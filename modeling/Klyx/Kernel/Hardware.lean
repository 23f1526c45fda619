/-!
# Machine words and the interrupt frame

`klyx/hw.h`: the word type, the register frame that the interrupt entry code
pushes on the stack, and the text in which the kernel prints such a frame.
-/

namespace Klyx

/-- `word_t`, a 32-bit machine word. -/
abbrev Word := BitVec 32

/-- `char`, as the bits that are stored. -/
abbrev Byte := BitVec 8

/-- `int_regs_t`, in the order in which the entry code lays the frame out. -/
structure IntRegs where
  gs : Word
  fs : Word
  es : Word
  ss : Word
  ds : Word
  edi : Word
  esi : Word
  ebp : Word
  esp : Word
  ebx : Word
  edx : Word
  ecx : Word
  eax : Word
  eip : Word
  cs : Word
  eflags : Word
deriving DecidableEq, Inhabited

/-- Registers that are all different. -/
def IntRegs.numbered : IntRegs :=
  ⟨0x101, 0x202, 0x303, 0x404, 0x505, 0x606, 0x707, 0x808, 0x909, 0xA0A, 0xB0B, 0xC0C, 0xD0D,
    0xE0E, 0xF0F, 0x1010⟩

/-- Upper-case hexadecimal digits, padded on the left with zeros. -/
def hexPadded (width : Nat) (w : Word) : String :=
  let digits := (Nat.toDigits 16 w.toNat).map Char.toUpper
  String.ofList (List.replicate (width - digits.length) '0' ++ digits)

/-- The register block shared by the kernel's fault and panic reports. -/
def IntRegs.report (regs : IntRegs) : String :=
  "\tEAX: " ++ hexPadded 16 regs.eax ++ "\tEBX: " ++ hexPadded 16 regs.ebx ++
  "\n\tECX: " ++ hexPadded 16 regs.ecx ++ "\tEDX: " ++ hexPadded 16 regs.edx ++
  "\n\tESI: " ++ hexPadded 16 regs.esi ++ "\tEDI: " ++ hexPadded 16 regs.edi ++
  "\n\tEIP: " ++ hexPadded 16 regs.eip ++ "\tESP: " ++ hexPadded 16 regs.esp ++
  "\n\tEBP: " ++ hexPadded 16 regs.ebp ++
  "\n\tCS: " ++ hexPadded 16 regs.cs ++ "\tSS: " ++ hexPadded 16 regs.ss ++
  "\n\tES: " ++ hexPadded 16 regs.es ++ "\tDS: " ++ hexPadded 16 regs.ds ++
  "\n\tFS: " ++ hexPadded 16 regs.fs ++ "\tGS: " ++ hexPadded 16 regs.gs ++ "\n"

end Klyx
