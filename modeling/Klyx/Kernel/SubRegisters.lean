import Klyx.Kernel.Emulator
import Klyx.Lib.MaskedField

/-!
# Sub-registers

Every register id of the emulator names a part of a 32-bit register: all of it,
its lower half, or one of the two lower bytes.

For whole registers and halves the write functions assign the bits that the read
functions read.  For a byte the masks of the value are those of the other byte:
writing `al` clears it and sets bits 8 to 15 instead, and writing `ah` clears it
and sets bits 0 to 7.

**Results.**
* `readRegByIdTr_part`, `writeRegByIdTr_part`: the switches in terms of parts.
* `sub_register_law_iff`: when a value that was written is read back.
-/

namespace Klyx

/-- A part of a 32-bit register. -/
inductive RegPart where
  | full | word | low | high
deriving DecidableEq

namespace RegPart

/-- The bits of a part. -/
def mask : RegPart → Word
  | .full => 0xFFFFFFFF
  | .word => 0x0000FFFF
  | .low => 0x000000FF
  | .high => 0x0000FF00

/-- The lowest bit of a part. -/
def shift : RegPart → Nat
  | .high => 8
  | _ => 0

/-- The number of its bits. -/
def width : RegPart → Nat
  | .full => 32
  | .word => 16
  | .low => 8
  | .high => 8

/-- The bits of the value that the write functions set. -/
def stored : RegPart → Word
  | .full => 0xFFFFFFFF
  | .word => 0x0000FFFF
  | .low => 0x0000FF00
  | .high => 0x000000FF

end RegPart

namespace I386Reg

/-- The 32-bit register that contains a register. -/
def whole : I386Reg → I386Reg
  | .eax | .ax | .al | .ah => .eax
  | .ebx | .bx | .bl | .bh => .ebx
  | .ecx | .cx | .cl | .ch => .ecx
  | .edx | .dx | .dl | .dh => .edx
  | .esi | .si => .esi
  | .edi | .di => .edi
  | .esp | .sp => .esp
  | .ebp | .bp => .ebp
  | .eip | .ip => .eip
  | .eflags => .eflags
  | .cs => .cs
  | .ds => .ds
  | .ss => .ss
  | .es => .es
  | .fs => .fs
  | .gs => .gs

/-- The part of it that a register is. -/
def part : I386Reg → RegPart
  | .ax | .bx | .cx | .dx | .si | .di | .sp | .bp | .ip => .word
  | .al | .bl | .cl | .dl => .low
  | .ah | .bh | .ch | .dh => .high
  | _ => .full

/-- Two registers have a bit in common. -/
def Overlaps (id id' : I386Reg) : Prop :=
  id.whole = id'.whole ∧ id.part.mask &&& id'.part.mask ≠ 0

instance (id id' : I386Reg) : Decidable (Overlaps id id') :=
  inferInstanceAs (Decidable (_ ∧ _))

end I386Reg

/-- What a write to a register should do: the register reads as the value, modulo
its width, and no other bit of any register changes. -/
structure WriteReadLaw {ρ : Type} (B : BackEnd ρ) (regs : ρ) (id : I386Reg) (v : Word) : Prop where
  read : (B.rr (B.wr regs id v) id).toNat = v.toNat % 2 ^ id.part.width
  outside : B.rr (B.wr regs id v) id.whole &&& ~~~id.part.mask =
    B.rr regs id.whole &&& ~~~id.part.mask
  others : ∀ id', ¬ id.Overlaps id' → B.rr (B.wr regs id v) id' = B.rr regs id'

/-- A byte is written rightly to a register that contains `x` if it is 0, and if
the bits that are set in its place are already set. -/
def ByteFits (x : Word) (part : RegPart) (v : Word) : Prop :=
  part.width = 8 → v.toNat % 2 ^ 8 = 0 ∧ x ||| (v &&& part.stored) = x

instance (x : Word) (part : RegPart) (v : Word) : Decidable (ByteFits x part v) :=
  inferInstanceAs (Decidable (_ → _))

section Parts

variable (t : Regs) (id : I386Reg)

/-- The second byte of a word, with the wider mask of the read functions. -/
theorem high_get (x : Word) : (x &&& 0xFFFF) >>> 8 = MaskedField.get 0x0000FF00 8 x := by
  ext i hi
  simp only [MaskedField.get, BitVec.getElem_ushiftRight, BitVec.getLsbD_and]
  have hmasks : ∀ i < 32, BitVec.getLsbD (0xFFFF : Word) (8 + i) =
      BitVec.getLsbD (0x0000FF00 : Word) (8 + i) := by
    decide
  rw [hmasks i hi]

/-- Reading a register takes its part of the 32-bit register. -/
theorem readRegByIdTr_part :
    readRegByIdTr t id = MaskedField.get id.part.mask id.part.shift (readRegByIdTr t id.whole) := by
  have hfull : ∀ x : Word, x = MaskedField.get 0xFFFFFFFF 0 x := by
    intro x
    rw [MaskedField.get, BitVec.ushiftRight_zero]
    exact BitVec.and_allOnes.symm
  cases id with
  | ah | bh | ch | dh => exact high_get _
  | ax | bx | cx | dx | si | di | sp | bp | ip | al | bl | cl | dl => rfl
  | _ => exact hfull _

/-- Writing a register clears its part and sets the stored bits of the value. -/
theorem writeRegByIdTr_part (v : Word) :
    writeRegByIdTr t id v = writeRegByIdTr t id.whole
      (MaskedField.merge id.part.mask (readRegByIdTr t id.whole) (v &&& id.part.stored)) := by
  have hfull : ∀ x : Word, v = MaskedField.merge 0xFFFFFFFF x (v &&& 0xFFFFFFFF) := by
    intro x
    have hmask : ~~~(0xFFFFFFFF : Word) = 0#32 := by decide
    rw [MaskedField.merge, hmask, BitVec.and_zero, BitVec.zero_or]
    exact BitVec.and_allOnes.symm
  cases id with
  | ax | bx | cx | dx | si | di | sp | bp | ip | al | bl | cl | dl | ah | bh | ch | dh => rfl
  | _ => exact congrArg _ (hfull _)

/-- A 32-bit register that was written. -/
theorem readRegByIdTr_write_whole (x : Word) :
    readRegByIdTr (writeRegByIdTr t id.whole x) id.whole = x := by
  cases id <;> rfl

theorem readRegByIdTr_write_other {id id' : I386Reg} (x : Word)
    (h : id.whole ≠ id'.whole) :
    readRegByIdTr (writeRegByIdTr t id.whole x) id' = readRegByIdTr t id' := by
  have hwhole : id.whole.whole = id.whole := by cases id <;> rfl
  generalize id.whole = a at h hwhole ⊢
  cases a with
  | ax | bx | cx | dx | si | di | sp | bp | ip | al | bl | cl | dl | ah | bh | ch | dh =>
      exact absurd hwhole (by decide)
  | _ => cases id' <;> first | rfl | exact absurd rfl h

/-- After a write, a register with bits in common with none of the written ones
reads as before. -/
theorem readRegByIdTr_write_of_not_overlaps {id id' : I386Reg} {v : Word}
    (houtside : readRegByIdTr (writeRegByIdTr t id v) id.whole &&& ~~~id.part.mask =
      readRegByIdTr t id.whole &&& ~~~id.part.mask)
    (h : ¬ id.Overlaps id') :
    readRegByIdTr (writeRegByIdTr t id v) id' = readRegByIdTr t id' := by
  by_cases hwhole : id.whole = id'.whole
  · have hdisjoint : id.part.mask &&& id'.part.mask = 0#32 := by
      by_contra hne
      exact h ⟨hwhole, hne⟩
    rw [readRegByIdTr_part _ id', readRegByIdTr_part t id', ← hwhole]
    exact MaskedField.get_of_disjoint hdisjoint houtside
  · rw [writeRegByIdTr_part, readRegByIdTr_write_other t _ hwhole]

end Parts

section Law

variable (t : Regs) (id : I386Reg) (v : Word)

/-- The 32-bit register after a write. -/
theorem readRegByIdTr_write_merge :
    readRegByIdTr (writeRegByIdTr t id v) id.whole =
      MaskedField.merge id.part.mask (readRegByIdTr t id.whole) (v &&& id.part.stored) := by
  rw [writeRegByIdTr_part, readRegByIdTr_write_whole]

/-- What is read from the part that was written. -/
theorem readRegByIdTr_write_self :
    readRegByIdTr (writeRegByIdTr t id v) id =
      MaskedField.get id.part.mask id.part.shift (v &&& id.part.stored) := by
  rw [readRegByIdTr_part, readRegByIdTr_write_merge]
  exact MaskedField.get_congr (MaskedField.merge_inside _ _ _)

/-- A register that is wider than a byte is stored where it is read. -/
theorem law_of_wide
    (hwide : id.part.width ≠ 8) :
    WriteReadLaw taskRegsBackEnd t id v := by
  have hpart : id.part.stored = id.part.mask ∧ id.part.shift = 0 ∧
      id.part.mask.toNat = 2 ^ id.part.width - 1 := by
    cases hpart : id.part with
    | full | word => exact ⟨rfl, rfl, rfl⟩
    | low | high => exact absurd (congrArg RegPart.width hpart) hwide
  obtain ⟨hstored, hshift, hmask⟩ := hpart
  have houtside : readRegByIdTr (writeRegByIdTr t id v) id.whole &&& ~~~id.part.mask =
      readRegByIdTr t id.whole &&& ~~~id.part.mask := by
    rw [readRegByIdTr_write_merge, hstored]
    exact MaskedField.merge_outside _ _ _
  refine ⟨?_, houtside, fun id' => readRegByIdTr_write_of_not_overlaps t houtside⟩
  have hinside : v &&& id.part.mask &&& id.part.mask = v &&& id.part.mask := by
    rw [BitVec.and_assoc, BitVec.and_self]
  change (readRegByIdTr (writeRegByIdTr t id v) id).toNat = _
  rw [readRegByIdTr_write_self, hstored, MaskedField.get_congr hinside, hshift]
  exact MaskedField.get_zero_toNat hmask

/-- A byte is stored in the place of the other byte. -/
theorem law_of_byte_iff
    (hbyte : id.part.width = 8) :
    WriteReadLaw taskRegsBackEnd t id v ↔
      v.toNat % 2 ^ 8 = 0 ∧
        readRegByIdTr t id.whole ||| (v &&& id.part.stored) = readRegByIdTr t id.whole := by
  have hmisplaced : v &&& id.part.stored &&& id.part.mask = 0#32 := by
    have hdisjoint : id.part.stored &&& id.part.mask = 0#32 := by
      cases hpart : id.part with
      | full | word => exact absurd ((congrArg RegPart.width hpart).symm.trans hbyte) (by decide)
      | low | high => rfl
    rw [BitVec.and_assoc, hdisjoint, BitVec.and_zero]
  have hzero : readRegByIdTr (writeRegByIdTr t id v) id = 0#32 := by
    have hfield : v &&& id.part.stored &&& id.part.mask = 0#32 &&& id.part.mask := by
      rw [hmisplaced, BitVec.zero_and]
    rw [readRegByIdTr_write_self, MaskedField.get_congr hfield, MaskedField.get, BitVec.zero_and,
      BitVec.zero_ushiftRight]
  have houtside := MaskedField.merge_eq_outside_iff (x := readRegByIdTr t id.whole) hmisplaced
  rw [← readRegByIdTr_write_merge] at houtside
  constructor
  · intro h
    have hread : (readRegByIdTr (writeRegByIdTr t id v) id).toNat = v.toNat % 2 ^ 8 :=
      hbyte ▸ h.read
    rw [hzero] at hread
    exact ⟨hread.symm, houtside.mp h.outside⟩
  · rintro ⟨hlow, hfits⟩
    have hkept := houtside.mpr hfits
    refine ⟨?_, hkept, fun id' => readRegByIdTr_write_of_not_overlaps t hkept⟩
    change (readRegByIdTr (writeRegByIdTr t id v) id).toNat = _
    rw [hzero, hbyte, hlow]
    rfl

theorem taskRegs_law_iff :
    WriteReadLaw taskRegsBackEnd t id v ↔ ByteFits (readRegByIdTr t id.whole) id.part v := by
  by_cases hbyte : id.part.width = 8
  · rw [law_of_byte_iff t id v hbyte, ByteFits, forall_prop_of_true hbyte]
  · exact iff_of_true (law_of_wide t id v hbyte) (fun h => absurd h hbyte)

end Law

/-- The law of one back end is that of another, seen through a map of the
register structures. -/
theorem BackEnd.MapsTo.law_iff {ρ ρ' : Type} {B : BackEnd ρ} {B' : BackEnd ρ'} {f : ρ → ρ'}
    (h : B.MapsTo B' f) (regs : ρ) (id : I386Reg) (v : Word) :
    WriteReadLaw B' (f regs) id v ↔ WriteReadLaw B regs id v := by
  constructor
  · rintro ⟨hread, houtside, hothers⟩
    simp only [h.wr, h.rr] at hread houtside hothers
    exact ⟨hread, houtside, hothers⟩
  · rintro ⟨hread, houtside, hothers⟩
    constructor <;> simp only [h.wr, h.rr] <;> assumption

/-- **When a value that was written is read back**, from the interrupt frame and
from the saved registers of a task: always from a register of 16 or 32 bits, and
from a byte in the cases of `ByteFits` only. -/
theorem sub_register_law_iff (id : I386Reg) (v : Word) :
    (∀ r : IntRegs, WriteReadLaw intRegsBackEnd r id v ↔
      ByteFits (readRegByIdIr r id.whole) id.part v) ∧
    ∀ t : Regs, WriteReadLaw taskRegsBackEnd t id v ↔
      ByteFits (readRegByIdTr t id.whole) id.part v := by
  refine ⟨?_, fun t => taskRegs_law_iff t id v⟩
  intro r
  have hframe : r = (Regs.zero.saveFrom r).frame := (frame_saveFrom Regs.zero r).symm
  rw [hframe, taskRegsBackEnd_mapsTo.law_iff, readRegById_frame]
  exact taskRegs_law_iff _ id v

/-- Writing 0x55 to `al` leaves 0 there. -/
theorem low_byte_not_written :
    readRegByIdIr (writeRegByIdIr Regs.zero.frame .al 0x55) .al = 0 ∧
    ¬ WriteReadLaw intRegsBackEnd Regs.zero.frame .al 0x55 := by
  refine ⟨by decide, ?_⟩
  intro hlaw
  exact absurd hlaw.read (by decide)

end Klyx
