import Klyx.Kernel.PushPop

/-!
# The forms of an operand

The comment in `klyx/i386_emulator.h` gives the address of each form from the
four components of an operand.  The components share one word, so a form with
more than one of them finds the same word in all of them; and `imm1` of the form
`MEM` is taken for the number of a register.

Hence a form is followed, for all contents of the registers, only if its
components are one number.  A register that is multiplied by 0 is no exception:
the number 0 is that of `eax`.

**Results.**
* `accesses_of_id`: the address that the functions use.
* `eq_of_scaled`, `eq_of_based`: what equal addresses say about the components.
* `operand_forms_iff`: when an operand follows its form.
-/

namespace Klyx

open StackMemory

/-- The components of an operand. -/
structure OperandParts where
  reg1 : I386Reg
  reg2 : I386Reg
  imm1 : Word
  imm2 : Word

/-- The forms of an operand in memory. -/
inductive AddressForm where
  | mem | sibRrn | sibDrrn | sibDrn
deriving DecidableEq

namespace AddressForm

def lexprType : AddressForm → LoperandType
  | .mem => .mem
  | .sibRrn => .sibRrn
  | .sibDrrn => .sibDrrn
  | .sibDrn => .sibDrn

def rexprType : AddressForm → RoperandType
  | .mem => .mem
  | .sibRrn => .sibRrn
  | .sibDrrn => .sibDrrn
  | .sibDrn => .sibDrn

/-- The documented address, with the contents of the registers. -/
def address (rr : I386Reg → Word) (p : OperandParts) : AddressForm → Word
  | .mem => p.imm1
  | .sibRrn => rr p.reg1 + rr p.reg2 * p.imm1
  | .sibDrrn => p.imm1 + rr p.reg1 + rr p.reg2 * p.imm2
  | .sibDrn => p.imm1 + rr p.reg1 * p.imm2

/-- The address that the code computes from the word of the operand and the
contents of the register with its number. -/
def unionAddress (r w : Word) : AddressForm → Word
  | .mem => r
  | .sibRrn => r + r * w
  | .sibDrrn => r + r * w + w
  | .sibDrn => r * w + w

end AddressForm

/-- An operand is read and written at an address. -/
structure Accesses {ρ : Type} (B : BackEnd ρ) (form : AddressForm) (w : Word) (s : EmuState ρ)
    (a : Word) : Prop where
  leget : B.leg s ⟨form.lexprType, w⟩ = some (read s.mem a)
  reget : B.reg s ⟨form.rexprType, w⟩ = some (read s.mem a)
  leset : ∀ val, B.les s ⟨form.lexprType, w⟩ val = some { s with mem := write s.mem a val }

/-- An operand whose word is `w` follows its form with the components `p`. -/
def FollowsForm {ρ : Type} (B : BackEnd ρ) (form : AddressForm) (w : Word) (p : OperandParts) :
    Prop :=
  ∀ s, Accesses B form w s (form.address (B.rr s.regs) p)

/-- An immediate operand whose word is `w` yields its component. -/
def YieldsImm {ρ : Type} (B : BackEnd ρ) (w : Word) (p : OperandParts) : Prop :=
  ∀ s, B.reg s ⟨.imm, w⟩ = some p.imm1

/-- The word is every component of the form, except for a register that is
multiplied by 0.  The component of `MEM` is no register, as the code takes it. -/
def HoldsParts (w : Word) (p : OperandParts) : AddressForm → Prop
  | .mem => False
  | .sibRrn => p.reg1.id = w ∧ p.imm1 = w ∧ (p.reg2.id = w ∨ w = 0)
  | .sibDrrn => p.imm1 = w ∧ p.reg1.id = w ∧ p.imm2 = w ∧ (p.reg2.id = w ∨ w = 0)
  | .sibDrn => p.imm1 = w ∧ p.imm2 = w ∧ (p.reg1.id = w ∨ w = 0)

section Numbers

theorem ofId?_eq_some_iff {w : Word} {r : I386Reg} :
    I386Reg.ofId? w = some r ↔ r.id = w := by
  constructor
  · intro h
    obtain ⟨hlt, hget⟩ := List.getElem?_eq_some_iff.mp h
    have hnodup : I386Reg.all.Nodup := by decide
    rw [I386Reg.id, ← hget, hnodup.idxOf_getElem, BitVec.ofNat_toNat, BitVec.setWidth_eq]
  · rintro rfl
    exact ofId?_id r

theorem id_toNat_lt (r : I386Reg) : r.id.toNat < 33 := by
  cases r <;> decide

/-- A register is determined by its 32-bit register and its part. -/
theorem eq_of_whole_of_part {r r' : I386Reg}
    (hwhole : r.whole = r'.whole)
    (hpart : r.part = r'.part) :
    r = r' := by
  have hall : ∀ r ∈ I386Reg.all, ∀ r' ∈ I386Reg.all,
      r.whole = r'.whole → r.part = r'.part → r = r' := by
    decide +kernel
  have hmem : ∀ r, r ∈ I386Reg.all := by
    intro r
    cases r <;> decide
  exact hall r (hmem r) r' (hmem r') hwhole hpart

end Numbers

/-! ### What the code does -/

section Code

variable {form : AddressForm} {w : Word} {r : I386Reg} (s : EmuState Regs)

theorem accesses_of_id (form : AddressForm)
    (h : r.id = w) :
    Accesses taskRegsBackEnd form w s (form.unionAddress (readRegByIdTr s.regs r) w) := by
  have hid := ofId?_eq_some_iff.mpr h
  constructor <;> cases form <;>
    simp [taskRegsBackEnd, legetTr, regetTr, lesetTr, AddressForm.lexprType, AddressForm.rexprType,
      AddressForm.unionAddress, readIdTr, hid, I386OperandLexpr.reg1, I386OperandLexpr.imm1,
      I386OperandLexpr.imm2, I386OperandRexpr.reg1, I386OperandRexpr.imm1, I386OperandRexpr.imm2]

/-- A word that is no number of a register is no operand in memory. -/
theorem leget_eq_none
    (h : I386Reg.ofId? w = none) :
    legetTr s ⟨form.lexprType, w⟩ = none := by
  cases form <;>
    simp [legetTr, AddressForm.lexprType, readIdTr, h, I386OperandLexpr.reg1, I386OperandLexpr.imm1]

end Code

/-! ### Registers with a single bit -/

/-- All registers are 0, but for one bit of a 32-bit register. -/
def bitFile (r : I386Reg) (bit : Nat) : Regs :=
  writeRegByIdTr Regs.zero r.whole (BitVec.twoPow 32 bit)

/-- What a part shows of a single bit. -/
def RegPart.bitValue (part : RegPart) (bit : Nat) : Word :=
  MaskedField.get part.mask part.shift (BitVec.twoPow 32 bit)

/-- The bits that tell the parts of a register apart. -/
def partBits : List Nat := [0, 8, 16]

section Bits

variable {r r' : I386Reg} (bit : Nat)

theorem read_bitFile_same
    (h : r'.whole = r.whole) :
    readRegByIdTr (bitFile r bit) r' = r'.part.bitValue bit := by
  rw [readRegByIdTr_part, h, bitFile, readRegByIdTr_write_whole]
  rfl

theorem read_bitFile_other
    (h : r'.whole ≠ r.whole) :
    readRegByIdTr (bitFile r bit) r' = 0#32 := by
  rw [bitFile, readRegByIdTr_write_other _ _ (Ne.symm h)]
  cases r' <;> rfl

@[simp] theorem bitValue_shift (part : RegPart) : part.bitValue part.shift = 1#32 := by
  cases part <;> rfl

theorem shift_mem_partBits (part : RegPart) : part.shift ∈ partBits := by
  cases part <;> decide

end Bits

section Parts

variable {part part₁ part₂ : RegPart} {a k : Word}

/-- Small multiples of what a part shows tell which part it is. -/
theorem part_eq_of_scaled
    (ha : a.toNat < 33)
    (h : ∀ bit ∈ partBits, part.bitValue bit * a = part₁.bitValue bit * k) :
    k = a ∧ (part₁ = part ∨ a = 0) := by
  have hk : k = part.bitValue part₁.shift * a := by
    have hunit := h _ (shift_mem_partBits part₁)
    rw [hunit, bitValue_shift, BitVec.one_mul]
  subst hk
  have ha' : a = BitVec.ofNat 32 a.toNat := by simp
  rw [ha'] at h ⊢
  generalize a.toNat = n at ha h ⊢
  revert n
  cases part <;> cases part₁ <;> decide +kernel

/-- The same with another part added.  For the multiple 1 of a part it has to be
said that the part is not the sum of two others. -/
theorem part_eq_of_based (part₂ : RegPart) (k : Word)
    (ha : a.toNat < 33)
    (hfull : a = 0 → part = .full)
    (h : ∀ bit ∈ partBits, part.bitValue bit * (1#32 + a) =
      part₁.bitValue bit + part₂.bitValue bit * k) :
    part₁ = part := by
  have hk : k = part.bitValue part₂.shift * (1#32 + a) - part₁.bitValue part₂.shift := by
    have hunit := h _ (shift_mem_partBits part₂)
    rw [hunit, bitValue_shift, BitVec.one_mul, BitVec.add_comm, BitVec.add_sub_cancel]
  subst hk
  have ha' : a = BitVec.ofNat 32 a.toNat := by simp
  rw [ha'] at h hfull
  generalize a.toNat = n at ha h hfull
  revert n
  cases part <;> cases part₁ <;> cases part₂ <;> decide +kernel

end Parts

section Equations

variable {r r₁ r₂ : I386Reg} {k : Word}

/-- If a register scaled by its own number is another one scaled, for all
contents, then the scales and the registers are the same. -/
theorem eq_of_scaled
    (h : ∀ t, readRegByIdTr t r * r.id = readRegByIdTr t r₁ * k) :
    k = r.id ∧ (r₁ = r ∨ r.id = 0) := by
  by_cases hwhole : r₁.whole = r.whole
  · have hparts : ∀ bit ∈ partBits, r.part.bitValue bit * r.id = r₁.part.bitValue bit * k := by
      intro bit _
      have hbit := h (bitFile r bit)
      rwa [read_bitFile_same bit rfl, read_bitFile_same bit hwhole] at hbit
    obtain ⟨hscale, hpart⟩ := part_eq_of_scaled (id_toNat_lt r) hparts
    exact ⟨hscale, hpart.imp_left (eq_of_whole_of_part hwhole)⟩
  · have hleft := h (bitFile r r.part.shift)
    have hright := h (bitFile r₁ r₁.part.shift)
    rw [read_bitFile_same _ rfl, read_bitFile_other _ hwhole, bitValue_shift, BitVec.one_mul,
      BitVec.zero_mul] at hleft
    rw [read_bitFile_same _ rfl, read_bitFile_other _ (Ne.symm hwhole), bitValue_shift,
      BitVec.one_mul, BitVec.zero_mul] at hright
    exact ⟨hright.symm.trans hleft.symm, Or.inr hleft⟩

/-- The register that is added is the one of the number. -/
theorem eq_of_based
    (h : ∀ t, readRegByIdTr t r + readRegByIdTr t r * r.id =
      readRegByIdTr t r₁ + readRegByIdTr t r₂ * k) :
    r₁ = r := by
  have hsum : ∀ t, readRegByIdTr t r * (1#32 + r.id) =
      readRegByIdTr t r₁ + readRegByIdTr t r₂ * k := by
    intro t
    rw [← h t, BitVec.mul_add, BitVec.mul_one]
  have hnum := id_toNat_lt r
  have hfull : r.id = 0 → r.part = .full := by
    cases r <;> first | exact fun _ => rfl | exact fun h => absurd h (by decide)
  by_cases hwhole : r₁.whole = r.whole
  · -- the third register may be another part of the same one, or shows no bit of it
    refine eq_of_whole_of_part hwhole ?_
    by_cases hwhole₂ : r₂.whole = r.whole
    · refine part_eq_of_based r₂.part k hnum hfull ?_
      intro bit _
      have hbit := hsum (bitFile r bit)
      rwa [read_bitFile_same bit rfl, read_bitFile_same bit hwhole,
        read_bitFile_same bit hwhole₂] at hbit
    · refine part_eq_of_based .full 0#32 hnum hfull ?_
      intro bit _
      have hbit := hsum (bitFile r bit)
      rw [read_bitFile_same bit rfl, read_bitFile_same bit hwhole,
        read_bitFile_other bit hwhole₂, BitVec.zero_mul] at hbit
      rw [hbit, BitVec.mul_zero]
  · exfalso
    by_cases hwhole₂ : r₂.whole = r.whole
    · have hbit := hsum (bitFile r₁ r₁.part.shift)
      rw [read_bitFile_same _ rfl, read_bitFile_other _ (Ne.symm hwhole),
        read_bitFile_other _ (hwhole₂ ▸ Ne.symm hwhole), bitValue_shift] at hbit
      simp at hbit
    · have hbit := hsum (bitFile r r.part.shift)
      rw [read_bitFile_same _ rfl, read_bitFile_other _ hwhole, read_bitFile_other _ hwhole₂,
        bitValue_shift] at hbit
      bv_omega

end Equations

section Forms

variable {form : AddressForm} {w : Word} {p : OperandParts}

theorem readRegByIdTr_zero (r : I386Reg) : readRegByIdTr Regs.zero r = 0#32 := by
  cases r <;> rfl

/-- The addresses are the same for all contents of the registers. -/
theorem address_eq_of_holdsParts
    (h : HoldsParts w p form) :
    ∃ r : I386Reg, r.id = w ∧
      ∀ t, form.unionAddress (readRegByIdTr t r) w = form.address (readRegByIdTr t) p := by
  have hscaled : ∀ t (r₁ r₂ : I386Reg), r₁.id = w → r₂.id = w ∨ w = 0#32 →
      readRegByIdTr t r₁ * w = readRegByIdTr t r₂ * w := by
    rintro t r₁ r₂ h₁ (h₂ | hzero)
    · have hsame : r₁ = r₂ := by
        have h₁' := ofId?_eq_some_iff.mpr h₁
        rw [ofId?_eq_some_iff.mpr h₂] at h₁'
        exact (Option.some.inj h₁').symm
      rw [hsame]
    · rw [hzero, BitVec.mul_zero, BitVec.mul_zero]
  cases form with
  | mem => exact h.elim
  | sibRrn =>
      obtain ⟨hreg1, himm1, hreg2⟩ := h
      refine ⟨p.reg1, hreg1, fun t => ?_⟩
      rw [AddressForm.unionAddress, AddressForm.address, himm1, hscaled t _ _ hreg1 hreg2]
  | sibDrrn =>
      obtain ⟨himm1, hreg1, himm2, hreg2⟩ := h
      refine ⟨p.reg1, hreg1, fun t => ?_⟩
      rw [AddressForm.unionAddress, AddressForm.address, himm1, himm2, hscaled t _ _ hreg1 hreg2,
        BitVec.add_comm, BitVec.add_assoc]
  | sibDrn =>
      obtain ⟨himm1, himm2, hreg1⟩ := h
      have hid : ∃ r : I386Reg, r.id = w := hreg1.elim (fun h => ⟨_, h⟩) (fun h => ⟨.eax, h.symm⟩)
      obtain ⟨r, hr⟩ := hid
      refine ⟨r, hr, fun t => ?_⟩
      rw [AddressForm.unionAddress, AddressForm.address, himm1, himm2, hscaled t _ _ hr hreg1,
        BitVec.add_comm]

/-- If an operand is read as its form says, then its word is every component. -/
theorem holdsParts_of_leget
    (h : ∀ s, legetTr s ⟨form.lexprType, w⟩ =
      some (read s.mem (form.address (readRegByIdTr s.regs) p))) :
    HoldsParts w p form := by
  cases hid : I386Reg.ofId? w with
  | none =>
      have hread := h ⟨Regs.zero, fun _ => 0⟩
      rw [leget_eq_none _ hid] at hread
      cases hread
  | some r =>
      obtain rfl := ofId?_eq_some_iff.mp hid
      have haddr : ∀ t, form.unionAddress (readRegByIdTr t r) r.id =
          form.address (readRegByIdTr t) p := by
        intro t
        apply eq_of_read_eq
        intro m
        have haccess := accesses_of_id ⟨t, m⟩ form (Eq.refl r.id)
        exact Option.some.inj (haccess.leget.symm.trans (h ⟨t, m⟩))
      have hzero := haddr Regs.zero
      cases form with
      | mem =>
          have hone := haddr (bitFile r r.part.shift)
          simp only [AddressForm.unionAddress, AddressForm.address, readRegByIdTr_zero,
            read_bitFile_same _ rfl, bitValue_shift] at hzero hone
          exact absurd (hone.trans hzero.symm) (by decide)
      | sibRrn =>
          have hreg1 : p.reg1 = r := eq_of_based haddr
          have hscaled : ∀ t, readRegByIdTr t r * r.id = readRegByIdTr t p.reg2 * p.imm1 := by
            intro t
            have hsum := haddr t
            rw [AddressForm.unionAddress, AddressForm.address, hreg1] at hsum
            exact (BitVec.add_right_inj _).mp hsum
          obtain ⟨himm1, hreg2⟩ := eq_of_scaled hscaled
          exact ⟨congrArg _ hreg1, himm1, hreg2.imp_left (congrArg _)⟩
      | sibDrrn =>
          simp only [AddressForm.unionAddress, AddressForm.address, readRegByIdTr_zero] at hzero
          have himm1 : p.imm1 = r.id := by simpa using hzero.symm
          have hsum : ∀ t, readRegByIdTr t r + readRegByIdTr t r * r.id =
              readRegByIdTr t p.reg1 + readRegByIdTr t p.reg2 * p.imm2 := by
            intro t
            have hsum := haddr t
            rw [AddressForm.unionAddress, AddressForm.address, himm1, BitVec.add_comm _ r.id,
              BitVec.add_assoc r.id] at hsum
            exact (BitVec.add_right_inj _).mp hsum
          have hreg1 : p.reg1 = r := eq_of_based hsum
          have hscaled : ∀ t, readRegByIdTr t r * r.id = readRegByIdTr t p.reg2 * p.imm2 := by
            intro t
            have hsum := hsum t
            rw [hreg1] at hsum
            exact (BitVec.add_right_inj _).mp hsum
          obtain ⟨himm2, hreg2⟩ := eq_of_scaled hscaled
          exact ⟨himm1, congrArg _ hreg1, himm2, hreg2.imp_left (congrArg _)⟩
      | sibDrn =>
          simp only [AddressForm.unionAddress, AddressForm.address, readRegByIdTr_zero] at hzero
          have himm1 : p.imm1 = r.id := by simpa using hzero.symm
          have hscaled : ∀ t, readRegByIdTr t r * r.id = readRegByIdTr t p.reg1 * p.imm2 := by
            intro t
            have hsum := haddr t
            rw [AddressForm.unionAddress, AddressForm.address, himm1,
              BitVec.add_comm _ r.id] at hsum
            exact (BitVec.add_right_inj _).mp hsum
          obtain ⟨himm2, hreg1⟩ := eq_of_scaled hscaled
          exact ⟨himm1, himm2, hreg1.imp_left (congrArg _)⟩

theorem taskRegs_followsForm_iff :
    FollowsForm taskRegsBackEnd form w p ↔ HoldsParts w p form := by
  constructor
  · intro h
    exact holdsParts_of_leget fun s => (h s).leget
  · intro h s
    obtain ⟨r, hr, haddr⟩ := address_eq_of_holdsParts h
    have haccess := accesses_of_id s form hr
    rwa [haddr s.regs] at haccess

theorem address_frame (form : AddressForm) (p : OperandParts) (t : Regs) :
    form.address (readRegByIdIr t.frame) p = form.address (readRegByIdTr t) p := by
  have hread : readRegByIdIr t.frame = readRegByIdTr t := funext (readRegById_frame t)
  rw [hread]

/-- The interrupt frame, by way of the registers of a task. -/
theorem intRegs_followsForm_iff :
    FollowsForm intRegsBackEnd form w p ↔ HoldsParts w p form := by
  constructor
  · intro h
    refine holdsParts_of_leget fun s => ?_
    have hframe := (h (s.map Regs.frame)).leget
    rw [taskRegsBackEnd_mapsTo.leg] at hframe
    exact hframe.trans (congrArg (fun a => some (read s.mem a)) (address_frame form p s.regs))
  · rintro h ⟨r, mem⟩
    have hfollows := taskRegs_followsForm_iff.mpr h ⟨Regs.zero.saveFrom r, mem⟩
    have hstate : (⟨r, mem⟩ : EmuState IntRegs) =
        EmuState.map Regs.frame ⟨Regs.zero.saveFrom r, mem⟩ := by
      simp only [EmuState.map, frame_saveFrom]
    have haddress := address_frame form p (Regs.zero.saveFrom r)
    rw [frame_saveFrom] at haddress
    change Accesses intRegsBackEnd form w ⟨r, mem⟩ (form.address (readRegByIdIr r) p)
    rw [haddress, hstate]
    refine ⟨?_, ?_, fun val => ?_⟩
    · rw [taskRegsBackEnd_mapsTo.leg]
      exact hfollows.leget
    · rw [taskRegsBackEnd_mapsTo.reg]
      exact hfollows.reget
    · rw [taskRegsBackEnd_mapsTo.les, hfollows.leset val]
      rfl

end Forms

/-- **When an operand follows its form**, for all contents of the registers and
of the memory: an operand in memory exactly if its word is all its components,
and an immediate exactly if its word is `imm1`. -/
theorem operand_forms_iff (w : Word) (p : OperandParts) :
    (∀ form,
      (FollowsForm intRegsBackEnd form w p ↔ HoldsParts w p form) ∧
      (FollowsForm taskRegsBackEnd form w p ↔ HoldsParts w p form)) ∧
    (YieldsImm intRegsBackEnd w p ↔ w = p.imm1) ∧
    (YieldsImm taskRegsBackEnd w p ↔ w = p.imm1) := by
  refine ⟨fun form => ⟨intRegs_followsForm_iff, taskRegs_followsForm_iff⟩, ?_, ?_⟩
  · constructor
    · intro h
      exact Option.some.inj (h ⟨Regs.zero.frame, fun _ => 0⟩)
    · rintro rfl s
      rfl
  · constructor
    · intro h
      exact Option.some.inj (h ⟨Regs.zero, fun _ => 0⟩)
    · rintro rfl s
      rfl

/-- The operand `MEM` with `imm1 = 0` is read at the address in `eax`. -/
theorem mem_operand_reads_register :
    let s : EmuState IntRegs := ⟨{ Regs.zero.frame with eax := 0x100 }, write (fun _ => 0) 0x100 7⟩
    let p : OperandParts := ⟨.eax, .eax, 0, 0⟩
    legetIr s ⟨.mem, p.imm1⟩ = some 7 ∧
    read s.mem (AddressForm.mem.address (readRegByIdIr s.regs) p) = 0 ∧
    ∀ w, ¬ FollowsForm intRegsBackEnd .mem w p := by
  refine ⟨by decide, by decide, fun w h => ?_⟩
  exact intRegs_followsForm_iff.mp h

end Klyx
