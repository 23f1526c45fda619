import Klyx.Kernel.Descriptors

/-!
# Encoding and decoding descriptors

`gdt_set` and `idt_set` against the processor's reading of the bytes that they
leave.  Both scatter their arguments over bit fields of different widths by
implicit truncation.  `gdt_set` counts its limit in pages, so that the lower 12
bits of the limit are ones when it is decoded.

**Results.**
* `decode_gdtSet`, `decode_idtSet`: what the processor takes from the bytes.
* `descriptor_encoders_round_trip`: both tables.
-/

namespace Klyx

/-- `idt_desc_t`. -/
structure IdtDesc where
  offset1 : BitVec 16
  segment : BitVec 16
  zero1 : BitVec 8
  gateType : BitVec 4
  zero2 : BitVec 1
  ring : BitVec 2
  present : BitVec 1
  offset2 : BitVec 16
deriving DecidableEq

/-- The bytes of a descriptor in memory. -/
def IdtDesc.bytes (d : IdtDesc) : List Byte :=
  [d.offset1.setWidth 8, (d.offset1 >>> 8).setWidth 8, d.segment.setWidth 8,
    (d.segment >>> 8).setWidth 8, d.zero1, d.present ++ d.ring ++ d.zero2 ++ d.gateType,
    d.offset2.setWidth 8, (d.offset2 >>> 8).setWidth 8]

/-- `idt_set`. -/
def idtSet (idt : Nat → IdtDesc) (interruptId : Byte) (seg handler gate ring : Word) :
    Nat → IdtDesc :=
  Function.update idt interruptId.toNat
    { offset1 := handler.setWidth 16
      segment := seg.setWidth 16
      zero1 := 0
      gateType := gate.setWidth 4
      zero2 := 0
      ring := ring.setWidth 2
      present := 1
      offset2 := (handler >>> 16).setWidth 16 }

/-! ### The processor's reading -/

/-- What the processor takes from a segment descriptor. -/
structure Segment where
  base : Nat
  limit : Nat
  isExecutable : Bool
  isntTss : Bool
  ring : Nat
  present : Bool
  is32Bit : Bool
deriving DecidableEq

def decodeSegment (bytes : List Byte) : Segment :=
  let access := (bytes.getD 5 0).toNat
  let flags := (bytes.getD 6 0).toNat
  { base := segmentBase bytes
    limit := segmentLimit bytes
    isExecutable := access / 2 ^ 3 % 2 = 1
    isntTss := access / 2 ^ 4 % 2 = 1
    ring := access / 2 ^ 5 % 2 ^ 2
    present := access / 2 ^ 7 = 1
    is32Bit := flags / 2 ^ 6 % 2 = 1 }

/-- What the processor takes from a descriptor of the interrupt table. -/
structure Gate where
  offset : Nat
  segment : Nat
  type : Nat
  ring : Nat
  present : Bool
deriving DecidableEq

def decodeGate (bytes : List Byte) : Gate :=
  let access := (bytes.getD 5 0).toNat
  { offset := (bytes.getD 0 0).toNat + 2 ^ 8 * (bytes.getD 1 0).toNat +
      2 ^ 16 * (bytes.getD 6 0).toNat + 2 ^ 24 * (bytes.getD 7 0).toNat
    segment := (bytes.getD 2 0).toNat + 2 ^ 8 * (bytes.getD 3 0).toNat
    type := access % 2 ^ 4
    ring := access / 2 ^ 5 % 2 ^ 2
    present := access / 2 ^ 7 = 1 }

section Bytes

/-- The access byte holds these fields. -/
theorem access_fields : ∀ (p : BitVec 1) (ring : BitVec 2) (isntTss exec dc rw a : BitVec 1),
    let access : Byte := p ++ ring ++ isntTss ++ exec ++ dc ++ rw ++ a
    access.toNat / 2 ^ 3 % 2 = exec.toNat ∧
    access.toNat / 2 ^ 4 % 2 = isntTss.toNat ∧
    access.toNat / 2 ^ 5 % 2 ^ 2 = ring.toNat ∧
    access.toNat / 2 ^ 7 = p.toNat := by
  decide +kernel

theorem flags_is32Bit : ∀ (pages is32 is64 zero : BitVec 1) (limitHi : BitVec 4),
    (pages ++ is32 ++ is64 ++ zero ++ limitHi : Byte).toNat / 2 ^ 6 % 2 = is32.toNat := by
  decide +kernel

theorem gate_fields : ∀ (present : BitVec 1) (ring : BitVec 2) (zero : BitVec 1) (type : BitVec 4),
    let access : Byte := present ++ ring ++ zero ++ type
    access.toNat % 2 ^ 4 = type.toNat ∧
    access.toNat / 2 ^ 5 % 2 ^ 2 = ring.toNat ∧
    access.toNat / 2 ^ 7 = present.toNat := by
  decide +kernel

/-- Pages, of which the last one counts in full. -/
theorem or_pageMask (n : Nat) : n / 4096 * 4096 + 4095 = n ||| 0xFFF := by
  have hhigh : (n ||| 0xFFF) / 2 ^ 12 = n / 2 ^ 12 := by
    rw [Nat.or_div_two_pow]
    exact Nat.or_zero _
  have hlow : (n ||| 0xFFF) % 2 ^ 12 = 2 ^ 12 - 1 := by
    have hlt : n % 2 ^ 12 ||| 0xFFF < 2 ^ 12 :=
      Nat.or_lt_two_pow (Nat.mod_lt n (by decide)) (by decide)
    have hle : 0xFFF ≤ n % 2 ^ 12 ||| 0xFFF := Nat.right_le_or
    rw [Nat.or_mod_two_pow]
    exact Nat.le_antisymm (Nat.le_of_lt_succ hlt) hle
  omega

end Bytes

section Decoding

theorem decodeSegment_bytes (d : GdtDesc) :
    decodeSegment d.bytes =
      { base := d.baseLo.toNat + 2 ^ 16 * d.baseMid.toNat + 2 ^ 24 * d.baseHi.toNat
        limit := if d.isLimitInPages.toNat = 1 then
          (d.limitLo.toNat + 2 ^ 16 * d.limitHi.toNat) * 4096 + 4095
          else d.limitLo.toNat + 2 ^ 16 * d.limitHi.toNat
        isExecutable := d.isExecutable.toNat = 1
        isntTss := d.isntTss.toNat = 1
        ring := d.ring.toNat
        present := d.p.toNat = 1
        is32Bit := d.is32Bit.toNat = 1 } := by
  obtain ⟨hbase, hlimit⟩ := decode_bytes d
  obtain ⟨hexec, hsystem, hring, hpresent⟩ := access_fields d.p d.ring d.isntTss d.isExecutable d.dc
    d.readWrite d.a
  have his32 := flags_is32Bit d.isLimitInPages d.is32Bit d.is64Bit d.zero d.limitHi
  simp only [decodeSegment, hbase, hlimit]
  simp only [GdtDesc.bytes, GdtDesc.access, GdtDesc.limitHiAndFlags, List.getD_cons_succ,
    List.getD_cons_zero, hexec, hsystem, hring, hpresent, his32]

theorem decodeGate_bytes (d : IdtDesc) :
    decodeGate d.bytes =
      { offset := d.offset1.toNat + 2 ^ 16 * d.offset2.toNat
        segment := d.segment.toNat
        type := d.gateType.toNat
        ring := d.ring.toNat
        present := d.present.toNat = 1 } := by
  obtain ⟨htype, hring, hpresent⟩ := gate_fields d.present d.ring d.zero2 d.gateType
  have hlow := split16 d.offset1
  have hhigh := split16 d.offset2
  have hsegment := split16 d.segment
  simp only [decodeGate, IdtDesc.bytes, List.getD_cons_succ, List.getD_cons_zero, htype, hring,
    hpresent, hsegment, Gate.mk.injEq, and_true]
  omega

theorem decode_gdtSet (gdt : Nat → GdtDesc) (limit base : Word) (isExecutable isTss : Bool)
    (ring : Byte) {id : BitVec 16}
    (hid : id.toNat < gdtCap) :
    decodeSegment (gdtSet gdt id limit base isExecutable isTss ring id.toNat).bytes =
      { base := base.toNat
        limit := limit.toNat ||| 0xFFF
        isExecutable := isExecutable
        isntTss := !isTss
        ring := ring.toNat % 4
        present := true
        is32Bit := true } := by
  have hbase := base.isLt
  have hlimit := limit.isLt
  rw [gdtSet, if_neg (Nat.not_le.mpr hid), Function.update_self, decodeSegment_bytes,
    ← or_pageMask]
  simp only [BitVec.toNat_setWidth, BitVec.toNat_ushiftRight, Nat.shiftRight_eq_div_pow,
    Segment.mk.injEq]
  have hpages : (1 : BitVec 1).toNat = 1 := rfl
  refine ⟨by omega, ?_, ?_, ?_, trivial, rfl, rfl⟩
  · rw [if_pos hpages]
    omega
  · cases isExecutable <;> rfl
  · cases isTss <;> rfl

theorem decode_idtSet (idt : Nat → IdtDesc) (interruptId : Byte) (seg handler gate ring : Word) :
    decodeGate (idtSet idt interruptId seg handler gate ring interruptId.toNat).bytes =
      { offset := handler.toNat
        segment := seg.toNat % 2 ^ 16
        type := gate.toNat % 16
        ring := ring.toNat % 4
        present := true } := by
  have hhandler := handler.isLt
  rw [idtSet, Function.update_self, decodeGate_bytes]
  simp only [BitVec.toNat_setWidth, BitVec.toNat_ushiftRight, Nat.shiftRight_eq_div_pow,
    Gate.mk.injEq]
  exact ⟨by omega, trivial, trivial, trivial, rfl⟩

end Decoding

/-- **Descriptors are decoded as they were encoded**, in the table of segments
and in that of interrupts, and no other entry changes. -/
theorem descriptor_encoders_round_trip :
    (∀ (gdt : Nat → GdtDesc) (id : BitVec 16) (limit base : Word) (isExecutable isTss : Bool)
        (ring : Byte),
      (id.toNat < gdtCap →
        decodeSegment (gdtSet gdt id limit base isExecutable isTss ring id.toNat).bytes =
          ⟨base.toNat, limit.toNat ||| 0xFFF, isExecutable, !isTss, ring.toNat % 4, true, true⟩ ∧
        ∀ i, i ≠ id.toNat → gdtSet gdt id limit base isExecutable isTss ring i = gdt i) ∧
      (gdtCap ≤ id.toNat → gdtSet gdt id limit base isExecutable isTss ring = gdt)) ∧
    ∀ (idt : Nat → IdtDesc) (interruptId : Byte) (seg handler gate ring : Word),
      decodeGate (idtSet idt interruptId seg handler gate ring interruptId.toNat).bytes =
        ⟨handler.toNat, seg.toNat % 2 ^ 16, gate.toNat % 16, ring.toNat % 4, true⟩ ∧
      ∀ i, i ≠ interruptId.toNat → idtSet idt interruptId seg handler gate ring i = idt i := by
  constructor
  · intro gdt id limit base isExecutable isTss ring
    constructor
    · intro hid
      refine ⟨decode_gdtSet gdt limit base isExecutable isTss ring hid, fun i hi => ?_⟩
      rw [gdtSet, if_neg (Nat.not_le.mpr hid)]
      exact Function.update_of_ne hi _ _
    · intro hid
      exact if_pos hid
  · intro idt interruptId seg handler gate ring
    exact ⟨decode_idtSet idt interruptId seg handler gate ring,
      fun i hi => Function.update_of_ne hi _ _⟩

end Klyx
