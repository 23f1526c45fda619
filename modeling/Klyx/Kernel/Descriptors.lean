import Klyx.Kernel.Machine
import Klyx.Kernel.TaskCreation

/-!
# Segment descriptors

The descriptor table of `kernel/hw.c`.  A descriptor is described field by field
(`gdt_desc_t`), as the eight bytes that these fields make in memory, and as the
base and limit that the processor takes from the bytes.

`gdt_set` drops the low 12 bits of its limit, which counts bytes, and
`gdt_init` passes 0xFFFFF, which is the largest limit in pages.

**Results.**
* `decode_bytes`: what the processor takes from the bytes of a descriptor.
* `task_stacks_outside_segment`: no byte of a task's stack lies in the segment
  through which the task addresses it.
-/

namespace Klyx

/-- `gdt_desc_t`. -/
structure GdtDesc where
  limitLo : BitVec 16
  baseLo : BitVec 16
  baseMid : BitVec 8
  a : BitVec 1
  readWrite : BitVec 1
  dc : BitVec 1
  isExecutable : BitVec 1
  isntTss : BitVec 1
  ring : BitVec 2
  p : BitVec 1
  limitHi : BitVec 4
  zero : BitVec 1
  is64Bit : BitVec 1
  is32Bit : BitVec 1
  isLimitInPages : BitVec 1
  baseHi : BitVec 8
deriving DecidableEq

namespace GdtDesc

/-- A descriptor filled with zero bytes. -/
def zeroed : GdtDesc :=
  ⟨0, 0, 0, 0, 0, 0, 0, 0, 0, 0, 0, 0, 0, 0, 0, 0⟩

/-- The byte `access`, which is united with seven of the fields. -/
def access (d : GdtDesc) : Byte :=
  d.p ++ d.ring ++ d.isntTss ++ d.isExecutable ++ d.dc ++ d.readWrite ++ d.a

/-- The byte `limit_hi_and_flags`, which is united with five of the fields. -/
def limitHiAndFlags (d : GdtDesc) : Byte :=
  d.isLimitInPages ++ d.is32Bit ++ d.is64Bit ++ d.zero ++ d.limitHi

/-- Assign the byte `access`. -/
def setAccess (d : GdtDesc) (access : Byte) : GdtDesc :=
  { d with
    a := access.extractLsb' 0 1
    readWrite := access.extractLsb' 1 1
    dc := access.extractLsb' 2 1
    isExecutable := access.extractLsb' 3 1
    isntTss := access.extractLsb' 4 1
    ring := access.extractLsb' 5 2
    p := access.extractLsb' 7 1 }

/-- Assign the byte `limit_hi_and_flags`. -/
def setLimitHiAndFlags (d : GdtDesc) (flags : Byte) : GdtDesc :=
  { d with
    limitHi := flags.extractLsb' 0 4
    zero := flags.extractLsb' 4 1
    is64Bit := flags.extractLsb' 5 1
    is32Bit := flags.extractLsb' 6 1
    isLimitInPages := flags.extractLsb' 7 1 }

/-- The bytes of a descriptor in memory. -/
def bytes (d : GdtDesc) : List Byte :=
  [d.limitLo.setWidth 8, (d.limitLo >>> 8).setWidth 8, d.baseLo.setWidth 8,
    (d.baseLo >>> 8).setWidth 8, d.baseMid, d.access, d.limitHiAndFlags, d.baseHi]

end GdtDesc

/-- `GDT_CAP`. -/
def gdtCap : Nat := 128

/-- `sizeof(tss)`. -/
def tssSize : Nat := 26 * 4

/-- `gdt_set`. -/
def gdtSet (gdt : Nat → GdtDesc) (id : BitVec 16) (limit base : Word)
    (isExecutable isTss : Bool) (ring : Byte) : Nat → GdtDesc :=
  if id.toNat ≥ gdtCap then gdt
  else
    let limit := limit >>> 12
    Function.update gdt id.toNat
      { limitLo := limit.setWidth 16
        limitHi := (limit >>> 16).setWidth 4
        baseLo := base.setWidth 16
        baseMid := (base >>> 16).setWidth 8
        baseHi := (base >>> 24).setWidth 8
        isExecutable := BitVec.ofBool isExecutable
        isntTss := BitVec.ofBool (!isTss)
        ring := ring.setWidth 2
        a := 1
        readWrite := 1
        dc := 0
        p := 1
        zero := 0
        is64Bit := 0
        is32Bit := 1
        isLimitInPages := 1 }

/-- `gdt_init`, where `tss` is the address of the task state segment. -/
def gdtInit (tss : Word) (gdt : Nat → GdtDesc) : Nat → GdtDesc :=
  let gdt := Function.update gdt 0 .zeroed
  let gdt := (List.range' 1 (gdtCap - 1)).foldl
    (fun gdt i => gdtSet gdt (BitVec.ofNat 16 i) 0xFFFFF 0 false false 0) gdt
  let gdt := gdtSet gdt 1 0xFFFFF 0 true false 0
  let gdt := gdtSet gdt 2 0xFFFFF 0 false false 0
  let tssd := { gdt 3 with
    limitLo := BitVec.ofNat 16 tssSize
    baseLo := tss.setWidth 16
    baseMid := (tss >>> 16).setWidth 8
    baseHi := (tss >>> 24).setWidth 8 }
  Function.update gdt 3 ((tssd.setAccess 0x89).setLimitHiAndFlags 0x40)

/-! ### The processor's reading of a descriptor -/

/-- The base address in the bytes of a descriptor. -/
def segmentBase (bytes : List Byte) : Nat :=
  (bytes.getD 2 0).toNat + 2 ^ 8 * (bytes.getD 3 0).toNat + 2 ^ 16 * (bytes.getD 4 0).toNat +
    2 ^ 24 * (bytes.getD 7 0).toNat

/-- The limit in the bytes of a descriptor: the offset of the last byte.  The top
bit of the flags makes it count pages of 4096 bytes. -/
def segmentLimit (bytes : List Byte) : Nat :=
  let flags := (bytes.getD 6 0).toNat
  let limit := (bytes.getD 0 0).toNat + 2 ^ 8 * (bytes.getD 1 0).toNat + 2 ^ 16 * (flags % 2 ^ 4)
  if flags / 2 ^ 7 = 1 then limit * 4096 + 4095 else limit

/-- An address is within the segment of a descriptor. -/
def GdtDesc.Contains (d : GdtDesc) (address : Nat) : Prop :=
  segmentBase d.bytes ≤ address ∧ address ≤ segmentBase d.bytes + segmentLimit d.bytes

instance (d : GdtDesc) (address : Nat) : Decidable (d.Contains address) :=
  inferInstanceAs (Decidable (_ ∧ _))

section Decoding

/-- The flags byte holds the high part of the limit and the granularity. -/
theorem limitHiAndFlags_fields : ∀ (pages is32 is64 zero : BitVec 1) (limitHi : BitVec 4),
    (pages ++ is32 ++ is64 ++ zero ++ limitHi : Byte).toNat % 2 ^ 4 = limitHi.toNat ∧
    (pages ++ is32 ++ is64 ++ zero ++ limitHi : Byte).toNat / 2 ^ 7 = pages.toNat := by
  decide +kernel

theorem split16 (x : BitVec 16) :
    (x.setWidth 8).toNat + 2 ^ 8 * ((x >>> 8).setWidth 8).toNat = x.toNat := by
  have := x.isLt
  simp only [BitVec.toNat_setWidth, BitVec.toNat_ushiftRight, Nat.shiftRight_eq_div_pow]
  omega

/-- What the processor takes from the bytes of a descriptor. -/
theorem decode_bytes (d : GdtDesc) :
    segmentBase d.bytes = d.baseLo.toNat + 2 ^ 16 * d.baseMid.toNat + 2 ^ 24 * d.baseHi.toNat ∧
    segmentLimit d.bytes =
      if d.isLimitInPages.toNat = 1 then
        (d.limitLo.toNat + 2 ^ 16 * d.limitHi.toNat) * 4096 + 4095
      else d.limitLo.toNat + 2 ^ 16 * d.limitHi.toNat := by
  obtain ⟨hlimitHi, hpages⟩ := limitHiAndFlags_fields d.isLimitInPages d.is32Bit d.is64Bit d.zero
    d.limitHi
  have hbase := split16 d.baseLo
  have hlimit := split16 d.limitLo
  constructor
  · simp only [segmentBase, GdtDesc.bytes, List.getD_cons_succ, List.getD_cons_zero]
    omega
  · simp only [segmentLimit, GdtDesc.bytes, GdtDesc.limitHiAndFlags, List.getD_cons_succ,
      List.getD_cons_zero, hlimitHi, hpages, hlimit]

end Decoding

section Stacks

variable (tss : Word) (gdt : Nat → GdtDesc)

/-- The data segment that `gdt_init` installs. -/
theorem gdtInit_data :
    gdtInit tss gdt 2 =
      { GdtDesc.zeroed with
        limitLo := 0xFF
        isntTss := 1
        a := 1
        readWrite := 1
        p := 1
        is32Bit := 1
        isLimitInPages := 1 } := by
  have hne : (2 : Nat) ≠ 3 := by decide
  rw [gdtInit, Function.update_of_ne hne, gdtSet, if_neg (by decide)]
  exact Function.update_self _ _ _

/-- It starts at 0 and is as long as a megabyte. -/
theorem data_contains_iff (address : Nat) :
    (gdtInit tss gdt 2).Contains address ↔ address < 2 ^ 20 := by
  obtain ⟨hbase, hlimit⟩ := decode_bytes (gdtInit tss gdt 2)
  rw [gdtInit_data] at hbase hlimit ⊢
  simp only [GdtDesc.Contains, hbase, hlimit]
  simp [GdtDesc.zeroed]
  omega

/-- The stack of a slot: the `taskStackCap` bytes below its first stack pointer. -/
def InStack (pid address : Nat) : Prop :=
  tasksStackStart + taskStackCap * pid - taskStackCap ≤ address ∧
    address < tasksStackStart + taskStackCap * pid

instance (pid address : Nat) : Decidable (InStack pid address) :=
  inferInstanceAs (Decidable (_ ∧ _))

theorem not_contains_of_inStack {pid address : Nat}
    (h : InStack pid address) :
    ¬ (gdtInit tss gdt 2).Contains address := by
  rw [data_contains_iff]
  obtain ⟨hlow, -⟩ := h
  unfold tasksStackStart taskStackCap at hlow
  omega

end Stacks

/-- **No byte of a task's stack is within its stack segment**: for every slot that
`sched_make_task` fills, with selector 0x10 for entry 2 of the table. -/
theorem task_stacks_outside_segment (tss : Word) (gdt : Nat → GdtDesc) (k : Kernel) (pid : Nat)
    (eip tty fs gs cs : Word) (yieldOnly : Bool)
    (hfree : FirstFree k pid) :
    let task := (schedMakeTask k eip tty fs gs cs 0x10 yieldOnly).1.tasks pid
    task.status = .new ∧ task.regs.ss.toNat / 8 = 2 ∧
    task.regs.esp.toNat = tasksStackStart + taskStackCap * pid ∧
    ∀ address, InStack pid address → ¬ (gdtInit tss gdt 2).Contains address := by
  dsimp only
  have hcreated := freshTask_created eip tty fs gs cs 0x10 yieldOnly hfree.lt
  rw [schedMakeTask_slot eip tty fs gs cs 0x10 yieldOnly hfree]
  refine ⟨hcreated.status, ?_, hcreated.esp, fun address => not_contains_of_inStack tss gdt⟩
  rw [hcreated.ss]
  rfl

/-- The first task of `kernel_start`. -/
theorem task_stacks_outside_segment_sample :
    (schedMakeTask Kernel.zero 0x10000 0 0 0 0x08 0x10 true).2 = 0 ∧
    ∀ address, InStack 0 address →
      ¬ (gdtInit 0x20000 (fun _ => .zeroed) 2).Contains address :=
  ⟨by decide +kernel,
    (task_stacks_outside_segment 0x20000 (fun _ => .zeroed) Kernel.zero 0 0x10000 0 0 0 0x08 true
      ⟨by decide, rfl, fun _ hq => absurd hq (Nat.not_lt_zero _)⟩).2.2.2⟩

/-- The highest byte of the stack of init. -/
theorem init_stack_outside_segment :
    ¬ ∀ address, InStack 0 address →
      (gdtInit 0x20000 (fun _ => .zeroed) 2).Contains address := by
  intro h
  have hin : InStack 0 0x3FFFFFFF := by decide
  exact absurd (h _ hin) (by rw [data_contains_iff]; decide)

end Klyx
