import Klyx.Kernel.DescriptorCoding
import Klyx.Lib.InterruptController

/-!
# Interrupts from the devices to the handlers

`kernel_start` fills the interrupt table, sets up both interrupt controllers and the
timer, and then enables interrupts.  From then on each handler begins with `INT_START` and
ends with `INT_END`, which tells the controllers of the end of an interrupt, whether there
was one or not.  Handlers that let others run in between do so before with
`INT_BECAME_ASYNC`.

**Results.**
* `decode_bootIdt`: where each vector leads.
* `bootDevices_eq`: what the controllers and the timer are told.
* `interrupts_answered`: no request of a device is lost, blocked or overtaken, and nothing
  stays in service while interrupts are enabled.
-/

namespace Klyx

open InterruptController

/-! ### The interrupt table -/

/-- The traps of `traps.c`. -/
inductive Trap where
  | doDivideBy0 | nmi | breakpoint | overflow | bound | invalidOpcode | deviceNoAvaliable
  | doubleFault | coprocessorSegmentOverrun | invalidTss | segmentNotPresent
  | stackSegmentFault | generalProtection | pageFault | x87Error | alignment | machine | simd
deriving DecidableEq

/-- The functions that are entered by interrupts. -/
inductive EntryPoint where
  | nothing
  | timer
  | keyboard
  | syscall
  | trap (t : Trap)
deriving DecidableEq

/-- A call of `idt_set` with selector 0x08 and `IDT_GATE_32BIT_INT`. -/
structure GateSet where
  interruptId : Byte
  handler : EntryPoint
  ring : Word
deriving DecidableEq

def GateSet.set (addr : EntryPoint → Word) (idt : Nat → IdtDesc) (g : GateSet) : Nat → IdtDesc :=
  idtSet idt g.interruptId 0x08 (addr g.handler) 0x0E g.ring

/-- `IDT_CAP`. -/
def idtCap : Nat := 256

/-- `idt_init`, where `addr` gives the addresses of the functions. -/
def idtInit (addr : EntryPoint → Word) (idt : Nat → IdtDesc) : Nat → IdtDesc :=
  ((List.range idtCap).map (fun i => ⟨BitVec.ofNat 8 i, .nothing, 0⟩)).foldl (GateSet.set addr) idt

/-- The calls in `kernel_start`. -/
def bootGates : List GateSet :=
  [⟨32, .timer, 0⟩, ⟨33, .keyboard, 0⟩, ⟨0x80, .syscall, 3⟩,
    ⟨0x00, .trap .doDivideBy0, 0⟩, ⟨0x02, .trap .nmi, 0⟩, ⟨0x03, .trap .breakpoint, 0⟩,
    ⟨0x04, .trap .overflow, 0⟩, ⟨0x05, .trap .bound, 0⟩, ⟨0x06, .trap .invalidOpcode, 0⟩,
    ⟨0x07, .trap .deviceNoAvaliable, 0⟩, ⟨0x08, .trap .doubleFault, 0⟩,
    ⟨0x09, .trap .coprocessorSegmentOverrun, 0⟩, ⟨0x0A, .trap .invalidTss, 0⟩,
    ⟨0x0B, .trap .segmentNotPresent, 0⟩, ⟨0x0C, .trap .stackSegmentFault, 0⟩,
    ⟨0x0D, .trap .generalProtection, 0⟩, ⟨0x0E, .trap .pageFault, 0⟩, ⟨0x10, .trap .x87Error, 0⟩,
    ⟨0x11, .trap .alignment, 0⟩, ⟨0x12, .trap .machine, 0⟩, ⟨0x13, .trap .simd, 0⟩]

/-- The table after booting. -/
def bootIdt (addr : EntryPoint → Word) (idt : Nat → IdtDesc) : Nat → IdtDesc :=
  bootGates.foldl (GateSet.set addr) (idtInit addr idt)

/-- The function that a vector leads to, and who may call it. -/
def bootGate (v : Byte) : GateSet :=
  (bootGates.find? (fun g => g.interruptId = v)).getD ⟨v, .nothing, 0⟩

/-! ### The devices -/

/-- Counter 0 of the interval timer. -/
structure Pit where
  reload : BitVec 16
  /-- The low byte, if that has been written only. -/
  low : Option Byte

/-- A write to the command port: counter 0, low byte first. -/
def Pit.command (p : Pit) (data : Byte) : Pit :=
  if data.extractLsb' 4 4 = 0b0011#4 then { p with low := none } else p

/-- A write to the port of counter 0. -/
def Pit.write (p : Pit) (data : Byte) : Pit :=
  match p.low with
  | none => { p with low := some data }
  | some low => { reload := data ++ low, low := none }

/-- What `kernel_start` programs. -/
structure Devices where
  pics : Pair
  pit : Pit

/-- `outb`. -/
def Devices.outb (d : Devices) (port : BitVec 16) (data : Byte) : Devices :=
  if port = 0x20 then { d with pics := { d.pics with master := d.pics.master.command data } }
  else if port = 0x21 then { d with pics := { d.pics with master := d.pics.master.write data } }
  else if port = 0xA0 then { d with pics := { d.pics with slave := d.pics.slave.command data } }
  else if port = 0xA1 then { d with pics := { d.pics with slave := d.pics.slave.write data } }
  else if port = 0x43 then { d with pit := d.pit.command data }
  else if port = 0x40 then { d with pit := d.pit.write data }
  else d

/-- `inb(0x21)`. -/
def Devices.mask (d : Devices) : Byte :=
  d.pics.master.mask

/-- The writes to the controllers in `kernel_start`. -/
def picWrites : List (BitVec 16 × Byte) :=
  [(0x20, 0x11), (0xA0, 0x11), (0x21, 0x20), (0xA1, 0x28), (0x21, 0x04), (0xA1, 0x02),
    (0x21, 0x01), (0xA1, 0x01), (0x21, 0x00), (0xA1, 0x00)]

/-- `pit_div`. -/
def pitDiv : BitVec 16 := BitVec.ofNat 16 (1193182 / 60)

/-- What `kernel_start` does to the devices. -/
def bootDevices (d : Devices) : Devices :=
  let d := picWrites.foldl (fun d w => d.outb w.1 w.2) d
  let d := d.outb 0x43 0x36
  let d := d.outb 0x40 ((pitDiv &&& 0xFF).setWidth 8)
  let d := d.outb 0x40 (((pitDiv >>> 8) &&& 0xFF).setWidth 8)
  d.outb 0x21 (d.mask &&& ~~~1)

/-- A controller that has been set up and has no requests. -/
def readyPic (base cascade : Byte) : Pic where
  requested := fun _ => false
  inService := fun _ => false
  mask := 0
  base := base
  cascade := cascade
  awaits := []

theorem bootDevices_eq (d : Devices) :
    bootDevices d = ⟨⟨readyPic 32 4, readyPic 40 2⟩, ⟨BitVec.ofNat 16 (1193182 / 60), none⟩⟩ := by
  simp [bootDevices, picWrites, Devices.outb, Pic.command, Pic.write, Pit.command, Pit.write,
    Devices.mask, readyPic, pitDiv]

section Gates

variable (addr : EntryPoint → Word) (idt : Nat → IdtDesc)

/-- What the processor takes from an entry that `idt_set` has made. -/
def GateSet.gate (g : GateSet) : Gate :=
  ⟨(addr g.handler).toNat, 8, 14, g.ring.toNat % 4, true⟩

/-- The last call of `idt_set` for a vector decides. -/
theorem decode_gateSets (gs : List GateSet) (v : Byte) :
    decodeGate (gs.foldl (GateSet.set addr) idt v.toNat).bytes =
      ((gs.reverse.find? (fun g => g.interruptId = v)).map (GateSet.gate addr)).getD
        (decodeGate (idt v.toNat).bytes) := by
  induction gs using List.reverseRecOn with
  | nil =>
      rfl
  | append_singleton gs g ih =>
      rw [List.foldl_append, List.foldl_cons, List.foldl_nil, List.reverse_append,
        List.reverse_singleton, List.singleton_append]
      by_cases hv : g.interruptId = v
      · subst hv
        rw [GateSet.set, decode_idtSet]
        simp [GateSet.gate]
      · have hne : v.toNat ≠ g.interruptId.toNat :=
          fun heq => hv (BitVec.eq_of_toNat_eq heq).symm
        rw [GateSet.set, idtSet, Function.update_of_ne hne, ih]
        simp [hv]

/-- After `idt_init` every vector leads to `idt_nothing`. -/
theorem decode_idtInit (v : Byte) :
    decodeGate (idtInit addr idt v.toNat).bytes = GateSet.gate addr ⟨v, .nothing, 0⟩ := by
  rw [idtInit, decode_gateSets, ← List.map_reverse, List.find?_map]
  have hv : BitVec.ofNat 8 v.toNat = v := by simp
  cases hfind : (List.range idtCap).reverse.find?
      ((fun g : GateSet => decide (g.interruptId = v)) ∘
        fun i => ⟨BitVec.ofNat 8 i, EntryPoint.nothing, 0⟩) with
  | none =>
      have hmem : v.toNat ∈ (List.range idtCap).reverse := by
        simpa [idtCap] using v.isLt
      simpa [hv] using List.find?_eq_none.mp hfind v.toNat hmem
  | some i =>
      rfl

/-- **Where each vector leads** after booting, whatever was in the table before. -/
theorem decode_bootIdt (v : Byte) :
    decodeGate (bootIdt addr idt v.toNat).bytes = GateSet.gate addr (bootGate v) := by
  rw [bootIdt, decode_gateSets, decode_idtInit]
  have hfind : ∀ v : Byte, bootGates.reverse.find? (fun g => g.interruptId = v) =
      bootGates.find? (fun g => g.interruptId = v) := by
    decide +kernel
  rw [hfind, bootGate]
  cases bootGates.find? (fun g => g.interruptId = v) with
  | none =>
      rfl
  | some g =>
      rfl

end Gates

/-! ### Handlers and devices -/

/-- The end of an interrupt, by ports 0xA0 and 0x20. -/
def acknowledgeEnd (d : Devices) : Devices :=
  (d.outb 0xA0 0x20).outb 0x20 0x20

/-- The devices, and the interrupt flag. -/
structure InterruptState where
  devices : Devices
  enabled : Bool

/-- `INT_START`, and any other way into an interrupt gate. -/
def intStart (s : InterruptState) : InterruptState :=
  { s with enabled := false }

/-- `INT_BECAME_ASYNC`. -/
def intBecameAsync (s : InterruptState) : InterruptState :=
  ⟨acknowledgeEnd s.devices, true⟩

/-- `INT_BECAME_SYNC`. -/
def intBecameSync (s : InterruptState) : InterruptState :=
  { s with enabled := false }

/-- `INT_END` and `idt_nothing`; the flag is that of the context that goes on. -/
def intEnd (s : InterruptState) (flag : Bool) : InterruptState :=
  ⟨acknowledgeEnd s.devices, flag⟩

/-- What happens after booting, with the line that the processor accepts, if one is. -/
inductive InterruptStep : InterruptState → Option Line → InterruptState → Prop where
  /-- A device raises a line.  The one between the controllers is none of a device. -/
  | request
      (s : InterruptState)
      (l : Line)
      (hdevice : l ≠ .master 2) :
      InterruptStep s none
        { s with devices := { s.devices with pics := s.devices.pics.request l } }
  /-- An interrupt gate is entered for a line. -/
  | accept
      (s : InterruptState)
      (l : Line)
      (pics : Pair)
      (henabled : s.enabled = true)
      (hack : s.devices.pics.acknowledge = some (l, pics)) :
      InterruptStep s (some l) (intStart ⟨{ s.devices with pics := pics }, s.enabled⟩)
  /-- An interrupt gate is entered by a system call or a trap. -/
  | trap
      (s : InterruptState) :
      InterruptStep s none (intStart s)
  | becameAsync
      (s : InterruptState) :
      InterruptStep s none (intBecameAsync s)
  | becameSync
      (s : InterruptState) :
      InterruptStep s none (intBecameSync s)
  | intEnd
      (s : InterruptState)
      (flag : Bool) :
      InterruptStep s none (intEnd s flag)

/-- Steps one after the other, with the lines that are accepted. -/
inductive InterruptRun : InterruptState → List Line → InterruptState → Prop where
  | refl
      (s : InterruptState) :
      InterruptRun s [] s
  | tail {s s' s'' : InterruptState} {ls : List Line} {o : Option Line}
      (h : InterruptRun s ls s')
      (hstep : InterruptStep s' o s'') :
      InterruptRun s (ls ++ o.toList) s''

/-- `sti` after everything has been set up. -/
def bootInterrupts (d : Devices) : InterruptState :=
  ⟨bootDevices d, true⟩

/-- The number of a line, as the devices count them. -/
def irq : Line → Nat
  | .master n => n
  | .slave n => 8 + n

/-- The function that is to serve a line. -/
def lineHandler (l : Line) : EntryPoint :=
  if irq l = 0 then .timer
  else if irq l = 1 then .keyboard
  else .nothing

/-- The controllers and the flag only. -/
def InterruptState.core (s : InterruptState) : State :=
  ⟨s.devices.pics, s.enabled⟩

section Interrupts

variable {d : Devices} {s s' : InterruptState} {o : Option Line} {ls : List Line} {l : Line}

theorem acknowledgeEnd_pics (d : Devices) :
    (acknowledgeEnd d).pics = d.pics.endOfInterrupt := by
  simp [acknowledgeEnd, Devices.outb, Pair.endOfInterrupt]

/-- Each step is one of the controllers and the processor. -/
theorem InterruptStep.core
    (h : InterruptStep s o s') :
    Step 2 s.core o s'.core := by
  cases h with
  | request l hdevice =>
      exact .request s.core l hdevice
  | accept l pics henabled hack =>
      exact .accept s.core l pics henabled hack
  | trap | becameSync =>
      exact .disable s.core
  | becameAsync =>
      have hfinish := @Step.finish 2 s.core true
      rwa [InterruptState.core, ← acknowledgeEnd_pics] at hfinish
  | intEnd flag =>
      have hfinish := @Step.finish 2 s.core flag
      rwa [InterruptState.core, ← acknowledgeEnd_pics] at hfinish

theorem InterruptRun.core
    (h : InterruptRun s ls s') :
    Run 2 s.core ls s'.core := by
  induction h with
  | refl =>
      exact .refl _
  | tail _ hstep ih =>
      exact ih.tail hstep.core

/-- Nothing is in service when interrupts are enabled. -/
theorem bootInterrupts_inv (d : Devices) :
    Inv 2 (bootInterrupts d).core := by
  have hidle : (bootInterrupts d).core.pics.Idle := by
    rw [InterruptState.core, bootInterrupts, bootDevices_eq]
    exact ⟨fun _ => rfl, fun _ => rfl⟩
  refine ⟨?_, ⟨hidle.1.servesOne, hidle.2.servesOne⟩, fun _ => hidle⟩
  rw [InterruptState.core, bootInterrupts, bootDevices_eq]
  decide

/-- In every run the controllers stay set up. -/
theorem InterruptRun.setup
    (h : InterruptRun (bootInterrupts d) ls s) :
    Inv 2 s.core ∧ Pair.SameSetup ⟨readyPic 32 4, readyPic 40 2⟩ s.devices.pics := by
  have hboth := h.core.inv (bootInterrupts_inv d)
  rw [InterruptState.core, bootInterrupts, bootDevices_eq] at hboth
  exact hboth

/-- No line is masked. -/
theorem pending_of_requested
    (h : InterruptRun (bootInterrupts d) ls s)
    (hdevice : l ≠ .master 2)
    (hrequested : s.devices.pics.Requested l) :
    s.devices.pics.Pending l := by
  rcases h.setup with ⟨hinv, hsetup⟩
  have hmaster : s.devices.pics.master.mask = 0 := hsetup.masterMask
  have hslave : s.devices.pics.slave.mask = 0 := hsetup.slaveMask
  have hline : s.devices.pics.cascadeLine = some 2 := hinv.cascade
  cases l with
  | master n =>
      refine ⟨?_, ?_⟩
      · simpa [Pic.wants, hmaster, Pair.Requested] using hrequested
      · rw [hline]
        exact fun heq => hdevice (by rw [Option.some.inj heq])
  | slave n =>
      refine ⟨?_, 2, hline, by simp [hmaster]⟩
      simpa [Pic.wants, hslave, Pair.Requested] using hrequested

/-- The vector of a line, and the gate that it leads to. -/
theorem line_gate (addr : EntryPoint → Word) (idt : Nat → IdtDesc)
    (h : InterruptRun (bootInterrupts d) ls s)
    (l : Line) :
    s.devices.pics.vector l = 32 + irq l ∧
      decodeGate (bootIdt addr idt (s.devices.pics.vector l)).bytes =
        ⟨(addr (lineHandler l)).toNat, 8, 14, 0, true⟩ := by
  have hsetup := h.setup.2
  have hvector : s.devices.pics.vector l = 32 + irq l := by
    cases l with
    | master n =>
        simp [Pair.vector, hsetup.masterBase, readyPic, irq]
    | slave n =>
        simp [Pair.vector, hsetup.slaveBase, readyPic, irq]
        omega
  refine ⟨hvector, ?_⟩
  have hgate : ∀ l : Line, bootGate (BitVec.ofNat 8 (32 + irq l)) =
      ⟨BitVec.ofNat 8 (32 + irq l), lineHandler l, 0⟩ := by
    rintro (n | n) <;> revert n <;> decide +kernel
  have hlt : 32 + irq l < 256 := by
    cases l <;> simp only [irq] <;> omega
  have htable := decode_bootIdt addr idt (BitVec.ofNat 8 (32 + irq l))
  rw [BitVec.toNat_ofNat, Nat.mod_eq_of_lt hlt, hgate] at htable
  rw [hvector, htable]
  rfl

/-- **Interrupts are answered.**  In every run after booting, whenever the processor
accepts interrupts nothing is in service, and if a device has raised a line, the most urgent
line raised is accepted, by the gate of its own handler; and a line stays raised until it is
accepted, which happens before any less urgent one is. -/
theorem interrupts_answered (addr : EntryPoint → Word) (idt : Nat → IdtDesc)
    (hrun : InterruptRun (bootInterrupts d) ls s) :
    (s.enabled = true → s.devices.pics.Idle ∧
      ∀ l, l ≠ .master 2 → s.devices.pics.Requested l →
        ∃ l' pics, s.devices.pics.acknowledge = some (l', pics) ∧
          l' ≠ .master 2 ∧ s.devices.pics.Requested l' ∧
          Pair.urgency 2 l' ≤ Pair.urgency 2 l ∧
          s.devices.pics.vector l' = 32 + irq l' ∧
          decodeGate (bootIdt addr idt (s.devices.pics.vector l')).bytes =
            ⟨(addr (lineHandler l')).toNat, 8, 14, 0, true⟩) ∧
    ∀ l, l ≠ .master 2 → s.devices.pics.Requested l →
      ∀ ls' s', InterruptRun s ls' s' → l ∉ ls' →
        s'.devices.pics.Requested l ∧ ∀ l' ∈ ls', Pair.urgency 2 l' < Pair.urgency 2 l := by
  have hinv := hrun.setup.1
  constructor
  · intro henabled
    have hidle := hinv.idle henabled
    refine ⟨hidle, ?_⟩
    intro l hdevice hrequested
    have hpending := pending_of_requested hrun hdevice hrequested
    rcases Pair.acknowledge_of_pending hinv.cascade hidle hpending with ⟨l', pics, hack⟩
    have hlaw := Pair.acknowledge_law hinv.cascade hidle hack
    exact ⟨l', pics, hack, hlaw.pending.ne_cascade hinv.cascade, hlaw.pending.requested,
      hlaw.urgent l hpending, line_gate addr idt hrun l'⟩
  · intro l hdevice hrequested ls' s' hrest hnot
    have hpending := pending_of_requested hrun hdevice hrequested
    rcases hrest.core.pending hinv hpending hnot with ⟨hstill, hbefore⟩
    exact ⟨hstill.requested, hbefore⟩

end Interrupts

/-- The keyboard and then the timer raise their lines. -/
theorem interrupts_answered_sample :
    ∃ s, InterruptRun (bootInterrupts ⟨⟨readyPic 8 0, readyPic 112 0⟩, ⟨0, none⟩⟩) [] s ∧
      s.devices.pics.Idle ∧ ∃ l pics, s.devices.pics.acknowledge = some (l, pics) ∧
        s.devices.pics.Requested l ∧ Pair.urgency 2 l ≤ Pair.urgency 2 (.master 1) := by
  let d : Devices := ⟨⟨readyPic 8 0, readyPic 112 0⟩, ⟨0, none⟩⟩
  have hkeyboard := InterruptRun.tail (.refl _)
    (InterruptStep.request (bootInterrupts d) (.master 1) (by decide))
  have hrun := hkeyboard.tail (InterruptStep.request _ (.master 0) (by decide))
  have hanswered := interrupts_answered (fun _ => 0x10000)
    (fun _ => ⟨0, 0, 0, 0, 0, 0, 0, 0⟩) hrun
  rcases hanswered.1 rfl with ⟨hidle, hmost⟩
  rcases hmost (.master 1) (by decide) rfl with ⟨l, pics, hack, -, hrequested, hle, -⟩
  exact ⟨_, hrun, hidle, l, pics, hack, hrequested, hle⟩

end Klyx
