import Klyx.Kernel.SlotScan
import Klyx.Lib.StackMemory

/-!
# Interrupt entry and exit

The macros `INT_START` and `INT_END` of `klyx/hw.h`, as the instructions that
they consist of, on the processor's registers and byte memory.  Segments are
flat, and the variables that the macros use lie outside the memory modelled
here.

`INT_START` leaves the interrupted registers on the stack as an `int_regs_t`
(`Cpu.context`).  `INT_END` loads them from there and returns on the stack that
the frame names, which need not be the one that it was pushed on.

**Results.**
* `intStart_context`: the frame that the handler gets.
* `intEnd_cpu`, `intEnd_mem`: what the exit code loads and writes.
-/

namespace Klyx

open StackMemory

/-- The registers of the processor. -/
structure Cpu where
  eax : Word
  ecx : Word
  edx : Word
  ebx : Word
  esp : Word
  ebp : Word
  esi : Word
  edi : Word
  eip : Word
  eflags : Word
  cs : BitVec 16
  ds : BitVec 16
  ss : BitVec 16
  es : BitVec 16
  fs : BitVec 16
  gs : BitVec 16
deriving DecidableEq

/-- The variables that the interrupt macros share. -/
structure FramePtrs where
  interruptEspStackPtr : Word
  interruptEipInstrPtr : Word
  interruptEflInstrPtr : Word
  interruptCdsInstrPtr : Word
deriving DecidableEq

/-- Registers, memory and the variables of the macros. -/
structure Machine where
  cpu : Cpu
  mem : Word → Byte
  ptrs : FramePtrs
  isInInterrupt : Bool

/-- The registers of an interrupted program in the layout of `int_regs_t`.  The
processor has pushed three words when `pushal` stores `esp`. -/
def Cpu.context (c : Cpu) : IntRegs where
  gs := c.gs.setWidth 32
  fs := c.fs.setWidth 32
  es := c.es.setWidth 32
  ss := c.ss.setWidth 32
  ds := c.ds.setWidth 32
  edi := c.edi
  esi := c.esi
  ebp := c.ebp
  esp := c.esp - 12
  ebx := c.ebx
  edx := c.edx
  ecx := c.ecx
  eax := c.eax
  eip := c.eip
  cs := c.cs.setWidth 32
  eflags := c.eflags

/-- The registers that a frame stands for. -/
def IntRegs.cpu (r : IntRegs) : Cpu where
  eax := r.eax
  ecx := r.ecx
  edx := r.edx
  ebx := r.ebx
  esp := r.esp + 12
  ebp := r.ebp
  esi := r.esi
  edi := r.edi
  eip := r.eip
  eflags := r.eflags
  cs := r.cs.setWidth 16
  ds := r.ds.setWidth 16
  ss := r.ss.setWidth 16
  es := r.es.setWidth 16
  fs := r.fs.setWidth 16
  gs := r.gs.setWidth 16

/-- The `int_regs_t` at an address. -/
def intRegsAt (m : Word → Byte) (p : Word) : IntRegs where
  gs := read m p
  fs := read m (p + 4)
  es := read m (p + 8)
  ss := read m (p + 12)
  ds := read m (p + 16)
  edi := read m (p + 20)
  esi := read m (p + 24)
  ebp := read m (p + 28)
  esp := read m (p + 32)
  ebx := read m (p + 36)
  edx := read m (p + 40)
  ecx := read m (p + 44)
  eax := read m (p + 48)
  eip := read m (p + 52)
  cs := read m (p + 56)
  eflags := read m (p + 60)

namespace Machine

/-! ### Instructions -/

def push (s : Machine) (w : Word) : Machine :=
  { s with
    cpu := { s.cpu with esp := s.cpu.esp - 4 }
    mem := write s.mem (s.cpu.esp - 4) w }

/-- Push a segment register, extended with zeros. -/
def pushSeg (s : Machine) (selector : BitVec 16) : Machine :=
  s.push (selector.setWidth 32)

/-- `pushal`. -/
def pushal (s : Machine) : Machine :=
  ((((((((s.push s.cpu.eax).push s.cpu.ecx).push s.cpu.edx).push s.cpu.ebx).push
    s.cpu.esp).push s.cpu.ebp).push s.cpu.esi).push s.cpu.edi)

/-- Pop a word into a register. -/
def pop (s : Machine) (assign : Cpu → Word → Cpu) : Machine :=
  { s with cpu := assign { s.cpu with esp := s.cpu.esp + 4 } (read s.mem s.cpu.esp) }

/-- Pop a word into a variable. -/
def popVar (s : Machine) (assign : FramePtrs → Word → FramePtrs) : Machine :=
  { s with
    cpu := { s.cpu with esp := s.cpu.esp + 4 }
    ptrs := assign s.ptrs (read s.mem s.cpu.esp) }

/-- `popal`, which drops the stored `esp`. -/
def popal (s : Machine) : Machine :=
  ((((((((s.pop (fun c w => { c with edi := w })).pop (fun c w => { c with esi := w })).pop
    (fun c w => { c with ebp := w })).pop (fun c _ => c)).pop
    (fun c w => { c with ebx := w })).pop (fun c w => { c with edx := w })).pop
    (fun c w => { c with ecx := w })).pop (fun c w => { c with eax := w }))

def cli (s : Machine) : Machine :=
  { s with cpu := { s.cpu with eflags := s.cpu.eflags &&& ~~~0x200 } }

def setEsp (s : Machine) (esp : Word) : Machine :=
  { s with cpu := { s.cpu with esp := esp } }

/-- A same-privilege interrupt through a 32-bit interrupt gate, without an
error code. -/
def interrupt (s : Machine) (handler : Word) : Machine :=
  let pushed := ((s.push s.cpu.eflags).pushSeg s.cpu.cs).push s.cpu.eip
  { pushed with
    cpu := { pushed.cpu with cs := 8, eip := handler, eflags := s.cpu.eflags &&& ~~~0x4300 } }

/-- `iretl` to the same privilege level. -/
def iretl (s : Machine) : Machine :=
  ((s.pop (fun c w => { c with eip := w })).pop (fun c w => { c with cs := w.setWidth 16 })).pop
    (fun c w => { c with eflags := w })

/-! ### The macros -/

/-- `INT_START`, and the pointer `regs` that it declares. -/
def intStart (s : Machine) : Machine × Word :=
  let s := s.cli.pushal
  let s := ((((s.pushSeg s.cpu.ds).pushSeg s.cpu.ss).pushSeg s.cpu.es).pushSeg s.cpu.fs).pushSeg
    s.cpu.gs
  -- `movw $0x10, %dx`, then `%dx` to three segment registers
  let s := { s with
    cpu := { s.cpu with
      edx := (s.cpu.edx &&& 0xFFFF0000) ||| 0x10
      ds := 0x10
      ss := 0x10
      es := 0x10 } }
  ({ s with
    ptrs := { s.ptrs with interruptEspStackPtr := s.cpu.esp }
    isInInterrupt := true }, s.cpu.esp)

/-- `INT_END` up to the `iretl` at its end. -/
def unwind (s : Machine) (regs : Word) : Machine :=
  let s := { s with isInInterrupt := false }
  let s := s.setEsp s.ptrs.interruptEspStackPtr
  -- `regs->esp+12`
  let s := { s with
    ptrs := { s.ptrs with interruptEspStackPtr := read s.mem (regs + 32) + 12 } }
  let s := ((((s.pop (fun c w => { c with gs := w.setWidth 16 })).pop
    (fun c w => { c with fs := w.setWidth 16 })).pop
    (fun c w => { c with es := w.setWidth 16 })).pop
    (fun c w => { c with ss := w.setWidth 16 })).pop
    (fun c w => { c with ds := w.setWidth 16 })
  -- `mov $0x20, %al` for the interrupt controllers
  let s := { s with cpu := { s.cpu with eax := (s.cpu.eax &&& 0xFFFFFF00) ||| 0x20 } }
  let s := s.popal
  let s := ((s.popVar (fun v w => { v with interruptEipInstrPtr := w })).popVar
    (fun v w => { v with interruptCdsInstrPtr := w })).popVar
    (fun v w => { v with interruptEflInstrPtr := w })
  let s := s.setEsp s.ptrs.interruptEspStackPtr
  ((s.push s.ptrs.interruptEflInstrPtr).push s.ptrs.interruptCdsInstrPtr).push
    s.ptrs.interruptEipInstrPtr

/-- `INT_END`. -/
def intEnd (s : Machine) (regs : Word) : Machine :=
  (s.unwind regs).iretl

/-- A handler is entered: the interrupt and `INT_START`. -/
def enter (s : Machine) (handler : Word) : Machine × Word :=
  (s.interrupt handler).intStart

end Machine

/-- The words of a frame from its lowest address up. -/
def IntRegs.words (r : IntRegs) : List Word :=
  [r.gs, r.fs, r.es, r.ss, r.ds, r.edi, r.esi, r.ebp, r.esp, r.ebx, r.edx, r.ecx, r.eax, r.eip,
    r.cs, r.eflags]

section Frames

@[simp] theorem words_length (r : IntRegs) : r.words.length = 16 := rfl

theorem words_injective {r r' : IntRegs}
    (h : r.words = r'.words) :
    r = r' := by
  cases r
  cases r'
  simpa [IntRegs.words, and_assoc] using h

/-- A context stands for the registers that it was made of. -/
theorem context_cpu (c : Cpu) :
    c.context.cpu = c := by
  have hesp : c.esp - 12 + 12 = c.esp := BitVec.sub_add_cancel c.esp 12
  simp only [Cpu.context, IntRegs.cpu, hesp]
  simp [BitVec.setWidth_setWidth_of_le]

theorem words_intRegsAt (m : Word → Byte) (p : Word) :
    (intRegsAt m p).words = readWords m p 16 := by
  simp only [IntRegs.words, intRegsAt, readWords, BitVec.add_assoc]
  rfl

end Frames

section Entry

variable (s : Machine) (handler : Word)

/-- The entry code pushes the context, its last word first. -/
theorem enter_stack :
    (⟨(s.enter handler).1.mem, (s.enter handler).2⟩ : Stack) =
      pushAll ⟨s.mem, s.cpu.esp⟩ s.cpu.context.words.reverse := by
  have hesp : s.cpu.esp - 12 = s.cpu.esp - 4 - 4 - 4 := by bv_omega
  simp only [Cpu.context, IntRegs.words, hesp, List.reverse_cons, List.reverse_nil, List.nil_append,
    List.cons_append, pushAll, List.foldl_cons, List.foldl_nil]
  simp only [Machine.enter, Machine.interrupt, Machine.intStart, Machine.pushal,
    Machine.pushSeg, Machine.cli, Machine.push, push]

theorem enter_ptr :
    (s.enter handler).1.ptrs.interruptEspStackPtr = (s.enter handler).2 := rfl

theorem intStart_context :
    intRegsAt (s.enter handler).1.mem (s.enter handler).2 = s.cpu.context := by
  have hstack := enter_stack s handler
  have hread := readWords_pushAll ⟨s.mem, s.cpu.esp⟩ s.cpu.context.words.reverse (by simp)
  rw [← hstack] at hread
  rw [List.length_reverse, List.reverse_reverse, words_length] at hread
  apply words_injective
  rw [words_intRegsAt]
  exact hread

/-- The entry code writes nothing at or above the interrupted stack pointer. -/
theorem enter_mem {x : Word}
    (h : (x - s.cpu.esp).toNat + 64 < 2 ^ 32) :
    (s.enter handler).1.mem x = s.mem x := by
  have hstack := congrArg Stack.mem (enter_stack s handler)
  have habove := pushAll_mem_of_above ⟨s.mem, s.cpu.esp⟩ s.cpu.context.words.reverse
    (by simpa using h)
  exact (congrFun hstack x).trans habove

end Entry

section Exit

variable {s : Machine} {regs : Word}

/-- The frame that the exit code uses. -/
def Machine.frame (s : Machine) : IntRegs :=
  intRegsAt s.mem s.ptrs.interruptEspStackPtr

/-- The words that the exit code pushes for `iretl`. -/
def IntRegs.returnWords (r : IntRegs) : List Word :=
  [r.eflags, r.cs, r.eip]

/-- The return words go below the stack pointer that `regs` names. -/
theorem unwind_stack (s : Machine) (regs : Word) :
    (⟨(s.unwind regs).mem, (s.unwind regs).cpu.esp⟩ : Stack) =
      pushAll ⟨s.mem, read s.mem (regs + 32) + 12⟩ s.frame.returnWords := by
  simp only [IntRegs.returnWords, pushAll, List.foldl_cons, List.foldl_nil, push, Machine.frame,
    intRegsAt, Machine.unwind, Machine.setEsp, Machine.pop, Machine.popal, Machine.popVar,
    Machine.push, BitVec.add_assoc, BitVec.ofNat_eq_ofNat, BitVec.reduceAdd]

/-- The registers that are popped from the frame. -/
theorem unwind_cpu (s : Machine) (regs : Word) :
    (s.unwind regs).cpu =
      { s.frame.cpu with
        esp := read s.mem (regs + 32) + 12 - 4 - 4 - 4
        eip := s.cpu.eip
        cs := s.cpu.cs
        eflags := s.cpu.eflags } := by
  simp only [IntRegs.cpu, Machine.frame, intRegsAt, Machine.unwind, Machine.setEsp, Machine.pop,
    Machine.popal, Machine.popVar, Machine.push, BitVec.add_assoc, BitVec.ofNat_eq_ofNat,
    BitVec.reduceAdd]

/-- The variables keep what was popped from the frame. -/
theorem unwind_ptrs
    (hregs : regs = s.ptrs.interruptEspStackPtr) :
    (s.unwind regs).ptrs =
      ⟨s.frame.esp + 12, s.frame.eip, s.frame.eflags, s.frame.cs⟩ := by
  subst hregs
  simp only [Machine.frame, intRegsAt, Machine.unwind, Machine.setEsp, Machine.pop,
    Machine.popal, Machine.popVar, Machine.push, BitVec.add_assoc, BitVec.ofNat_eq_ofNat,
    BitVec.reduceAdd]

/-- What `iretl` loads is what was pushed for it. -/
theorem readWords_return (r : IntRegs) (st : Stack) :
    readWords (pushAll st r.returnWords).mem (pushAll st r.returnWords).esp 3 =
      [r.eip, r.cs, r.eflags] :=
  readWords_pushAll st r.returnWords (by simp [IntRegs.returnWords])

theorem iretl_cpu {eip cs eflags : Word}
    (h : readWords s.mem s.cpu.esp 3 = [eip, cs, eflags]) :
    s.iretl.cpu =
      { s.cpu with
        esp := s.cpu.esp + 4 + 4 + 4
        eip := eip
        cs := cs.setWidth 16
        eflags := eflags } := by
  simp only [readWords, List.cons.injEq, and_true] at h
  obtain ⟨heip, hcs, heflags⟩ := h
  simp only [Machine.iretl, Machine.pop, heip, hcs, heflags]

/-- The exit code loads the registers of the frame that the variable points to,
and the stack pointer that `regs` names. -/
theorem intEnd_cpu_of_frame (s : Machine) (regs : Word) :
    (s.intEnd regs).cpu = { s.frame.cpu with esp := read s.mem (regs + 32) + 12 } := by
  have hread := readWords_return s.frame ⟨s.mem, read s.mem (regs + 32) + 12⟩
  rw [← unwind_stack s regs] at hread
  have hesp : read s.mem (regs + 32) + 12 - 4 - 4 - 4 + 4 + 4 + 4 =
      read s.mem (regs + 32) + 12 := by
    bv_omega
  rw [Machine.intEnd, iretl_cpu hread, unwind_cpu s regs]
  simp only [hesp]
  rfl

/-- The exit code loads the registers of the frame. -/
theorem intEnd_cpu
    (hregs : regs = s.ptrs.interruptEspStackPtr) :
    (s.intEnd regs).cpu = s.frame.cpu := by
  subst hregs
  rw [intEnd_cpu_of_frame]
  rfl

/-- It writes nothing at or above the stack pointer that it restores. -/
theorem intEnd_mem {x : Word}
    (hregs : regs = s.ptrs.interruptEspStackPtr)
    (hx : (x - (s.frame.esp + 12)).toNat + 12 < 2 ^ 32) :
    (s.intEnd regs).mem x = s.mem x := by
  subst hregs
  have hstack := congrArg Stack.mem (unwind_stack s s.ptrs.interruptEspStackPtr)
  have habove := pushAll_mem_of_above ⟨s.mem, s.frame.esp + 12⟩ s.frame.returnWords hx
  exact (congrFun hstack x).trans habove

end Exit

/-- Counting upwards from a stack pointer, an address that comes before the 64
bytes below the pointer. -/
def AtOrAbove (esp x : Word) : Prop :=
  (x - esp).toNat + 64 < 2 ^ 32

theorem atOrAbove_of_le {esp x : Word}
    (hroom : 64 ≤ esp.toNat)
    (hx : esp.toNat ≤ x.toNat) :
    AtOrAbove esp x := by
  unfold AtOrAbove
  bv_omega

end Klyx
