import Klyx.Kernel.InterruptFrame
import Klyx.Kernel.Machine

/-!
# The frames of exceptions

Every exception handler of `kernel/traps.c` begins with `INT_START` and hands
the frame on: to `x86_error_trap`, which has it saved by `sched_next_task`, to
`panic` or to the debugger.  The layout of `int_regs_t` puts `eip` right above
the registers pushed by `pushal`.  For some vectors the processor pushes an
error code there, and the words above it are read one place too low
(`Cpu.shiftedContext`).

**Results.**
* `faultFrame_plain`, `faultFrame_errorCode`: the frame that a handler gets.
* `fault_frame_read_iff`: for which vectors it tells the truth.
-/

namespace Klyx

open StackMemory

/-- The exceptions for which the processor pushes an error code: double fault,
the segment faults, page fault and alignment check. -/
def PushesErrorCode (vector : Nat) : Prop :=
  vector ∈ [8, 10, 11, 12, 13, 14, 17]

instance (vector : Nat) : Decidable (PushesErrorCode vector) :=
  inferInstanceAs (Decidable (vector ∈ _))

/-- The vectors of exceptions for which `kernel_start` installs a handler. -/
def trapVectors : List Nat :=
  [0x00, 0x02, 0x03, 0x04, 0x05, 0x06, 0x07, 0x08, 0x09, 0x0A, 0x0B, 0x0C, 0x0D, 0x0E, 0x10, 0x11,
    0x12, 0x13]

/-- The processor enters the handler of an exception, at the same privilege
level. -/
def Machine.exception (s : Machine) (vector : Nat) (handler errorCode : Word) : Machine :=
  if PushesErrorCode vector then (s.interrupt handler).push errorCode else s.interrupt handler

/-- The `int_regs_t` that `INT_START` leaves for the handler. -/
def Machine.faultFrame (s : Machine) (vector : Nat) (handler errorCode : Word) : IntRegs :=
  intRegsAt ((s.exception vector handler errorCode).intStart).1.mem
    ((s.exception vector handler errorCode).intStart).2

/-- A frame tells where the processor was: `eip`, `cs` and `eflags` are those of
the faulting instruction, and `esp + 12` is its stack pointer. -/
structure FrameRead (c : Cpu) (r : IntRegs) : Prop where
  eip : r.eip = c.eip
  cs : r.cs = c.cs.setWidth 32
  eflags : r.eflags = c.eflags
  esp : r.esp + 12 = c.esp

/-- What an error code makes of the frame. -/
def Cpu.shiftedContext (c : Cpu) (errorCode : Word) : IntRegs :=
  { c.context with
    esp := c.esp - 16
    eip := errorCode
    cs := c.eip
    eflags := c.cs.setWidth 32 }

section Frames

variable (s : Machine) {vector : Nat} (handler errorCode : Word)

/-- Without an error code the frame is the context of the program. -/
theorem faultFrame_plain
    (h : ¬ PushesErrorCode vector) :
    s.faultFrame vector handler errorCode = s.cpu.context := by
  unfold Machine.faultFrame Machine.exception
  rw [if_neg h]
  exact intStart_context s handler

/-- The words pushed on the way to a handler whose vector has an error code. -/
theorem errorCode_stack :
    (⟨(((s.interrupt handler).push errorCode).intStart).1.mem,
      (((s.interrupt handler).push errorCode).intStart).2⟩ : Stack) =
      pushAll ⟨s.mem, s.cpu.esp⟩
        ((s.cpu.shiftedContext errorCode).words ++ [s.cpu.eflags]).reverse := by
  have hesp : s.cpu.esp - 16 = s.cpu.esp - 4 - 4 - 4 - 4 := by bv_omega
  simp only [Cpu.shiftedContext, Cpu.context, IntRegs.words, hesp, List.cons_append,
    List.nil_append, List.reverse_cons, List.reverse_nil, pushAll, List.foldl_cons, List.foldl_nil]
  simp only [Machine.interrupt, Machine.intStart, Machine.pushal, Machine.pushSeg, Machine.cli,
    Machine.push, push]

/-- With an error code the frame starts one word lower. -/
theorem faultFrame_errorCode
    (h : PushesErrorCode vector) :
    s.faultFrame vector handler errorCode = s.cpu.shiftedContext errorCode := by
  have hread := readWords_pushAll ⟨s.mem, s.cpu.esp⟩
    ((s.cpu.shiftedContext errorCode).words ++ [s.cpu.eflags]).reverse (by simp)
  rw [← errorCode_stack s handler errorCode, List.length_reverse, List.reverse_reverse,
    List.length_append, words_length, List.length_singleton, readWords_succ] at hread
  unfold Machine.faultFrame Machine.exception
  rw [if_pos h]
  apply words_injective
  rw [words_intRegsAt]
  have hlow := List.append_inj_left' hread (by simp)
  exact hlow

theorem frameRead_context (c : Cpu) : FrameRead c c.context where
  eip := rfl
  cs := rfl
  eflags := rfl
  esp := BitVec.sub_add_cancel c.esp 12

theorem not_frameRead_shiftedContext (c : Cpu) (errorCode : Word) :
    ¬ FrameRead c (c.shiftedContext errorCode) := by
  intro h
  have hesp : c.esp - 16 + 12 = c.esp := h.esp
  bv_omega

end Frames

/-- **For which exceptions the frame tells the truth**, to the handler and in
the registers that `sched_next_task` saves for the running task. -/
theorem fault_frame_read_iff (s : Machine) (handler errorCode : Word) (k : Kernel) :
    ∀ vector ∈ trapVectors,
      (FrameRead s.cpu (s.faultFrame vector handler errorCode) ∧
        FrameRead s.cpu
          (k.saveCurrent (s.faultFrame vector handler errorCode)).current.regs.frame ↔
        ¬ PushesErrorCode vector) := by
  intro vector _
  have hsaved : ∀ frame, (k.saveCurrent frame).current.regs.frame = frame := by
    intro frame
    rw [Kernel.current, saveCurrent_tasks, saveCurrent_currentTask, Function.update_self]
    exact frame_saveFrom k.current.regs frame
  rw [hsaved, and_self]
  by_cases hcode : PushesErrorCode vector
  · rw [faultFrame_errorCode s handler errorCode hcode]
    exact iff_of_false (not_frameRead_shiftedContext s.cpu errorCode) (not_not_intro hcode)
  · rw [faultFrame_plain s handler errorCode hcode]
    exact iff_of_true (frameRead_context s.cpu) hcode

/-- A program at 0x10000 with an empty stack below 0x40000000. -/
def faultingMachine : Machine where
  cpu :=
    { eax := 0, ecx := 0, edx := 0, ebx := 0, esp := 0x40000000, ebp := 0, esi := 0, edi := 0
      eip := 0x10000, eflags := 0x202, cs := 8, ds := 16, ss := 16, es := 16, fs := 0, gs := 0 }
  mem := fun _ => 0
  ptrs := ⟨0, 0, 0, 0⟩
  isInInterrupt := false

/-- The theorem applies to the division by zero of this program. -/
theorem fault_frame_read_iff_sample :
    FrameRead faultingMachine.cpu (faultingMachine.faultFrame 0 0x20000 0) ∧
      FrameRead faultingMachine.cpu
        (Kernel.zero.saveCurrent (faultingMachine.faultFrame 0 0x20000 0)).current.regs.frame ↔
      ¬ PushesErrorCode 0 :=
  fault_frame_read_iff faultingMachine 0x20000 0 Kernel.zero 0 (by decide)

/-- A page fault with the error code 2 is reported at the address 2. -/
theorem page_fault_misread :
    (faultingMachine.faultFrame 14 0x20000 2).eip = 2 ∧
    (faultingMachine.faultFrame 14 0x20000 2).esp + 12 = 0x40000000 - 4 ∧
    ¬ FrameRead faultingMachine.cpu (faultingMachine.faultFrame 14 0x20000 2) := by
  rw [faultFrame_errorCode _ _ _ (by decide)]
  exact ⟨rfl, rfl, not_frameRead_shiftedContext _ _⟩

end Klyx
