import Klyx.Kernel.AsyncSyscall

/-!
# When an interrupt is transparent

A handler between its `INT_START` and its `INT_END` may do anything to registers
and memory.  Whether `INT_END` resumes the program whose context is in the frame
depends on the variables of the macros (`exitTransparent_iff`).  The handlers of
the timer and the keyboard run with interrupts off and leave these variables
alone; those of system calls and of the breakpoint turn interrupts on in
between, and then it depends on when interrupts come.

**Results.**
* `FrameOf.eq_context`: a program's frame, also after a stay in its task structure.
* `exitTransparent_iff`: `INT_END` is right exactly if the variable points to the
  frame.
* `interrupt_transparent_iff`: entry and exit of all handlers.
-/

namespace Klyx

open HaltingRun StackMemory

/-- The frame of an interrupted program: as the entry code pushed it, or as the
scheduler gives it back from the task structure that it was saved in. -/
inductive FrameOf (s₀ : Machine) : IntRegs → Prop
  | pushed
      (handler : Word) :
      FrameOf s₀ (intRegsAt (s₀.enter handler).1.mem (s₀.enter handler).2)
  | switched
      (handler : Word)
      (regs : IntRegs)
      (r : Regs) :
      FrameOf s₀ (regs.resumeFrom
        (r.saveFrom (intRegsAt (s₀.enter handler).1.mem (s₀.enter handler).2)))

theorem FrameOf.eq_context {s₀ : Machine} {f : IntRegs}
    (h : FrameOf s₀ f) :
    f = s₀.cpu.context := by
  cases h with
  | pushed handler =>
      exact intStart_context s₀ handler
  | switched handler regs r =>
      rw [resumeFrom_eq_frame, frame_saveFrom, intStart_context]

/-- `INT_END` goes on with the registers `c`, and writes nothing at or above
their stack pointer. -/
structure Resumes (s : Machine) (regs : Word) (c : Cpu) : Prop where
  cpu : (s.intEnd regs).cpu = c
  mem : ∀ x, AtOrAbove c.esp x → (s.intEnd regs).mem x = s.mem x

/-- With these variables, and whatever else a handler has done, `INT_END` resumes
the program whose frame is at `regs`. -/
def ExitTransparent (ptrs : FramePtrs) (regs : Word) : Prop :=
  ∀ (s₀ : Machine) (cpu : Cpu) (mem : Word → Byte) (isInInterrupt : Bool),
    FrameOf s₀ (intRegsAt mem regs) → Resumes ⟨cpu, mem, ptrs, isInInterrupt⟩ regs s₀.cpu

section Exit

variable {regs : Word} {ptrs : FramePtrs}

/-- The exit code resumes the program whose context is in the frame. -/
theorem intEnd_resumes {s : Machine} {c : Cpu}
    (hregs : regs = s.ptrs.interruptEspStackPtr)
    (hframe : intRegsAt s.mem regs = c.context) :
    Resumes s regs c := by
  have hcontext : s.frame = c.context := by
    rw [Machine.frame, ← hregs, hframe]
  have hcpu := context_cpu c
  constructor
  · rw [intEnd_cpu hregs, hcontext, hcpu]
  · intro x hx
    have hesp : s.frame.esp + 12 = c.esp := by
      rw [hcontext]
      exact congrArg Cpu.esp hcpu
    refine intEnd_mem hregs ?_
    rw [hesp]
    unfold AtOrAbove at hx
    omega

/-- Frames at two addresses: one of them has a byte that is loaded and that the
other does not have. -/
theorem loaded_byte_outside {p q : Word}
    (h : p ≠ q) :
    64 ≤ (q - p).toNat ∨ 64 ≤ (q + 60 + 3 - p).toNat := by
  have hdist : (q - p).toNat ≠ 0 := by
    intro hzero
    apply h
    bv_omega
  by_cases hfar : 64 ≤ (q - p).toNat
  · exact Or.inl hfar
  · right
    bv_omega

/-- A byte outside a frame may change. -/
theorem intRegsAt_update {mem : Word → Byte} {x : Word}
    (hx : 64 ≤ (x - regs).toNat)
    (b : Byte) :
    intRegsAt (Function.update mem x b) regs = intRegsAt mem regs := by
  apply words_injective
  rw [words_intRegsAt, words_intRegsAt]
  refine readWords_congr (by decide) ?_
  intro y hy
  apply Function.update_of_ne
  rintro rfl
  omega

/-- The registers that are loaded tell two bytes of the frame. -/
theorem frame_bytes {mem mem' : Word → Byte} {q esp esp' : Word}
    (h : { (intRegsAt mem q).cpu with esp := esp } = { (intRegsAt mem' q).cpu with esp := esp' }) :
    mem q = mem' q ∧ mem (q + 60 + 3) = mem' (q + 60 + 3) := by
  have hgs : (read mem q).setWidth 16 = (read mem' q).setWidth 16 := congrArg Cpu.gs h
  have heflags : read mem (q + 60) = read mem' (q + 60) := congrArg Cpu.eflags h
  constructor
  · have hlow := congrArg BitVec.toNat hgs
    have hbyte := read_low mem q
    have hbyte' := read_low mem' q
    rw [BitVec.toNat_setWidth, BitVec.toNat_setWidth] at hlow
    apply BitVec.eq_of_toNat_eq
    omega
  · apply BitVec.eq_of_toNat_eq
    rw [← read_high, ← read_high, heflags]

/-- `INT_END` is transparent exactly if the variable points to the frame. -/
theorem exitTransparent_iff :
    ExitTransparent ptrs regs ↔ ptrs.interruptEspStackPtr = regs := by
  constructor
  · intro h
    by_contra hne
    -- a program with its frame at `regs`, and the same with another byte somewhere else
    let s₀ : Machine :=
      ⟨{ (default : IntRegs).cpu with esp := regs + 64 }, fun _ => 0, ptrs, false⟩
    have hregs : (s₀.enter 0).2 = regs := by
      have hesp := congrArg Stack.esp (enter_stack s₀ 0)
      rw [pushAll_esp, List.length_reverse, words_length] at hesp
      exact hesp.trans (BitVec.add_sub_cancel regs 64)
    have hframe : FrameOf s₀ (intRegsAt (s₀.enter 0).1.mem regs) := by
      have hpushed := @FrameOf.pushed s₀ 0
      rwa [hregs] at hpushed
    have hcpu := (h s₀ s₀.cpu _ false hframe).cpu
    rw [intEnd_cpu_of_frame] at hcpu
    have hsame : ∀ x, 64 ≤ (x - regs).toNat → ∀ b,
        (s₀.enter 0).1.mem ptrs.interruptEspStackPtr =
          Function.update (s₀.enter 0).1.mem x b ptrs.interruptEspStackPtr ∧
        (s₀.enter 0).1.mem (ptrs.interruptEspStackPtr + 60 + 3) =
          Function.update (s₀.enter 0).1.mem x b (ptrs.interruptEspStackPtr + 60 + 3) := by
      intro x hx b
      have hframe' : FrameOf s₀ (intRegsAt (Function.update (s₀.enter 0).1.mem x b) regs) := by
        rw [intRegsAt_update hx]
        exact hframe
      have hcpu' := (h s₀ s₀.cpu _ false hframe').cpu
      rw [intEnd_cpu_of_frame] at hcpu'
      exact frame_bytes (hcpu.trans hcpu'.symm)
    have hdiffer : ∀ b : Byte, b ≠ b + 1 := by
      intro b
      bv_omega
    rcases loaded_byte_outside (Ne.symm hne) with hfirst | hlast
    · have hbyte := (hsame _ hfirst ((s₀.enter 0).1.mem ptrs.interruptEspStackPtr + 1)).1
      rw [Function.update_self] at hbyte
      exact hdiffer _ hbyte
    · have hbyte :=
        (hsame _ hlast ((s₀.enter 0).1.mem (ptrs.interruptEspStackPtr + 60 + 3) + 1)).2
      rw [Function.update_self] at hbyte
      exact hdiffer _ hbyte
  · intro hptr s₀ cpu mem isInInterrupt hframe
    exact intEnd_resumes hptr.symm hframe.eq_context

end Exit

/-- **When interrupt entry and exit are transparent**, for the interrupted program
and for one that was interrupted earlier and is resumed in its place.  The
handlers of the timer and the keyboard always are; those of system calls and of
the breakpoint exactly if no interrupt comes between the write back of the frame
pointer and the `cli`. -/
theorem interrupt_transparent_iff (s : Machine) (handler : Word) :
    -- the entry code spares the memory at or above the interrupted stack pointer
    (∀ x, AtOrAbove s.cpu.esp x → (s.enter handler).1.mem x = s.mem x) ∧
    (∀ x, 64 ≤ s.cpu.esp.toNat → s.cpu.esp.toNat ≤ x.toNat → AtOrAbove s.cpu.esp x) ∧
    -- handlers with interrupts off leave the variables as the entry code has set them
    ExitTransparent (s.enter handler).1.ptrs (s.enter handler).2 ∧
    -- handlers that turn them on find what a run of all tasks has left there
    ∀ (tasks t : AsyncState) (es : List AsyncEvent) (hd : Handler),
      (∀ pid, tasks.handler pid = none) →
      run AsyncState.step tasks es = .ok t →
      t.current = some hd →
      hd.pc = .intEnd →
      hd.frame = (s.enter handler).2 →
      (ExitTransparent t.ptrs (s.enter handler).2 ↔ hd.hit = false) ∧
      (Throughout AsyncState.step Spared tasks es →
        ExitTransparent t.ptrs (s.enter handler).2) := by
  refine ⟨fun x hx => ?_, fun x => atOrAbove_of_le, ?_, ?_⟩
  · exact enter_mem s handler hx
  · exact exitTransparent_iff.mpr (enter_ptr s handler)
  · intro tasks t es hd hidle hrun hcurrent hpc hframe
    have hinv := asyncInv_of_run hidle hrun
    have hiff : ExitTransparent t.ptrs (s.enter handler).2 ↔ hd.hit = false := by
      rw [exitTransparent_iff, ← hframe]
      exact (hinv.running hd hcurrent).frame_iff hpc
    refine ⟨hiff, fun hspared => ?_⟩
    exact hiff.mpr (noneHit_of_run hidle hspared hrun t.currentTask hd hcurrent)

/-- Task 1 makes a system call. -/
def callingMachine : Machine where
  cpu := cpuAt 0x40002000
  mem := fun _ => 0
  ptrs := idleTasks.ptrs
  isInInterrupt := false

/-- Task 1 is preempted in the middle of its system call, and goes on as it should. -/
theorem interrupt_transparent_iff_sample :
    ∃ t, run AsyncState.step idleTasks preemptedWrite = .ok t ∧
      (∃ hd ∈ t.current, hd.pc = .intEnd) ∧
      ExitTransparent t.ptrs (callingMachine.enter 0).2 := by
  obtain ⟨t, hrun, hd, hcurrent, hpc, hframe⟩ := exists_of_returnsWith
    (x := run AsyncState.step idleTasks preemptedWrite)
    (p := fun t => ∃ hd ∈ t.current, hd.pc = .intEnd ∧ hd.frame = (callingMachine.enter 0).2)
    (by decide +kernel)
  obtain ⟨-, -, -, hcall⟩ := interrupt_transparent_iff callingMachine 0
  obtain ⟨-, hspared⟩ := hcall idleTasks t preemptedWrite hd (fun _ => rfl) hrun hcurrent hpc hframe
  exact ⟨t, hrun, ⟨hd, hcurrent, hpc⟩, hspared (by decide +kernel)⟩

/-- With an interrupt between the write back and the `cli`, the call returns with
registers that are not those of task 1, though its frame is unchanged. -/
theorem late_interrupt_changes_registers :
    ∃ t, run AsyncState.step idleTasks lateInterrupt = .ok t ∧
      (∃ hd ∈ t.current, hd.pc = .intEnd ∧ hd.frame = (callingMachine.enter 0).2) ∧
      ((⟨callingMachine.cpu, (callingMachine.enter 0).1.mem, t.ptrs, true⟩ : Machine).intEnd
        (callingMachine.enter 0).2).cpu ≠ callingMachine.cpu := by
  apply exists_of_returnsWith
  decide +kernel

end Klyx
