import Klyx.Kernel.Traps
import Klyx.Lib.HaltingRun

/-!
# The kernel as an event machine

`kernel_start` creates the first five tasks and starts tasking by system
call 0.  From then on the kernel only reacts: to timer ticks, to system calls,
to processor faults, and to direct calls of `sched_make_task`,
`sched_kill_task` and `sched_next_task` by kernel code.  Interrupt gates keep
other interrupts out, so each reaction is one step.

An event carries the registers that the processor holds when it happens; they
are arbitrary, because user programs are.
-/

namespace Klyx

/-- Addresses of the built-in programs, fixed by the linker. -/
structure Image where
  testInit : Word
  testA : Word
  testB : Word
  testC : Word

/-- Sample addresses. -/
def Image.sample : Image :=
  ⟨0x1000, 0x2000, 0x3000, 0x4000⟩

/-- The kernel's memory before `kernel_start`: the table is zero. -/
def Kernel.zero : Kernel where
  tasks := fun _ => Task.zero
  currentTask := 0
  isTaskingAvaliable := false
  errno := .eno
  useCurrentTty := true
  currentTtyDispl := 0
  console := []
  history := []

/-- The five calls of `sched_make_task` in `kernel_start`. -/
def bootTasks (img : Image) : Kernel :=
  let k := (schedMakeTask Kernel.zero img.testInit 0 0 0 0x08 0x10 true).1
  let k := (schedMakeTask k img.testA 0 0 0 0x08 0x10 false).1
  let k := (schedMakeTask k img.testB 1 0 0 0x08 0x10 false).1
  let k := (schedMakeTask k img.testA 2 0 0 0x08 0x10 false).1
  (schedMakeTask k img.testC 3 0 0 0x08 0x10 false).1

/-- `kernel_start`, up to and including its system call 0. -/
def kernelStart (img : Image) (regs : IntRegs) : Exec (Kernel × IntRegs) :=
  let k := { bootTasks img with currentTask := 0, useCurrentTty := false }
  syscallHandlerImpl k { regs with eax := 0 } 0

/-- What the kernel reacts to once tasking has started. -/
inductive Event where
  | timer (regs : IntRegs)
  | syscall (regs : IntRegs) (line : Word)
  | fault (regs : IntRegs) (name : String) (sig : Sig)
  | makeTask (eip tty fs gs cs genericSegment : Word) (yieldOnly : Bool)
  | killTask (pid : Fin tasksCap) (sig : Sig)
  | nextTask (regs : IntRegs)

/-- One reaction of the kernel. -/
def step (k : Kernel) : Event → Exec Kernel
  | .timer regs => (intTimerImpl k regs).map Prod.fst
  | .syscall regs line => (syscallHandlerImpl k regs line).map Prod.fst
  | .fault regs name sig => (x86ErrorTrap k regs name sig).map Prod.fst
  | .makeTask eip tty fs gs cs genericSegment yieldOnly =>
      .ok (schedMakeTask k eip tty fs gs cs genericSegment yieldOnly).1
  | .killTask pid sig => .ok (schedKillTask k pid sig)
  | .nextTask regs => (schedNextTask k regs).map Prod.fst

/-- Booting, followed by events. -/
def runFromBoot (img : Image) (regs : IntRegs) (es : List Event) : Exec Kernel :=
  (kernelStart img regs).map Prod.fst >>= fun k => HaltingRun.run step k es

/-- Events run from the state that `kernel_start` leaves. -/
def RunFromBoot (img : Image) (regs : IntRegs) (es : List Event) (k : Kernel) : Prop :=
  runFromBoot img regs es = .ok k

/-- States reached from boot without a panic. -/
def Reachable (k : Kernel) : Prop :=
  ∃ img regs es, RunFromBoot img regs es k

/-- A user program makes system call `eax` with two arguments. -/
def userCall (eax ebx ecx : Word) : Event :=
  .syscall { (default : IntRegs) with eax := eax, ebx := ebx, ecx := ecx } 0

/-- The system calls that switch tasks: setup, exit and yield. -/
def IntRegs.Switching (regs : IntRegs) : Prop :=
  regs.eax = 0 ∨ regs.eax = 1 ∨ regs.eax = 4

instance (regs : IntRegs) : Decidable regs.Switching :=
  inferInstanceAs (Decidable (_ ∨ _))

/-- The events at which the kernel calls `sched_next_task`. -/
def Event.Switches (k : Kernel) : Event → Prop
  | .timer _ => k.current.yieldOnly = false
  | .syscall regs _ => regs.Switching
  | .fault .. | .nextTask _ => True
  | .makeTask .. | .killTask .. => False

instance (k : Kernel) (e : Event) : Decidable (e.Switches k) :=
  match e with
  | .timer _ => inferInstanceAs (Decidable (_ = _))
  | .syscall regs _ => inferInstanceAs (Decidable regs.Switching)
  | .fault .. | .nextTask _ => .isTrue trivial
  | .makeTask .. | .killTask .. => .isFalse id

/-- A system call. -/
def Event.IsSyscall : Event → Prop
  | .syscall _ _ => True
  | _ => False

/-- The exit system call. -/
def Event.IsExit : Event → Prop
  | .syscall regs _ => regs.eax = 1
  | _ => False

instance (e : Event) : Decidable e.IsExit :=
  match e with
  | .syscall regs _ => inferInstanceAs (Decidable (regs.eax = 1))
  | .timer _ | .fault .. | .makeTask .. | .killTask .. | .nextTask _ => .isFalse id

end Klyx
