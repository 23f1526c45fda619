import Klyx.Kernel.Signal
import Klyx.Lib.RingBuffer

/-!
# Tasks and the kernel state

`klyx/sched.h` and the globals of `sched.c`, `traps.c`, `tty.c` and `main.c`
that the scheduler reads or writes.

The task table is a function of the slot number; the code indexes it with
numbers below `tasksCap` only.  Buffers that user programs pass to system calls
are memory outside the kernel's own objects.

`history` is a ghost: each scheduler function records there what it did, newest
first, and no function reads it.
-/

namespace Klyx

/-- `TASKS_CAP`. -/
def tasksCap : Nat := 256

/-- `TASK_STACK_CAP`. -/
def taskStackCap : Nat := 8192

/-- `TASKS_STACK_START`. -/
def tasksStackStart : Nat := 0x40000000

/-- `TASK_SIG_CAP`. -/
def taskSigCap : Nat := 64

/-- `TTYS_CAP`. -/
def ttysCap : Nat := 4

/-- `task_status_t`. -/
inductive TaskStatus where
  | dead
  | new
  | active
deriving DecidableEq

/-- `regs_t`, the registers of a suspended task. -/
structure Regs where
  eax : Word
  ebx : Word
  ecx : Word
  edx : Word
  esi : Word
  edi : Word
  esp : Word
  ebp : Word
  eip : Word
  fs : Word
  gs : Word
  ds : Word
  es : Word
  ss : Word
  cs : Word
  eflags : Word
deriving DecidableEq

/-- `task_t`, without the `signal_handlers` table, which no function reads. -/
structure Task where
  regs : Regs
  status : TaskStatus
  tty : Word
  parent : Word
  signals : Nat → Sig
  signalsWriteHead : Nat
  signalsReadHead : Nat
  signalsSize : Nat
  paused : Bool
  yieldOnly : Bool
  uid : Word
  euid : Word
  suid : Word
  gid : Word
  egid : Word
  sgid : Word

/-- All registers zero. -/
def Regs.zero : Regs :=
  ⟨0, 0, 0, 0, 0, 0, 0, 0, 0, 0, 0, 0, 0, 0, 0, 0⟩

/-- A task structure filled with zero bytes. -/
def Task.zero : Task where
  regs := Regs.zero
  status := .dead
  tty := 0
  parent := 0
  signals := fun _ => 0
  signalsWriteHead := 0
  signalsReadHead := 0
  signalsSize := 0
  paused := false
  yieldOnly := false
  uid := 0
  euid := 0
  suid := 0
  gid := 0
  egid := 0
  sgid := 0

/-- A task that can be resumed: neither dead nor paused. -/
def Task.Runnable (t : Task) : Prop :=
  t.status ≠ .dead ∧ t.paused = false

instance (t : Task) : Decidable t.Runnable :=
  inferInstanceAs (Decidable (_ ∧ _))

/-- The signal queue of a task as a ring buffer. -/
def Task.ring (t : Task) : RingBuffer.Ring Sig :=
  ⟨t.signals, t.signalsReadHead, t.signalsWriteHead, t.signalsSize⟩

/-- The queue invariant: size and heads in range and consistent. -/
def Task.QueueValid (t : Task) : Prop :=
  RingBuffer.Valid taskSigCap t.ring

/-- Accepted signals that have not been handled yet, oldest first. -/
def Task.pending (t : Task) : List Sig :=
  RingBuffer.contents taskSigCap t.ring

/-- The values of `errno` that the kernel assigns. -/
inductive Errno where
  | eno
  | eagain
  | efault
  | enobufs
  | enosys
deriving DecidableEq

/-- Ghost records of scheduler actions. -/
inductive Note where
  /-- `sched_make_task` filled a slot. -/
  | created (pid : Nat) (regs : Regs)
  /-- `sched_next_task` stored an interrupt frame in a task. -/
  | saved (pid : Nat) (regs : IntRegs)
  /-- A frame was loaded from a task. -/
  | resumed (pid : Nat) (regs : IntRegs)
  /-- `sched_kill_task` accepted a signal. -/
  | queued (pid : Nat) (sig : Sig)
  /-- `__flush_signals` took a signal from a queue. -/
  | handled (pid : Nat) (sig : Sig)
  /-- `__flush_signals` returned. -/
  | flushed (pid : Nat)
  /-- A signal ended a task. -/
  | died (pid : Nat)
  /-- A task ended itself by the exit system call. -/
  | exited (pid : Nat)
deriving DecidableEq

/-- The kernel's global state. -/
structure Kernel where
  tasks : Nat → Task
  currentTask : Nat
  isTaskingAvaliable : Bool
  errno : Errno
  useCurrentTty : Bool
  currentTtyDispl : Word
  /-- Texts handed to the terminals, oldest first. -/
  console : List (Word × String)
  history : List Note

/-- The two ways in which kernel code never returns. -/
inductive Halt where
  /-- `panic`. -/
  | panic (msg : String) (regs : IntRegs) (k : Kernel)
  /-- An empty endless loop. -/
  | spin (k : Kernel)

/-- Results of kernel functions. -/
abbrev Exec (α : Type) := Except Halt α

namespace Kernel

/-- Assign a whole task structure. -/
def setTask (k : Kernel) (pid : Nat) (t : Task) : Kernel :=
  { k with tasks := Function.update k.tasks pid t }

/-- Assign fields of one task. -/
def modifyTask (k : Kernel) (pid : Nat) (f : Task → Task) : Kernel :=
  k.setTask pid (f (k.tasks pid))

/-- Extend the ghost history. -/
def note (k : Kernel) (n : Note) : Kernel :=
  { k with history := n :: k.history }

/-- The task that is running. -/
def current (k : Kernel) : Task :=
  k.tasks k.currentTask

/-- The terminal to which `con_putchar` sends a character. -/
def consoleTty (k : Kernel) : Word :=
  if k.useCurrentTty then k.currentTtyDispl else k.current.tty

/-- `printf`, which reaches `tty_write` through `con_putchar` for each
character: the text sent to the terminal and the value left in `errno`. -/
def printf (k : Kernel) (text : String) : Kernel :=
  { k with
    errno := if k.consoleTty.toNat < ttysCap then .eno else .efault
    console :=
      if k.consoleTty.toNat < ttysCap then k.console ++ [(k.consoleTty, text)]
      else k.console }

section Projections

variable (k : Kernel) (pid : Nat) (t : Task) (f : Task → Task) (n : Note) (text : String)

@[simp] theorem setTask_tasks :
    (k.setTask pid t).tasks = Function.update k.tasks pid t := rfl

@[simp] theorem setTask_currentTask :
    (k.setTask pid t).currentTask = k.currentTask := rfl

@[simp] theorem setTask_isTaskingAvaliable :
    (k.setTask pid t).isTaskingAvaliable = k.isTaskingAvaliable := rfl

@[simp] theorem setTask_history :
    (k.setTask pid t).history = k.history := rfl

@[simp] theorem modifyTask_tasks :
    (k.modifyTask pid f).tasks = Function.update k.tasks pid (f (k.tasks pid)) := rfl

@[simp] theorem modifyTask_currentTask :
    (k.modifyTask pid f).currentTask = k.currentTask := rfl

@[simp] theorem modifyTask_isTaskingAvaliable :
    (k.modifyTask pid f).isTaskingAvaliable = k.isTaskingAvaliable := rfl

@[simp] theorem modifyTask_history :
    (k.modifyTask pid f).history = k.history := rfl

@[simp] theorem note_tasks : (k.note n).tasks = k.tasks := rfl

@[simp] theorem note_currentTask : (k.note n).currentTask = k.currentTask := rfl

@[simp] theorem note_isTaskingAvaliable :
    (k.note n).isTaskingAvaliable = k.isTaskingAvaliable := rfl

@[simp] theorem note_history : (k.note n).history = n :: k.history := rfl

@[simp] theorem printf_tasks : (k.printf text).tasks = k.tasks := rfl

@[simp] theorem printf_currentTask :
    (k.printf text).currentTask = k.currentTask := rfl

@[simp] theorem printf_isTaskingAvaliable :
    (k.printf text).isTaskingAvaliable = k.isTaskingAvaliable := rfl

@[simp] theorem printf_history : (k.printf text).history = k.history := rfl

end Projections

end Kernel

end Klyx
