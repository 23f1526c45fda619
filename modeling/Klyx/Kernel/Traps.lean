import Klyx.Kernel.Sched

/-!
# Traps, timer and system calls

The handlers of `kernel/traps.c` that reach the scheduler.  A handler gets the
interrupt frame `regs` and returns the frame with which the processor goes on.

`syscallHandlerImpl` takes the length of the line that `tty_read` would return
as `line`, since typing is an input of the kernel.  While the two terminal
calls run, interrupts are enabled; a timer tick that comes then is an event of
its own and finds the task table as the call left it.  What calls 3, 5 and 6
store through `ebx`, which they do not check, is in `Klyx.Kernel.UserMemory`.
-/

namespace Klyx

/-- `x86_error_trap`. -/
def x86ErrorTrap (k : Kernel) (regs : IntRegs) (name : String) (sig : Sig) :
    Exec (Kernel × IntRegs) :=
  let k := k.printf ("\n\n" ++ name ++ ":\n" ++ regs.report)
  if k.isTaskingAvaliable then
    schedNextTask (schedKillTask k k.currentTask sig) regs
  else .error (.spin k)

/-! ### The handlers of the processor's faults, from the frame on -/

section Faults

variable (k : Kernel) (regs : IntRegs)

/-- `x86_trap_overflow`. -/
def x86TrapOverflow : Exec (Kernel × IntRegs) :=
  x86ErrorTrap k regs "x86 overflow" sigsegv

/-- `x86_trap_bound`. -/
def x86TrapBound : Exec (Kernel × IntRegs) :=
  x86ErrorTrap k regs "x86 bound" sigsegv

/-- `x86_trap_invalid_opcode`. -/
def x86TrapInvalidOpcode : Exec (Kernel × IntRegs) :=
  x86ErrorTrap k regs "invalid opcode" sigill

/-- `x86_trap_device_no_avaliable`. -/
def x86TrapDeviceNoAvaliable : Exec (Kernel × IntRegs) :=
  x86ErrorTrap k regs "device no avaliable" sigfpe

/-- `x86_trap_coprocessor_segment_overrun`. -/
def x86TrapCoprocessorSegmentOverrun : Exec (Kernel × IntRegs) :=
  x86ErrorTrap k regs "coprocessor segment overrun" sigfpe

/-- `x86_trap_segment_not_present`. -/
def x86TrapSegmentNotPresent : Exec (Kernel × IntRegs) :=
  x86ErrorTrap k regs "segment XXXX not present" sigsegv

/-- `x86_trap_stack_segment_fault`. -/
def x86TrapStackSegmentFault : Exec (Kernel × IntRegs) :=
  x86ErrorTrap k regs "stack segment fault" sigsegv

/-- `x86_trap_general_protection`. -/
def x86TrapGeneralProtection : Exec (Kernel × IntRegs) :=
  x86ErrorTrap k regs "general protection" sigsegv

/-- `x86_trap_page_fault`. -/
def x86TrapPageFault : Exec (Kernel × IntRegs) :=
  x86ErrorTrap k regs "page fault" sigsegv

/-- `x86_trap_x87_error`. -/
def x86TrapX87Error : Exec (Kernel × IntRegs) :=
  x86ErrorTrap k regs "FPU error" sigfpe

/-- `x86_trap_alignment`. -/
def x86TrapAlignment : Exec (Kernel × IntRegs) :=
  x86ErrorTrap k regs "alignment" sigsegv

/-- `x86_trap_machine`. -/
def x86TrapMachine : Exec (Kernel × IntRegs) :=
  x86ErrorTrap k regs "x86 trap" sigtrap

/-- `x86_trap_do_divide_by_0`, the only one without `INT_END`.  Behind the switch the
processor runs on, into the invalid opcode that ends a function without an epilogue, and
comes back to the kernel with the frame `next`. -/
def x86TrapDoDivideBy0 (next : IntRegs) : Exec (Kernel × IntRegs) := do
  let (k, _) ← x86ErrorTrap k regs "divide by 0" sigfpe
  x86TrapInvalidOpcode k next

/-- `x86_trap_nmi`. -/
def x86TrapNmi : Exec (Kernel × IntRegs) :=
  .error (.panic "NMI. WTF?" regs k)

/-- `x86_trap_double_fault`. -/
def x86TrapDoubleFault : Exec (Kernel × IntRegs) :=
  .error (.panic "double fault" regs k)

/-- `x86_trap_invalid_tss`. -/
def x86TrapInvalidTss : Exec (Kernel × IntRegs) :=
  .error (.panic "invalid TSS" regs k)

/-- `x86_trap_SIMD`. -/
def x86TrapSimd : Exec (Kernel × IntRegs) :=
  .error (.panic "SIMD" regs k)

end Faults

/-! ### Timer and system calls -/

/-- `int_timer_impl`. -/
def intTimerImpl (k : Kernel) (regs : IntRegs) : Exec (Kernel × IntRegs) :=
  if k.isTaskingAvaliable ∧ ¬ k.current.yieldOnly then
    schedNextTask k regs
  else .ok (k, regs)

/-- The result of `tty_write` and `tty_read` on terminal `td`, which both check
the terminal number first. -/
def ttyCall (k : Kernel) (td : Word) (count : Word) : Kernel × Word :=
  if td.toNat ≥ ttysCap then ({ k with errno := .efault }, 0)
  else ({ k with errno := .eno }, count)

/-- System call 0: start tasking once, and punish a second attempt. -/
def sysSetup (k : Kernel) (regs : IntRegs) : Exec (Kernel × IntRegs) :=
  if ¬ k.isTaskingAvaliable then
    schedStartTasking { k with isTaskingAvaliable := true } regs
  else
    schedNextTask (schedKillTask k k.currentTask sigsys) regs

/-- System call 1. -/
def sysExit (k : Kernel) (regs : IntRegs) : Exec (Kernel × IntRegs) :=
  if k.currentTask = 0 then
    .error (.panic "Attempt to kill init." regs k)
  else
    let k := k.modifyTask k.currentTask (fun t => { t with status := .dead })
    schedNextTask (k.note (.exited k.currentTask)) regs

/-- System call 7. -/
def sysSetuid (k : Kernel) (regs : IntRegs) : Kernel × IntRegs :=
  if k.current.uid = 0 then
    (k.modifyTask k.currentTask (fun t => { t with uid := regs.ebx }), { regs with eax := 0 })
  else (k, { regs with eax := -1 })

/-- System call 8. -/
def sysSetgid (k : Kernel) (regs : IntRegs) : Kernel × IntRegs :=
  if k.current.uid = 0 then
    (k.modifyTask k.currentTask (fun t => { t with gid := regs.ebx }), { regs with eax := 0 })
  else (k, { regs with eax := -1 })

/-- System call 12. -/
def sysKill (k : Kernel) (regs : IntRegs) : Kernel × IntRegs :=
  let target := (regs.ebx - 1).toNat
  if target ≥ tasksCap then (k, { regs with eax := -1 })
  else if (k.tasks target).status = .dead then (k, { regs with eax := -1 })
  else if regs.ecx.toNat ≥ sigCount then (k, { regs with eax := -1 })
  else if regs.ecx = 0 then (k, { regs with eax := 0 })
  else if k.current.uid = 0 ∨ k.current.uid = (k.tasks target).uid then
    (schedKillTask k target (regs.ecx.truncate 8), regs)
  else (k, { regs with eax := -1 })

/-- `syscall_handler_impl`. -/
def syscallHandlerImpl (k : Kernel) (regs : IntRegs) (line : Word) :
    Exec (Kernel × IntRegs) :=
  match regs.eax.toNat with
  | 0 => sysSetup k regs
  | 1 => sysExit k regs
  | 2 =>
      let (k, count) := ttyCall k k.current.tty regs.ecx
      .ok (k, { regs with eax := count })
  | 3 =>
      let (k, count) := ttyCall k k.current.tty line
      .ok (k, { regs with eax := count })
  | 4 => schedNextTask k regs
  | 5 => .ok (k, { regs with eax := 69420 })
  | 6 => .ok (k, regs)
  | 7 => .ok (sysSetuid k regs)
  | 8 => .ok (sysSetgid k regs)
  | 9 => .ok (k, { regs with eax := k.current.uid })
  | 10 => .ok (k, { regs with eax := k.current.gid })
  | 11 => .ok (k, { regs with eax := BitVec.ofNat 32 (k.currentTask + 1) })
  | 12 => .ok (sysKill k regs)
  | _ =>
      let k := k.printf ("Syscall: " ++ hexPadded 8 regs.eax ++ "\n")
      let k := k.printf ("\n\n" ++ regs.report)
      .error (.panic "Unknown syscall" regs k)

end Klyx
