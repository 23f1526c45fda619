import Klyx.Kernel.Task

/-!
# The scheduler

`kernel/sched.c`, function by function.  The task pointer of the C code is the
slot number here.

`__flush_signals` loops while signals are pending, and every round removes one,
so the fill count at its entry bounds the rounds; `flushSignals_eq` in the
module on signal delivery shows that this bound is never the reason to stop.
The scan of `sched_next_task` counts its tries down instead of up.
-/

namespace Klyx

/-- The task structure that `sched_make_task` leaves in slot `pid`. -/
def freshTask (pid : Nat) (eip tty fs gs cs genericSegment : Word)
    (yieldOnly : Bool) : Task :=
  let esp : Word := BitVec.ofNat 32 (tasksStackStart + taskStackCap * pid)
  { Task.zero with
    regs :=
      { Regs.zero with
        eip := eip
        eflags := 0x206
        fs := fs
        gs := gs
        cs := cs
        ds := genericSegment
        es := genericSegment
        ss := genericSegment
        esp := esp
        ebp := esp }
    status := .new
    tty := tty
    yieldOnly := yieldOnly
    parent := 0
    uid := 0
    euid := 0
    suid := 0
    gid := 0
    egid := 0
    sgid := 0 }

/-- `sched_make_task`. -/
def schedMakeTask (k : Kernel) (eip tty fs gs cs genericSegment : Word)
    (yieldOnly : Bool) : Kernel × Nat :=
  match (List.range tasksCap).find? (fun pid => (k.tasks pid).status = .dead) with
  | some pid =>
      let task := freshTask pid eip tty fs gs cs genericSegment yieldOnly
      ((k.setTask pid task).note (.created pid task.regs), pid)
  | none => ({ k with errno := .enobufs }, 0)

/-- Append to the signal queue of a task that has room. -/
def Task.enqueue (t : Task) (sig : Sig) : Task :=
  { t with
    signalsSize := t.signalsSize + 1
    signals := Function.update t.signals t.signalsWriteHead sig
    signalsWriteHead := (t.signalsWriteHead + 1) % taskSigCap }

/-- `sched_kill_task`. -/
def schedKillTask (k : Kernel) (pid : Nat) (sig : Sig) : Kernel :=
  if (k.tasks pid).signalsSize ≥ taskSigCap - 1 then k
  else (k.modifyTask pid (fun t => t.enqueue sig)).note (.queued pid sig)

/-- One label of the switch in `__flush_signals`. -/
def dispatchSignal (pid : Nat) (regs : IntRegs) (k : Kernel) :
    Disposition → Exec Kernel
  | .die text =>
      let k := match text with
        | some line => k.printf line
        | none => k
      if k.currentTask = 0 then
        .error (.panic "Attempt to kill init." regs k)
      else
        .ok ((k.modifyTask pid (fun t => { t with status := .dead })).note (.died pid))
  | .cont => .ok (k.modifyTask pid (fun t => { t with paused := false }))
  | .stop => .ok (k.modifyTask pid (fun t => { t with paused := true }))
  | .ignore => .ok k

/-- The body of the loop in `__flush_signals`. -/
def flushSignal (pid : Nat) (regs : IntRegs) (k : Kernel) : Exec Kernel := do
  let k := k.modifyTask pid (fun t => { t with signalsSize := t.signalsSize - 1 })
  let task := k.tasks pid
  let sig := task.signals task.signalsReadHead
  let k ← dispatchSignal pid regs (k.note (.handled pid sig)) (disposition sig)
  .ok (k.modifyTask pid (fun t =>
    { t with signalsReadHead := (t.signalsReadHead + 1) % taskSigCap }))

/-- The loop of `__flush_signals`, for a given number of rounds at most. -/
def flushLoop (pid : Nat) (regs : IntRegs) : Nat → Kernel → Exec Kernel
  | 0, k => .ok k
  | rounds + 1, k =>
      if (k.tasks pid).signalsSize ≠ 0 ∧ (k.tasks pid).status ≠ .dead then do
        let k ← flushSignal pid regs k
        flushLoop pid regs rounds k
      else .ok k

/-- `__flush_signals`. -/
def flushSignals (pid : Nat) (regs : IntRegs) (k : Kernel) : Exec Kernel := do
  let k ← flushLoop pid regs (k.tasks pid).signalsSize k
  .ok (k.note (.flushed pid))

/-- The first block of assignments of `sched_next_task`: the interrupt frame
goes to the running task. -/
def Regs.saveFrom (r : Regs) (regs : IntRegs) : Regs :=
  { r with
    fs := regs.fs
    gs := regs.gs
    ds := regs.ds
    ss := regs.ss
    es := regs.es
    cs := regs.cs
    edi := regs.edi
    esi := regs.esi
    ebp := regs.ebp
    esp := regs.esp
    ebx := regs.ebx
    edx := regs.edx
    ecx := regs.ecx
    eax := regs.eax
    eflags := regs.eflags
    eip := regs.eip }

/-- The block that resumes a task: its registers go to the interrupt frame. -/
def IntRegs.resumeFrom (regs : IntRegs) (r : Regs) : IntRegs :=
  { regs with
    fs := r.fs
    gs := r.gs
    es := r.es
    ss := r.ss
    ds := r.ds
    cs := r.cs
    edi := r.edi
    esi := r.esi
    ebp := r.ebp
    esp := r.esp
    ebx := r.ebx
    edx := r.edx
    ecx := r.ecx
    eax := r.eax
    eflags := r.eflags
    eip := r.eip }

/-- The block that copies a paused task's registers out to `vregs`. -/
def IntRegs.copyOut (vregs : IntRegs) (r : Regs) : IntRegs :=
  { vregs with
    fs := r.fs
    gs := r.gs
    es := r.es
    ss := r.ss
    ds := r.ds
    cs := r.cs
    edi := r.edi
    esi := r.esi
    ebp := r.ebp
    esp := r.esp
    ebx := r.ebx
    edx := r.edx
    ecx := r.ecx
    eax := r.eax
    eflags := r.eflags
    eip := r.eip }

/-- The block that copies `vregs` back to the paused task. -/
def Regs.copyBack (r : Regs) (vregs : IntRegs) : Regs :=
  { r with
    fs := vregs.fs
    gs := vregs.gs
    es := vregs.es
    ss := vregs.ss
    ds := vregs.ds
    cs := vregs.cs
    edi := vregs.edi
    esi := vregs.esi
    ebp := vregs.ebp
    esp := vregs.esp
    ebx := vregs.ebx
    edx := vregs.edx
    ecx := vregs.ecx
    eax := vregs.eax
    eflags := vregs.eflags
    eip := vregs.eip }

/-- The block of `sched_start_tasking`: init's registers go to the frame. -/
def IntRegs.startFrom (regs : IntRegs) (r : Regs) : IntRegs :=
  { regs with
    fs := r.fs
    gs := r.gs
    es := r.es
    ss := r.ss
    ds := r.ds
    cs := r.cs
    edi := r.edi
    esi := r.esi
    ebp := r.ebp
    esp := r.esp
    ebx := r.ebx
    edx := r.edx
    ecx := r.ecx
    eax := r.eax
    eflags := r.eflags
    eip := r.eip }

/-- The message of the panic at the end of `sched_next_task`. -/
def noProcesses : String := "Kernel panic: no avaliable processes."

/-- Move on to the next slot of the table. -/
def Kernel.advance (k : Kernel) : Kernel :=
  { k with currentTask := (k.currentTask + 1) % tasksCap }

/-- The scan of `sched_next_task`, with the tries that are left. -/
def schedScan (regs : IntRegs) : Nat → Kernel → Exec (Kernel × IntRegs)
  | 0, k => .error (.panic noProcesses regs k)
  | tries + 1, k =>
      let k := k.advance
      let pid := k.currentTask
      if (k.tasks pid).status ≠ .dead ∧ ¬ (k.tasks pid).paused then
        let regs := regs.resumeFrom (k.tasks pid).regs
        .ok (k.note (.resumed pid regs), regs)
      else if (k.tasks pid).status ≠ .dead then do
        let vregs := (default : IntRegs).copyOut (k.tasks pid).regs
        let k ← flushSignals pid vregs k
        let k := k.modifyTask pid (fun t => { t with regs := t.regs.copyBack vregs })
        schedScan regs tries k
      else schedScan regs tries k

/-- The first block of `sched_next_task`. -/
def Kernel.saveCurrent (k : Kernel) (regs : IntRegs) : Kernel :=
  (k.modifyTask k.currentTask (fun t => { t with regs := t.regs.saveFrom regs })).note
    (.saved k.currentTask regs)

/-- `sched_next_task`. -/
def schedNextTask (k : Kernel) (regs : IntRegs) : Exec (Kernel × IntRegs) := do
  let k := k.saveCurrent regs
  let k ← flushSignals k.currentTask regs k
  schedScan regs tasksCap k

/-- `sched_start_tasking`. -/
def schedStartTasking (k : Kernel) (regs : IntRegs) : Exec (Kernel × IntRegs) :=
  let k := { k with currentTask := 0 }
  if k.current.status ≠ .dead then
    let regs := regs.startFrom k.current.regs
    .ok (k.note (.resumed k.currentTask regs), regs)
  else .error (.panic "Kernel panic: init is not loaded." regs k)

end Klyx
