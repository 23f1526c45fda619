import Klyx.Kernel.InterruptFrame
import Klyx.Lib.HaltingRun

/-!
# Interruptible handlers

Between `INT_BECAME_ASYNC` and `INT_BECAME_SYNC` of `kernel/traps.c`, the
handlers of `tty_write`, `tty_read` and the breakpoint run with interrupts on.
The variables of the interrupt macros are kept in locals meanwhile.  They are
written back before the `cli`, not after it.

A handler that runs with interrupts off is one event here: on the way out it
leaves the variables as the frame that it resumes has them (`intEnd_ptrs`).

**Results.**
* `AsyncState.step_took`: what a step can do.
* `AsyncInv.step`: what every step preserves of the handlers.
* `frame_pointer_survives_iff`: at `INT_END` the frame pointer is right exactly
  if no interrupt came between the write back and the `cli`.
-/

namespace Klyx

open HaltingRun

/-- The statement that an interruptible handler comes to next. -/
inductive AsyncPc where
  | saveEsp
  | saveEip
  | saveEfl
  | saveCds
  | sti
  | body
  | restoreEsp
  | restoreEip
  | restoreEfl
  | restoreCds
  | cli
  | intEnd
deriving DecidableEq

/-- The interrupt flag is set before the statement. -/
def AsyncPc.interruptible : AsyncPc → Bool
  | .body | .restoreEsp | .restoreEip | .restoreEfl | .restoreCds | .cli => true
  | _ => false

/-- The frame pointer has been written back, and the flag is still set. -/
def AsyncPc.exposed : AsyncPc → Bool
  | .restoreEip | .restoreEfl | .restoreCds | .cli => true
  | _ => false

/-- An invocation of an interruptible handler. -/
structure Handler where
  pc : AsyncPc
  /-- What `INT_START` stored in `interrupt_esp_stack_ptr`. -/
  frame : Word
  /-- The locals `_is0` to `_is3`. -/
  saved : FramePtrs
  /-- An interrupt has come at an exposed statement of this invocation. -/
  hit : Bool

/-- The variables after `INT_START`. -/
def FramePtrs.intStart (ptrs : FramePtrs) (cpu : Cpu) : FramePtrs :=
  { ptrs with interruptEspStackPtr := cpu.esp - 64 }

/-- The variables after `INT_END` with the frame. -/
def IntRegs.ptrs (regs : IntRegs) : FramePtrs where
  interruptEspStackPtr := regs.esp + 12
  interruptEipInstrPtr := regs.eip
  interruptEflInstrPtr := regs.eflags
  interruptCdsInstrPtr := regs.cs

theorem enter_ptrs (s : Machine) (handler : Word) :
    (s.enter handler).1.ptrs = s.ptrs.intStart s.cpu := by
  have hesp : (s.enter handler).2 = s.cpu.esp - 64 := by
    have hstack := congrArg StackMemory.Stack.esp (enter_stack s handler)
    rw [StackMemory.pushAll_esp, List.length_reverse, words_length] at hstack
    exact hstack
  have hptrs : (s.enter handler).1.ptrs = { s.ptrs with
      interruptEspStackPtr := (s.enter handler).1.ptrs.interruptEspStackPtr } := rfl
  rw [hptrs, enter_ptr, hesp, FramePtrs.intStart]

theorem iretl_ptrs (s : Machine) :
    s.iretl.ptrs = s.ptrs := rfl

theorem intEnd_ptrs {s : Machine} {regs : Word}
    (hregs : regs = s.ptrs.interruptEspStackPtr) :
    (s.intEnd regs).ptrs = s.frame.ptrs := by
  rw [Machine.intEnd, iretl_ptrs, unwind_ptrs hregs, IntRegs.ptrs]

namespace Handler

/-- The invocation after `INT_START`.  The locals are not initialised. -/
def start (cpu : Cpu) (locals : FramePtrs) : Handler :=
  { pc := .saveEsp, frame := cpu.esp - 64, saved := locals, hit := false }

/-- One statement of the handler.  `INT_END` is an event of its own. -/
def advance (hd : Handler) (ptrs : FramePtrs) : Handler × FramePtrs :=
  let saved := hd.saved
  match hd.pc with
  | .saveEsp =>
      ({ hd with
          pc := .saveEip
          saved := { saved with interruptEspStackPtr := ptrs.interruptEspStackPtr } }, ptrs)
  | .saveEip =>
      ({ hd with
          pc := .saveEfl
          saved := { saved with interruptEipInstrPtr := ptrs.interruptEipInstrPtr } }, ptrs)
  | .saveEfl =>
      ({ hd with
          pc := .saveCds
          saved := { saved with interruptEflInstrPtr := ptrs.interruptEflInstrPtr } }, ptrs)
  | .saveCds =>
      ({ hd with
          pc := .sti
          saved := { saved with interruptCdsInstrPtr := ptrs.interruptCdsInstrPtr } }, ptrs)
  | .sti => ({ hd with pc := .body }, ptrs)
  | .body => ({ hd with pc := .restoreEsp }, ptrs)
  | .restoreEsp =>
      ({ hd with pc := .restoreEip },
        { ptrs with interruptEspStackPtr := saved.interruptEspStackPtr })
  | .restoreEip =>
      ({ hd with pc := .restoreEfl },
        { ptrs with interruptEipInstrPtr := saved.interruptEipInstrPtr })
  | .restoreEfl =>
      ({ hd with pc := .restoreCds },
        { ptrs with interruptEflInstrPtr := saved.interruptEflInstrPtr })
  | .restoreCds =>
      ({ hd with pc := .cli },
        { ptrs with interruptCdsInstrPtr := saved.interruptCdsInstrPtr })
  | .cli => ({ hd with pc := .intEnd }, ptrs)
  | .intEnd => (hd, ptrs)

/-- An interrupt may come.  The handler runs on the stack below its frame. -/
def Interruptible (hd : Handler) (cpu : Cpu) : Prop :=
  hd.pc.interruptible = true ∧ cpu.esp ≠ hd.frame

instance (hd : Handler) (cpu : Cpu) : Decidable (hd.Interruptible cpu) :=
  inferInstanceAs (Decidable (_ ∧ _))

/-- An interrupt comes. -/
def interrupted (hd : Handler) : Handler :=
  { hd with hit := hd.hit || hd.pc.exposed }

end Handler

/-- `INT_END` loads a stack pointer that is not the one of its frame. -/
structure WrongFrame where
  frame : Word
  found : Word
deriving DecidableEq

/-- The tasks, as far as the interrupt macros are concerned. -/
structure AsyncState where
  currentTask : Nat
  /-- The interruptible handler that a task is in. -/
  handler : Nat → Option Handler
  /-- The context that was saved for a task that does not run. -/
  context : Nat → IntRegs
  ptrs : FramePtrs

inductive AsyncEvent where
  /-- The current task enters an interruptible handler. -/
  | enter (cpu : Cpu) (locals : FramePtrs)
  /-- The handler of the current task goes on by a statement. -/
  | advance
  /-- The handler leaves with its frame. -/
  | leave (regs : IntRegs)
  /-- A handler with interrupts off saves the current task and resumes a task. -/
  | interrupt (cpu : Cpu) (next : Nat)
  /-- A slot gets a new task. -/
  | makeTask (pid : Nat) (regs : IntRegs)

namespace AsyncState

/-- The handler of the task that runs. -/
def current (s : AsyncState) : Option Handler :=
  s.handler s.currentTask

def setCurrent (s : AsyncState) (hd : Option Handler) (ptrs : FramePtrs) : AsyncState :=
  { s with handler := Function.update s.handler s.currentTask hd, ptrs := ptrs }

/-- Save the context of the current task and resume a task. -/
def switch (s : AsyncState) (cpu : Cpu) (next : Nat) : AsyncState :=
  let context := Function.update s.context s.currentTask cpu.context
  { s with
    currentTask := next
    handler := Function.update s.handler s.currentTask (s.current.map Handler.interrupted)
    context := context
    ptrs := (context next).ptrs }

/-- Fill the slot of a task that does not run. -/
def makeTask (s : AsyncState) (pid : Nat) (regs : IntRegs) : AsyncState :=
  { s with
    handler := Function.update s.handler pid none
    context := Function.update s.context pid regs }

/-- Whether an interrupt may come. -/
def Interruptible (s : AsyncState) (cpu : Cpu) : Prop :=
  ∀ hd ∈ s.current, hd.Interruptible cpu

instance (s : AsyncState) (cpu : Cpu) : Decidable (s.Interruptible cpu) :=
  inferInstanceAs (Decidable (∀ hd ∈ s.current, hd.Interruptible cpu))

/-- The next state.  An event that cannot happen changes nothing. -/
def step (s : AsyncState) : AsyncEvent → Except WrongFrame AsyncState
  | .enter cpu locals =>
      match s.current with
      | none => .ok (s.setCurrent (some (.start cpu locals)) (s.ptrs.intStart cpu))
      | some _ => .ok s
  | .advance =>
      match s.current with
      | none => .ok s
      | some hd => .ok (s.setCurrent (some (hd.advance s.ptrs).1) (hd.advance s.ptrs).2)
  | .leave regs =>
      match s.current with
      | none => .ok s
      | some hd =>
          if hd.pc = .intEnd then
            if s.ptrs.interruptEspStackPtr = hd.frame then
              .ok (s.setCurrent none regs.ptrs)
            else .error ⟨hd.frame, s.ptrs.interruptEspStackPtr⟩
          else .ok s
  | .interrupt cpu next =>
      if s.Interruptible cpu then .ok (s.switch cpu next) else .ok s
  | .makeTask pid regs =>
      if pid = s.currentTask then .ok s else .ok (s.makeTask pid regs)

/-- What a step can do. -/
inductive Took (s : AsyncState) : AsyncEvent → AsyncState → Prop
  | idle
      {e : AsyncEvent} :
      Took s e s
  | enter
      (cpu : Cpu)
      (locals : FramePtrs)
      (hcurrent : s.current = none) :
      Took s (.enter cpu locals)
        (s.setCurrent (some (.start cpu locals)) (s.ptrs.intStart cpu))
  | advance
      {hd : Handler}
      (hcurrent : s.current = some hd) :
      Took s .advance (s.setCurrent (some (hd.advance s.ptrs).1) (hd.advance s.ptrs).2)
  | leave
      {hd : Handler}
      (regs : IntRegs)
      (hcurrent : s.current = some hd)
      (hpc : hd.pc = .intEnd)
      (hframe : s.ptrs.interruptEspStackPtr = hd.frame) :
      Took s (.leave regs) (s.setCurrent none regs.ptrs)
  | interrupt
      {cpu : Cpu}
      (next : Nat)
      (hint : s.Interruptible cpu) :
      Took s (.interrupt cpu next) (s.switch cpu next)
  | makeTask
      {pid : Nat}
      (regs : IntRegs)
      (hpid : pid ≠ s.currentTask) :
      Took s (.makeTask pid regs) (s.makeTask pid regs)

theorem step_took {s s' : AsyncState} {e : AsyncEvent}
    (hs : s.step e = .ok s') :
    s.Took e s' := by
  unfold step at hs
  split at hs
  · split at hs
    · rename_i hcurrent
      cases hs
      exact .enter _ _ hcurrent
    · cases hs
      exact .idle
  · split at hs
    · cases hs
      exact .idle
    · rename_i hcurrent
      cases hs
      exact .advance hcurrent
  · split at hs
    · cases hs
      exact .idle
    · rename_i hcurrent
      split_ifs at hs with hpc hframe
      · cases hs
        exact .leave _ hcurrent hpc hframe
      · cases hs
        exact .idle
  · split_ifs at hs with hint
    · cases hs
      exact .interrupt _ hint
    · cases hs
      exact .idle
  · split_ifs at hs with hpid
    · cases hs
      exact .idle
    · cases hs
      exact .makeTask _ hpid

end AsyncState
section Invariant

/-- The handler of the current task, with the variables as they are. -/
def Handler.Running (hd : Handler) (ptrs : FramePtrs) : Prop :=
  match hd.pc with
  | .saveEsp => ptrs.interruptEspStackPtr = hd.frame ∧ hd.hit = false
  | .saveEip | .saveEfl | .saveCds | .sti | .body | .restoreEsp =>
      hd.saved.interruptEspStackPtr = hd.frame ∧ hd.hit = false
  | .restoreEip | .restoreEfl | .restoreCds | .cli | .intEnd =>
      hd.saved.interruptEspStackPtr = hd.frame ∧
        (ptrs.interruptEspStackPtr = hd.frame ↔ hd.hit = false)

/-- The handler of a task that does not run. -/
structure Handler.Suspended (hd : Handler) (context : IntRegs) : Prop where
  interruptible : hd.pc.interruptible = true
  saved : hd.saved.interruptEspStackPtr = hd.frame
  below : context.ptrs.interruptEspStackPtr ≠ hd.frame
  hit : hd.hit = hd.pc.exposed

namespace Handler

variable {hd : Handler} {ptrs : FramePtrs} {cpu : Cpu}

theorem running_start (locals : FramePtrs) :
    (start cpu locals).Running (ptrs.intStart cpu) :=
  ⟨rfl, rfl⟩

/-- One statement.  The write back makes the frame pointer right, and no later
statement touches it. -/
theorem Running.advance
    (h : hd.Running ptrs) :
    (hd.advance ptrs).1.Running (hd.advance ptrs).2 := by
  obtain ⟨pc, frame, saved, hit⟩ := hd
  cases pc with
  | restoreEsp =>
      obtain ⟨hsaved, hhit⟩ := h
      exact ⟨hsaved, iff_of_true hsaved hhit⟩
  | _ => exact h

/-- At an interruptible statement the frame pointer is in the locals. -/
theorem Running.saved
    (h : hd.Running ptrs)
    (hpc : hd.pc.interruptible = true) :
    hd.saved.interruptEspStackPtr = hd.frame := by
  obtain ⟨pc, frame, saved, hit⟩ := hd
  cases pc with
  | body | restoreEsp | restoreEip | restoreEfl | restoreCds | cli => exact h.1
  | _ => cases hpc

theorem Running.not_hit
    (h : hd.Running ptrs)
    (hpc : hd.pc.interruptible = true)
    (hexposed : hd.pc.exposed = false) :
    hd.hit = false := by
  obtain ⟨pc, frame, saved, hit⟩ := hd
  cases pc with
  | body | restoreEsp => exact h.2
  | restoreEip | restoreEfl | restoreCds | cli => cases hexposed
  | _ => cases hpc

theorem context_ptrs (cpu : Cpu) :
    cpu.context.ptrs.interruptEspStackPtr = cpu.esp :=
  congrArg Cpu.esp (context_cpu cpu)

theorem Running.interrupted
    (h : hd.Running ptrs)
    (hint : hd.Interruptible cpu) :
    hd.interrupted.Suspended cpu.context where
  interruptible := hint.1
  saved := h.saved hint.1
  below := by
    rw [context_ptrs]
    exact hint.2
  hit := by
    cases hexposed : hd.pc.exposed with
    | false =>
        simp only [Handler.interrupted, hexposed, h.not_hit hint.1 hexposed, Bool.or_self]
    | true =>
        simp only [Handler.interrupted, hexposed, Bool.or_true]

/-- The task is resumed.  The variables hold its interrupted stack pointer. -/
theorem Suspended.resumed {context : IntRegs}
    (h : hd.Suspended context) :
    hd.Running context.ptrs := by
  obtain ⟨hpc, hsaved, hbelow, hhit⟩ := h
  obtain ⟨pc, frame, saved, hit⟩ := hd
  cases pc with
  | body | restoreEsp => exact ⟨hsaved, hhit⟩
  | restoreEip | restoreEfl | restoreCds | cli =>
      have htrue : hit = true := hhit
      exact ⟨hsaved, iff_of_false hbelow (by simp [htrue])⟩
  | _ => cases hpc

theorem Running.frame_iff
    (h : hd.Running ptrs)
    (hpc : hd.pc = .intEnd) :
    ptrs.interruptEspStackPtr = hd.frame ↔ hd.hit = false := by
  obtain ⟨pc, frame, saved, hit⟩ := hd
  cases hpc
  exact h.2

end Handler

/-- Every handler is as its task was left, or runs. -/
structure AsyncInv (s : AsyncState) : Prop where
  running : ∀ hd, s.current = some hd → hd.Running s.ptrs
  suspended : ∀ pid, pid ≠ s.currentTask → ∀ hd, s.handler pid = some hd →
    hd.Suspended (s.context pid)

namespace AsyncInv

variable {s s' : AsyncState}

theorem of_idle
    (h : ∀ pid, s.handler pid = none) :
    AsyncInv s where
  running := by
    intro hd hcurrent
    rw [AsyncState.current, h] at hcurrent
    cases hcurrent
  suspended := by
    intro pid _ hd hhandler
    rw [h] at hhandler
    cases hhandler

theorem setCurrent {o : Option Handler} {ptrs : FramePtrs}
    (h : AsyncInv s)
    (ho : ∀ hd, o = some hd → hd.Running ptrs) :
    AsyncInv (s.setCurrent o ptrs) where
  running := by
    intro hd hcurrent
    have hnow : (s.setCurrent o ptrs).current = o := by
      simp only [AsyncState.current, AsyncState.setCurrent, Function.update_self]
    exact ho hd (hnow.symm.trans hcurrent)
  suspended := by
    intro pid hne hd hhandler
    have hkeep : (s.setCurrent o ptrs).handler pid = s.handler pid := by
      change pid ≠ s.currentTask at hne
      simp only [AsyncState.setCurrent, Function.update_of_ne hne]
    exact h.suspended pid hne hd (hkeep.symm.trans hhandler)

/-- When the current task has been saved, every handler is suspended. -/
theorem suspended_switch {cpu : Cpu}
    (h : AsyncInv s)
    (hint : s.Interruptible cpu)
    (next pid : Nat) {hd : Handler}
    (hhandler : (s.switch cpu next).handler pid = some hd) :
    hd.Suspended ((s.switch cpu next).context pid) := by
  simp only [AsyncState.switch] at hhandler ⊢
  by_cases hpid : pid = s.currentTask
  · subst hpid
    rw [Function.update_self] at hhandler ⊢
    obtain ⟨hd₀, hcurrent, rfl⟩ := Option.map_eq_some_iff.mp hhandler
    exact (h.running hd₀ hcurrent).interrupted (hint hd₀ hcurrent)
  · rw [Function.update_of_ne hpid] at hhandler ⊢
    exact h.suspended pid hpid hd hhandler

theorem switch {cpu : Cpu}
    (h : AsyncInv s)
    (hint : s.Interruptible cpu)
    (next : Nat) :
    AsyncInv (s.switch cpu next) where
  running := fun _ hcurrent => (h.suspended_switch hint next next hcurrent).resumed
  suspended := fun pid _ _ hhandler => h.suspended_switch hint next pid hhandler

theorem makeTask {pid : Nat}
    (h : AsyncInv s)
    (hpid : pid ≠ s.currentTask)
    (regs : IntRegs) :
    AsyncInv (s.makeTask pid regs) where
  running := by
    intro hd hcurrent
    have hkeep : (s.makeTask pid regs).current = s.current := by
      simp only [AsyncState.current, AsyncState.makeTask, Function.update_of_ne hpid.symm]
    exact h.running hd (hkeep.symm.trans hcurrent)
  suspended := by
    intro pid' hne hd hhandler
    simp only [AsyncState.makeTask] at hne hhandler ⊢
    by_cases hsame : pid' = pid
    · rw [hsame, Function.update_self] at hhandler
      cases hhandler
    · rw [Function.update_of_ne hsame] at hhandler ⊢
      exact h.suspended pid' hne hd hhandler

/-- **Step lemma.** -/
theorem step {e : AsyncEvent}
    (h : AsyncInv s)
    (hs : s.step e = .ok s') :
    AsyncInv s' := by
  cases AsyncState.step_took hs with
  | idle =>
      exact h
  | enter cpu locals hcurrent =>
      refine h.setCurrent (fun hd heq => ?_)
      cases heq
      exact Handler.running_start locals
  | @advance hd hcurrent =>
      refine h.setCurrent (fun hd' heq => ?_)
      cases heq
      exact (h.running hd hcurrent).advance
  | leave regs hcurrent hpc hframe =>
      exact h.setCurrent (by simp)
  | interrupt next hint =>
      exact h.switch hint next
  | makeTask regs hpid =>
      exact h.makeTask hpid regs

end AsyncInv

end Invariant

/-- No interrupt comes while the current handler is at an exposed statement. -/
def Spared (s : AsyncState) : AsyncEvent → Prop
  | .interrupt _ _ => ∀ hd ∈ s.current, hd.pc.exposed = false
  | _ => True

instance (s : AsyncState) (e : AsyncEvent) : Decidable (Spared s e) :=
  match e with
  | .interrupt _ _ =>
      inferInstanceAs (Decidable (∀ hd ∈ s.current, hd.pc.exposed = false))
  | .enter _ _ | .advance | .leave _ | .makeTask _ _ => .isTrue trivial

section Spared

/-- No handler has been hit. -/
def NoneHit (s : AsyncState) : Prop :=
  ∀ pid hd, s.handler pid = some hd → hd.hit = false

namespace NoneHit

variable {s s' : AsyncState}

theorem of_idle
    (h : ∀ pid, s.handler pid = none) :
    NoneHit s := by
  intro pid hd hhandler
  rw [h] at hhandler
  cases hhandler

/-- One handler changes. -/
theorem update {o : Option Handler} {pid : Nat}
    (h : NoneHit s)
    (ho : ∀ hd, o = some hd → hd.hit = false)
    (hs : s'.handler = Function.update s.handler pid o) :
    NoneHit s' := by
  intro pid' hd hhandler
  rw [hs] at hhandler
  by_cases hpid : pid' = pid
  · rw [hpid, Function.update_self] at hhandler
    exact ho hd hhandler
  · rw [Function.update_of_ne hpid] at hhandler
    exact h pid' hd hhandler

theorem advance_hit (hd : Handler) (ptrs : FramePtrs) :
    (hd.advance ptrs).1.hit = hd.hit := by
  unfold Handler.advance
  cases hd.pc <;> rfl

theorem step {e : AsyncEvent}
    (h : NoneHit s)
    (hspared : Spared s e)
    (hs : s.step e = .ok s') :
    NoneHit s' := by
  cases AsyncState.step_took hs with
  | idle =>
      exact h
  | enter cpu locals hcurrent =>
      refine h.update (fun hd heq => ?_) rfl
      cases heq
      rfl
  | @advance hd hcurrent =>
      refine h.update (fun hd' heq => ?_) rfl
      cases heq
      rw [advance_hit]
      exact h s.currentTask hd hcurrent
  | leave regs hcurrent hpc hframe =>
      exact h.update (by simp) rfl
  | interrupt next hint =>
      refine h.update (fun hd heq => ?_) rfl
      obtain ⟨hd₀, hcurrent, rfl⟩ := Option.map_eq_some_iff.mp heq
      have hexposed : hd₀.pc.exposed = false := hspared hd₀ hcurrent
      have hhit : hd₀.hit = false := h s.currentTask hd₀ hcurrent
      simp only [Handler.interrupted, hexposed, hhit, Bool.or_self]
  | makeTask regs hpid =>
      exact h.update (by simp) rfl

end NoneHit

end Spared

/-- The handlers in a state that a run has reached. -/
theorem asyncInv_of_run {s t : AsyncState} {es : List AsyncEvent}
    (hinit : ∀ pid, s.handler pid = none)
    (h : run AsyncState.step s es = .ok t) :
    AsyncInv t :=
  run_invariant AsyncState.step (fun _ _ _ _ hinv hs => hinv.step hs) (AsyncInv.of_idle hinit) h

theorem noneHit_of_run {s t : AsyncState} {es : List AsyncEvent}
    (hinit : ∀ pid, s.handler pid = none)
    (hspared : Throughout AsyncState.step Spared s es)
    (h : run AsyncState.step s es = .ok t) :
    NoneHit t :=
  run_invariant_throughout AsyncState.step
    (fun _ _ _ _ hnone hhere hs => NoneHit.step hnone hhere hs) (NoneHit.of_idle hinit) hspared h

/-- **The frame pointer survives** exactly if no interrupt comes between its
write back and the `cli`: for each invocation, and so for every run that spares
these statements. -/
theorem frame_pointer_survives_iff {s t : AsyncState} {es : List AsyncEvent}
    (hinit : ∀ pid, s.handler pid = none)
    (h : run AsyncState.step s es = .ok t) :
    (∀ hd, t.current = some hd → hd.pc = .intEnd →
      (t.ptrs.interruptEspStackPtr = hd.frame ↔ hd.hit = false)) ∧
    (Throughout AsyncState.step Spared s es →
      ∀ hd, t.current = some hd → hd.pc = .intEnd →
        t.ptrs.interruptEspStackPtr = hd.frame) := by
  have hinv := asyncInv_of_run hinit h
  have hiff : ∀ hd, t.current = some hd → hd.pc = .intEnd →
      (t.ptrs.interruptEspStackPtr = hd.frame ↔ hd.hit = false) :=
    fun hd hcurrent hpc => (hinv.running hd hcurrent).frame_iff hpc
  refine ⟨hiff, fun hspared hd hcurrent hpc => ?_⟩
  have hnone := noneHit_of_run hinit hspared h
  exact (hiff hd hcurrent hpc).mpr (hnone t.currentTask hd hcurrent)

/-- The registers of a task with a stack pointer. -/
def cpuAt (esp : Word) : Cpu where
  eax := 2
  ecx := 0
  edx := 0
  ebx := 0
  esp := esp
  ebp := esp
  esi := 0
  edi := 0
  eip := 0x10000
  eflags := 0x206
  cs := 0x08
  ds := 0x10
  ss := 0x10
  es := 0x10
  fs := 0x10
  gs := 0x10

/-- Task 1 runs, and no task is in a handler. -/
def idleTasks : AsyncState where
  currentTask := 1
  handler := fun _ => none
  context := fun pid => (cpuAt (BitVec.ofNat 32 (0x40000000 + 8192 * pid))).context
  ptrs := (cpuAt 0x40002000).context.ptrs

/-- Task 1 writes, and task 2 runs for a while in the middle of it. -/
def preemptedWrite : List AsyncEvent :=
  [.enter (cpuAt 0x40002000) idleTasks.ptrs] ++ List.replicate 6 .advance ++
    [.interrupt (cpuAt 0x40001F80) 2, .interrupt (cpuAt 0x40004000) 1] ++ List.replicate 6 .advance

theorem frame_pointer_survives_sample :
    ∃ t, run AsyncState.step idleTasks preemptedWrite = .ok t ∧
      (∃ hd ∈ t.current, hd.pc = .intEnd ∧ hd.frame = 0x40001FC0) ∧
      ∀ hd, t.current = some hd → hd.pc = .intEnd → t.ptrs.interruptEspStackPtr = hd.frame := by
  have hreach : returnsWith (run AsyncState.step idleTasks preemptedWrite)
      (fun t => ∃ hd ∈ t.current, hd.pc = .intEnd ∧ hd.frame = 0x40001FC0) = true := by
    decide +kernel
  obtain ⟨t, hrun, hend⟩ := exists_of_returnsWith hreach
  exact ⟨t, hrun, hend, (frame_pointer_survives_iff (fun _ => rfl) hrun).2 (by decide +kernel)⟩

/-- The same system call, with an interrupt between the write back and the `cli`. -/
def lateInterrupt : List AsyncEvent :=
  [.enter (cpuAt 0x40002000) idleTasks.ptrs] ++ List.replicate 7 .advance ++
    [.interrupt (cpuAt 0x40001F80) 1] ++ List.replicate 4 .advance

/-- `INT_END` would load the stack pointer of the interrupted handler. -/
theorem late_interrupt_loses_frame :
    ∃ t, run AsyncState.step idleTasks lateInterrupt = .ok t ∧
      ∃ hd ∈ t.current, hd.pc = .intEnd ∧ hd.frame = 0x40001FC0 ∧
        t.ptrs.interruptEspStackPtr = 0x40001F80 := by
  apply exists_of_returnsWith
  decide +kernel

end Klyx
