import Klyx.Kernel.Sched
import Klyx.Lib.HaltingRun

/-!
# Signal delivery to one task

What `__flush_signals` does to the table: one round of its loop (`SignalTaken`),
the whole loop as a function on the task structure (`Task.flushed`), and the
meaning of that function in terms of the pending signals.

**Results.**
* `flushSignals_eq`: the loop stops exactly when its own condition fails.
* `flushSignals_ok`, `flushSignals_error`: the effect of a call that returns,
  and the only way in which a call can fail.
* `flushed_dead_iff`, `flushed_paused`: a task dies in a flush exactly when a
  fatal signal is pending, and otherwise its pause flag follows its queue.
-/

namespace Klyx

open HaltingRun

/-- The signal that the next round takes. -/
def Task.front (t : Task) : Sig :=
  t.signals t.signalsReadHead

/-- What a disposition does to the task structure. -/
def Task.receive (t : Task) : Disposition → Task
  | .die _ => { t with status := .dead }
  | .cont => { t with paused := false }
  | .stop => { t with paused := true }
  | .ignore => t

/-- One round of the loop on the task structure. -/
def Task.handleFront (t : Task) : Task :=
  { t.receive (disposition t.front) with
    signalsSize := t.signalsSize - 1
    signalsReadHead := (t.signalsReadHead + 1) % taskSigCap }

/-- The loop continues. -/
def Task.Deliverable (t : Task) : Prop :=
  t.signalsSize ≠ 0 ∧ t.status ≠ .dead

instance (t : Task) : Decidable t.Deliverable :=
  inferInstanceAs (Decidable (_ ∧ _))

/-- The ghost records of one round, newest first. -/
def handleNotes (pid : Nat) (sig : Sig) : List Note :=
  if Fatal sig then [.died pid, .handled pid sig] else [.handled pid sig]

/-- The effect of one round that returns. -/
structure SignalTaken (pid : Nat) (k k' : Kernel) : Prop where
  safe : Fatal (k.tasks pid).front → k.currentTask ≠ 0
  tasks : k'.tasks = Function.update k.tasks pid (k.tasks pid).handleFront
  currentTask : k'.currentTask = k.currentTask
  isTaskingAvaliable : k'.isTaskingAvaliable = k.isTaskingAvaliable
  history : k'.history = handleNotes pid (k.tasks pid).front ++ k.history

theorem handleFront_of {t : Task} {d : Disposition}
    (h : disposition t.front = d) :
    t.handleFront =
      { t.receive d with
        signalsSize := t.signalsSize - 1
        signalsReadHead := (t.signalsReadHead + 1) % taskSigCap } := by
  subst h
  rfl

theorem handleNotes_of_fatal {pid : Nat} {sig : Sig}
    (h : Fatal sig) :
    handleNotes pid sig = [.died pid, .handled pid sig] :=
  if_pos h

theorem handleNotes_of_not_fatal {pid : Nat} {sig : Sig}
    (h : ¬ Fatal sig) :
    handleNotes pid sig = [.handled pid sig] :=
  if_neg h

theorem not_fatal_of_disposition {sig : Sig} {d : Disposition}
    (h : disposition sig = d)
    (hd : ∀ text, d ≠ .die text) :
    ¬ Fatal sig := by
  rintro ⟨text, ht⟩
  exact hd text (h.symm.trans ht)

/-- A round whose label neither dies nor panics. -/
theorem signalTaken_of_survivor {pid : Nat} {k k' : Kernel} {d : Disposition}
    (hd : disposition (k.tasks pid).front = d)
    (hsurvive : ∀ text, d ≠ .die text)
    (htasks : k'.tasks = Function.update k.tasks pid
      { (k.tasks pid).receive d with
        signalsSize := (k.tasks pid).signalsSize - 1
        signalsReadHead := ((k.tasks pid).signalsReadHead + 1) % taskSigCap })
    (hcurrent : k'.currentTask = k.currentTask)
    (htasking : k'.isTaskingAvaliable = k.isTaskingAvaliable)
    (hhistory : k'.history = .handled pid (k.tasks pid).front :: k.history) :
    SignalTaken pid k k' := by
  have hnot := not_fatal_of_disposition hd hsurvive
  refine ⟨fun hf => absurd hf hnot, ?_, hcurrent, htasking, ?_⟩
  · rw [handleFront_of hd]
    exact htasks
  · rw [handleNotes_of_not_fatal hnot]
    exact hhistory

/-- A round returns unless it would end a task while slot 0 is current. -/
theorem flushSignal_cases (pid : Nat) (regs : IntRegs) (k : Kernel) :
    (∃ k', flushSignal pid regs k = .ok k' ∧ SignalTaken pid k k') ∨
    (Fatal (k.tasks pid).front ∧ k.currentTask = 0 ∧
      ∃ k', flushSignal pid regs k = .error (.panic "Attempt to kill init." regs k')) := by
  have hfront : disposition (k.tasks pid).front =
      disposition ((k.tasks pid).signals (k.tasks pid).signalsReadHead) := rfl
  cases hd : disposition (k.tasks pid).front with
  | die text =>
      have hfatal : Fatal (k.tasks pid).front := ⟨text, hd⟩
      rw [hfront] at hd
      by_cases hcur : k.currentTask = 0
      · right
        refine ⟨hfatal, hcur, ?_⟩
        cases text <;>
          simp [flushSignal, dispatchSignal, hd, hcur, bind, Except.bind]
      · left
        cases text <;>
        · simp only [flushSignal, dispatchSignal, bind, Except.bind, Kernel.modifyTask_tasks,
            Function.update_self, hd, Kernel.note_currentTask, Kernel.printf_currentTask,
            Kernel.modifyTask_currentTask, hcur, if_false]
          refine ⟨_, rfl, ⟨fun _ => hcur, ?_, rfl, rfl, ?_⟩⟩
          · rw [handleFront_of (hfront.trans hd)]
            simp [Task.receive]
          · rw [handleNotes_of_fatal hfatal]
            rfl
  | cont =>
      left
      have hd' := hfront ▸ hd
      simp only [flushSignal, dispatchSignal, bind, Except.bind, Kernel.modifyTask_tasks,
        Function.update_self, hd']
      refine ⟨_, rfl, signalTaken_of_survivor hd (by simp) ?_ rfl rfl rfl⟩
      simp [Task.receive]
  | stop =>
      left
      have hd' := hfront ▸ hd
      simp only [flushSignal, dispatchSignal, bind, Except.bind, Kernel.modifyTask_tasks,
        Function.update_self, hd']
      refine ⟨_, rfl, signalTaken_of_survivor hd (by simp) ?_ rfl rfl rfl⟩
      simp [Task.receive]
  | ignore =>
      left
      have hd' := hfront ▸ hd
      simp only [flushSignal, dispatchSignal, bind, Except.bind, Kernel.modifyTask_tasks,
        Function.update_self, hd']
      refine ⟨_, rfl, signalTaken_of_survivor hd (by simp) ?_ rfl rfl rfl⟩
      simp [Task.receive]

/-- Rounds of the loop on the task structure. -/
def Task.drain : Nat → Task → Task
  | 0, t => t
  | rounds + 1, t =>
      if t.Deliverable then Task.drain rounds t.handleFront else t

/-- The task structure that `__flush_signals` leaves. -/
def Task.flushed (t : Task) : Task :=
  t.drain t.signalsSize

theorem handleFront_signalsSize (t : Task) :
    t.handleFront.signalsSize = t.signalsSize - 1 := rfl

theorem flushed_of_not_deliverable {t : Task}
    (h : ¬ t.Deliverable) :
    t.flushed = t := by
  unfold Task.flushed
  cases t.signalsSize with
  | zero =>
      rfl
  | succ n =>
      simp [Task.drain, h]

theorem flushed_of_deliverable {t : Task}
    (h : t.Deliverable) :
    t.flushed = t.handleFront.flushed := by
  obtain ⟨n, hn⟩ := Nat.exists_eq_succ_of_ne_zero h.1
  have hrest : t.handleFront.signalsSize = n := by
    rw [handleFront_signalsSize, hn]
    rfl
  simp only [Task.flushed, hn, hrest, Task.drain, h, if_true]

/-- Induction over the rounds of a flush. -/
theorem flushed_induction {P : Task → Task → Prop}
    (hdone : ∀ t, ¬ t.Deliverable → P t t)
    (hround : ∀ t r, t.Deliverable → P t.handleFront r → P t r)
    (t : Task) :
    P t t.flushed := by
  generalize hn : t.signalsSize = n
  induction n generalizing t with
  | zero =>
      have hnot : ¬ t.Deliverable := fun h => h.1 hn
      rw [flushed_of_not_deliverable hnot]
      exact hdone t hnot
  | succ n ih =>
      by_cases h : t.Deliverable
      · rw [flushed_of_deliverable h]
        apply hround t _ h
        apply ih
        rw [handleFront_signalsSize, hn]
        rfl
      · rw [flushed_of_not_deliverable h]
        exact hdone t h

/-- What every round keeps is kept by the whole flush. -/
theorem flushed_preserves {α : Type} (f : Task → α)
    (hround : ∀ t, f t.handleFront = f t)
    (t : Task) :
    f t.flushed = f t := by
  refine flushed_induction (P := fun t r => f r = f t) (fun _ _ => rfl) ?_ t
  intro t r _ ih
  exact ih.trans (hround t)

theorem receive_preserves {α : Type} (f : Task → α)
    (hstatus : ∀ t s, f { t with status := s } = f t)
    (hpaused : ∀ t b, f { t with paused := b } = f t)
    (t : Task)
    (d : Disposition) :
    f (t.receive d) = f t := by
  cases d with
  | die text =>
      exact hstatus t .dead
  | cont =>
      exact hpaused t false
  | stop =>
      exact hpaused t true
  | ignore =>
      rfl

@[simp] theorem handleFront_regs (t : Task) : t.handleFront.regs = t.regs :=
  receive_preserves Task.regs (fun _ _ => rfl) (fun _ _ => rfl) t _

@[simp] theorem handleFront_uid (t : Task) : t.handleFront.uid = t.uid :=
  receive_preserves Task.uid (fun _ _ => rfl) (fun _ _ => rfl) t _

@[simp] theorem handleFront_gid (t : Task) : t.handleFront.gid = t.gid :=
  receive_preserves Task.gid (fun _ _ => rfl) (fun _ _ => rfl) t _

@[simp] theorem handleFront_signals (t : Task) : t.handleFront.signals = t.signals :=
  receive_preserves Task.signals (fun _ _ => rfl) (fun _ _ => rfl) t _

@[simp] theorem handleFront_signalsWriteHead (t : Task) :
    t.handleFront.signalsWriteHead = t.signalsWriteHead :=
  receive_preserves Task.signalsWriteHead (fun _ _ => rfl) (fun _ _ => rfl) t _

@[simp] theorem flushed_regs (t : Task) : t.flushed.regs = t.regs :=
  flushed_preserves Task.regs handleFront_regs t

@[simp] theorem flushed_signals (t : Task) : t.flushed.signals = t.signals :=
  flushed_preserves Task.signals handleFront_signals t

@[simp] theorem flushed_signalsWriteHead (t : Task) :
    t.flushed.signalsWriteHead = t.signalsWriteHead :=
  flushed_preserves Task.signalsWriteHead handleFront_signalsWriteHead t

/-- After a flush the task is dead or its queue is empty. -/
theorem flushed_not_deliverable (t : Task) :
    ¬ t.flushed.Deliverable := by
  refine flushed_induction (P := fun _ r => ¬ r.Deliverable) (fun _ h => h) ?_ t
  intro _ _ _ ih
  exact ih

/-- A round ends the task exactly when its signal is fatal. -/
theorem handleFront_dead_iff {t : Task}
    (hlive : t.status ≠ .dead) :
    t.handleFront.status = .dead ↔ Fatal t.front := by
  cases hd : disposition t.front with
  | die text =>
      rw [handleFront_of hd]
      exact iff_of_true rfl ⟨text, hd⟩
  | cont =>
      rw [handleFront_of hd]
      exact iff_of_false hlive (not_fatal_of_disposition hd (by simp))
  | stop =>
      rw [handleFront_of hd]
      exact iff_of_false hlive (not_fatal_of_disposition hd (by simp))
  | ignore =>
      rw [handleFront_of hd]
      exact iff_of_false hlive (not_fatal_of_disposition hd (by simp))

/-- The pause flag after one signal: only the two job-control signals set it. -/
def pausedBy (paused : Bool) (sig : Sig) : Bool :=
  if sig = sigstop then true
  else if sig = sigcont then false
  else paused

/-- The pause flag after a sequence of signals. -/
def pausedAfter (paused : Bool) (sigs : List Sig) : Bool :=
  sigs.foldl pausedBy paused

theorem disposition_stop_iff (sig : Sig) :
    disposition sig = .stop ↔ sig = sigstop := by
  revert sig
  decide

theorem disposition_cont_iff (sig : Sig) :
    disposition sig = .cont ↔ sig = sigcont := by
  revert sig
  decide

theorem handleFront_paused (t : Task) :
    t.handleFront.paused = pausedBy t.paused t.front := by
  have hstop := disposition_stop_iff t.front
  have hcont := disposition_cont_iff t.front
  cases hd : disposition t.front with
  | die text =>
      simp_all [handleFront_of hd, Task.receive, pausedBy]
  | cont =>
      simp_all [handleFront_of hd, Task.receive, pausedBy]
  | stop =>
      simp_all [handleFront_of hd, Task.receive, pausedBy]
  | ignore =>
      simp_all [handleFront_of hd, Task.receive, pausedBy]

theorem handleFront_ring (t : Task) :
    t.handleFront.ring = RingBuffer.pop taskSigCap t.ring := by
  simp only [Task.ring, RingBuffer.pop, handleFront_signals, handleFront_signalsWriteHead]
  rfl

theorem handleFront_queueValid {t : Task}
    (hq : t.QueueValid)
    (hsize : t.signalsSize ≠ 0) :
    t.handleFront.QueueValid := by
  rw [Task.QueueValid, handleFront_ring]
  exact RingBuffer.valid_pop taskSigCap hq hsize

theorem flushed_queueValid {t : Task}
    (hq : t.QueueValid) :
    t.flushed.QueueValid := by
  revert hq
  refine flushed_induction (P := fun t r => t.QueueValid → r.QueueValid) (fun _ _ h => h) ?_ t
  intro t r hdel ih hq
  exact ih (handleFront_queueValid hq hdel.1)

theorem flushed_flushed (t : Task) :
    t.flushed.flushed = t.flushed :=
  flushed_of_not_deliverable (flushed_not_deliverable t)

/-- A round takes the oldest pending signal. -/
theorem pending_eq_cons {t : Task}
    (hq : t.QueueValid)
    (hsize : t.signalsSize ≠ 0) :
    t.pending = t.front :: t.handleFront.pending := by
  rw [Task.pending, Task.pending, handleFront_ring]
  exact RingBuffer.contents_pop taskSigCap hq hsize

theorem pending_eq_nil_iff (t : Task) :
    t.pending = [] ↔ t.signalsSize = 0 :=
  RingBuffer.contents_eq_nil_iff taskSigCap t.ring

/-- A live task that its pending signals will end. -/
def Task.Doomed (t : Task) : Prop :=
  t.status ≠ .dead ∧ ∃ sig ∈ t.pending, Fatal sig

theorem Task.Doomed.deliverable {t : Task}
    (h : t.Doomed) :
    t.Deliverable := by
  obtain ⟨hlive, sig, hmem, -⟩ := h
  refine ⟨?_, hlive⟩
  intro hsize
  rw [(pending_eq_nil_iff t).mpr hsize] at hmem
  cases hmem

theorem doomed_of_fatal_front {t : Task}
    (hq : t.QueueValid)
    (hdel : t.Deliverable)
    (hfront : Fatal t.front) :
    t.Doomed := by
  refine ⟨hdel.2, t.front, ?_, hfront⟩
  rw [pending_eq_cons hq hdel.1]
  exact List.mem_cons_self

/-- After a signal that is not fatal, the task is as doomed as before. -/
theorem doomed_handleFront_iff {t : Task}
    (hq : t.QueueValid)
    (hdel : t.Deliverable)
    (hfront : ¬ Fatal t.front) :
    t.handleFront.Doomed ↔ t.Doomed := by
  have hlive : t.handleFront.status ≠ .dead := by
    rw [Ne, handleFront_dead_iff hdel.2]
    exact hfront
  unfold Task.Doomed
  rw [pending_eq_cons hq hdel.1]
  simp [hlive, hdel.2, hfront]

/-- A flush ends a task exactly when a fatal signal is pending. -/
theorem flushed_dead_iff {t : Task}
    (hq : t.QueueValid) :
    t.flushed.status = .dead ↔ t.status = .dead ∨ t.Doomed := by
  revert hq
  refine flushed_induction
    (P := fun t r => t.QueueValid → (r.status = .dead ↔ t.status = .dead ∨ t.Doomed))
    ?_ ?_ t
  · intro t hnot _
    constructor
    · exact Or.inl
    · rintro (hdead | hdoomed)
      · exact hdead
      · exact absurd hdoomed.deliverable hnot
  · intro t r hdel ih hq
    rw [ih (handleFront_queueValid hq hdel.1), handleFront_dead_iff hdel.2]
    by_cases hfront : Fatal t.front
    · exact iff_of_true (Or.inl hfront) (Or.inr (doomed_of_fatal_front hq hdel hfront))
    · rw [doomed_handleFront_iff hq hdel hfront]
      simp [hfront, hdel.2]

theorem flushed_dead_of_dead {t : Task}
    (h : t.status = .dead) :
    t.flushed = t :=
  flushed_of_not_deliverable (fun hdel => hdel.2 h)

/-- A task that survives its flush ends up as its queue says. -/
theorem flushed_paused {t : Task}
    (hq : t.QueueValid)
    (hlive : t.status ≠ .dead)
    (hnot : ¬ t.Doomed) :
    t.flushed.paused = pausedAfter t.paused t.pending := by
  revert hq hlive hnot
  refine flushed_induction
    (P := fun t r => t.QueueValid → t.status ≠ .dead → ¬ t.Doomed →
      r.paused = pausedAfter t.paused t.pending) ?_ ?_ t
  · intro t hnot _ hlive _
    have hsize : t.signalsSize = 0 := by
      by_contra hsize
      exact hnot ⟨hsize, hlive⟩
    rw [(pending_eq_nil_iff t).mpr hsize]
    rfl
  · intro t r hdel ih hq hlive hnot
    have hfront : ¬ Fatal t.front := fun hf => hnot (doomed_of_fatal_front hq hdel hf)
    have hlive' : t.handleFront.status ≠ .dead := by
      rw [Ne, handleFront_dead_iff hlive]
      exact hfront
    have hnot' : ¬ t.handleFront.Doomed := by
      rw [doomed_handleFront_iff hq hdel hfront]
      exact hnot
    rw [ih (handleFront_queueValid hq hdel.1) hlive' hnot', handleFront_paused,
      pending_eq_cons hq hdel.1]
    rfl

/-- The loop condition of `__flush_signals` alone ends its loop. -/
theorem flushSignals_eq (pid : Nat) (regs : IntRegs) (k : Kernel) :
    flushSignals pid regs k =
      if (k.tasks pid).Deliverable then
        flushSignal pid regs k >>= flushSignals pid regs
      else .ok (k.note (.flushed pid)) := by
  by_cases h : (k.tasks pid).Deliverable
  · obtain ⟨n, hn⟩ := Nat.exists_eq_succ_of_ne_zero h.1
    have hloop : flushLoop pid regs (k.tasks pid).signalsSize k =
        flushSignal pid regs k >>= flushLoop pid regs n := by
      rw [hn]
      exact if_pos h
    rw [if_pos h, flushSignals, hloop]
    rcases flushSignal_cases pid regs k with ⟨k', hok, htaken⟩ | ⟨-, -, k', herr⟩
    · have hsize : (k'.tasks pid).signalsSize = n := by
        rw [htaken.tasks, Function.update_self, handleFront_signalsSize, hn]
        rfl
      rw [hok]
      simp only [bind, Except.bind, flushSignals, hsize]
    · rw [herr]
      rfl
  · rw [if_neg h, flushSignals]
    have hloop : flushLoop pid regs (k.tasks pid).signalsSize k = .ok k := by
      cases (k.tasks pid).signalsSize with
      | zero =>
          rfl
      | succ n =>
          exact if_neg h
    rw [hloop]
    rfl

/-- Proof rule for `__flush_signals`: an invariant of its rounds. -/
theorem flushSignals_rule {pid : Nat} {regs : IntRegs} {I : Kernel → Prop}
    {Q : Exec Kernel → Prop}
    (hdone : ∀ k, I k → ¬ (k.tasks pid).Deliverable → Q (.ok (k.note (.flushed pid))))
    (hround : ∀ k k', I k → (k.tasks pid).Deliverable → SignalTaken pid k k' → I k')
    (hpanic : ∀ k k', I k → (k.tasks pid).Deliverable → Fatal (k.tasks pid).front →
      k.currentTask = 0 → Q (.error (.panic "Attempt to kill init." regs k')))
    {k : Kernel}
    (hinit : I k) :
    Q (flushSignals pid regs k) := by
  generalize hn : (k.tasks pid).signalsSize = n
  induction n generalizing k with
  | zero =>
      have hnot : ¬ (k.tasks pid).Deliverable := fun h => h.1 hn
      rw [flushSignals_eq, if_neg hnot]
      exact hdone k hinit hnot
  | succ n ih =>
      rw [flushSignals_eq]
      by_cases h : (k.tasks pid).Deliverable
      · rw [if_pos h]
        rcases flushSignal_cases pid regs k with ⟨k', hok, htaken⟩ | ⟨hfatal, hcur, k', herr⟩
        · rw [hok]
          refine ih (hround k k' hinit h htaken) ?_
          rw [htaken.tasks, Function.update_self, handleFront_signalsSize, hn]
          rfl
        · rw [herr]
          exact hpanic k k' hinit h hfatal hcur
      · rw [if_neg h]
        exact hdone k hinit h

/-- The effect of a call of `__flush_signals` that returns. -/
structure Flushed (pid : Nat) (k k' : Kernel) : Prop where
  tasks : k'.tasks = Function.update k.tasks pid (k.tasks pid).flushed
  currentTask : k'.currentTask = k.currentTask
  isTaskingAvaliable : k'.isTaskingAvaliable = k.isTaskingAvaliable

theorem flushSignals_ok {pid : Nat} {regs : IntRegs} {k k' : Kernel}
    (h : flushSignals pid regs k = .ok k') :
    Flushed pid k k' := by
  have hrule : ∀ k', flushSignals pid regs k = .ok k' → Flushed pid k k' := by
    refine flushSignals_rule
      (I := fun k₁ =>
        k₁.tasks = Function.update k.tasks pid (k₁.tasks pid) ∧
        (k₁.tasks pid).flushed = (k.tasks pid).flushed ∧
        k₁.currentTask = k.currentTask ∧
        k₁.isTaskingAvaliable = k.isTaskingAvaliable)
      (Q := fun x => ∀ k', x = .ok k' → Flushed pid k k') ?_ ?_ ?_ ?_
    · rintro k₁ ⟨htasks, hflushed, hcur, htasking⟩ hnot k' heq
      cases heq
      refine ⟨?_, hcur, htasking⟩
      rw [← hflushed, flushed_of_not_deliverable hnot]
      exact htasks
    · rintro k₁ k₂ ⟨htasks, hflushed, hcur, htasking⟩ hdel htaken
      refine ⟨?_, ?_, htaken.currentTask.trans hcur, htaken.isTaskingAvaliable.trans htasking⟩
      · rw [htaken.tasks, Function.update_self, htasks, Function.update_idem]
      · rw [htaken.tasks, Function.update_self, ← hflushed, flushed_of_deliverable hdel]
    · intro k₁ k₂ _ _ _ _ k' heq
      cases heq
    · exact ⟨(Function.update_eq_self pid k.tasks).symm, rfl, rfl, rfl⟩
  exact hrule k' h

/-- Delivering a fatal signal while slot 0 is current is a panic. -/
theorem flushSignals_panic {pid : Nat} {k : Kernel}
    (regs : IntRegs)
    (hq : (k.tasks pid).QueueValid)
    (hcur : k.currentTask = 0)
    (hdoomed : (k.tasks pid).Doomed) :
    ∃ k', flushSignals pid regs k = .error (.panic "Attempt to kill init." regs k') := by
  refine flushSignals_rule
    (I := fun k₁ => (k₁.tasks pid).QueueValid ∧ k₁.currentTask = 0 ∧ (k₁.tasks pid).Doomed)
    (Q := fun x => ∃ k', x = .error (.panic "Attempt to kill init." regs k'))
    ?_ ?_ ?_ ⟨hq, hcur, hdoomed⟩
  · rintro k₁ ⟨-, -, hdoomed⟩ hnot
    exact absurd hdoomed.deliverable hnot
  · rintro k₁ k₂ ⟨hq, hcur, hdoomed⟩ hdel htaken
    have hfront : ¬ Fatal (k₁.tasks pid).front := fun hf => htaken.safe hf hcur
    refine ⟨?_, htaken.currentTask.trans hcur, ?_⟩
    · rw [htaken.tasks, Function.update_self]
      exact handleFront_queueValid hq hdel.1
    · rw [htaken.tasks, Function.update_self, doomed_handleFront_iff hq hdel hfront]
      exact hdoomed
  · intro _ k₂ _ _ _ _
    exact ⟨k₂, rfl⟩

/-- Every other call returns. -/
theorem flushSignals_returns {pid : Nat} {k : Kernel}
    (regs : IntRegs)
    (hq : (k.tasks pid).QueueValid)
    (hsafe : k.currentTask = 0 → ¬ (k.tasks pid).Doomed) :
    ∃ k', flushSignals pid regs k = .ok k' ∧ Flushed pid k k' := by
  have hok : ∃ k', flushSignals pid regs k = .ok k' := by
    refine flushSignals_rule
      (I := fun k₁ => (k₁.tasks pid).QueueValid ∧
        (k₁.currentTask = 0 → ¬ (k₁.tasks pid).Doomed))
      (Q := fun x => ∃ k', x = .ok k') ?_ ?_ ?_ ⟨hq, hsafe⟩
    · intro k₁ _ _
      exact ⟨_, rfl⟩
    · rintro k₁ k₂ ⟨hq, hsafe⟩ hdel htaken
      rw [htaken.tasks, Function.update_self, htaken.currentTask]
      refine ⟨handleFront_queueValid hq hdel.1, fun hcur => ?_⟩
      have hfront : ¬ Fatal (k₁.tasks pid).front := fun hf => htaken.safe hf hcur
      rw [doomed_handleFront_iff hq hdel hfront]
      exact hsafe hcur
    · rintro k₁ k₂ ⟨hq, hsafe⟩ hdel hfatal hcur
      exact absurd (doomed_of_fatal_front hq hdel hfatal) (hsafe hcur)
  obtain ⟨k', hk'⟩ := hok
  exact ⟨k', hk', flushSignals_ok hk'⟩

/-- The only way in which a flush can fail. -/
structure InitDies (pid : Nat) (regs : IntRegs) (k : Kernel) (e : Halt) : Prop where
  current : k.currentTask = 0
  deliverable : (k.tasks pid).Deliverable
  doomed : (k.tasks pid).QueueValid → (k.tasks pid).Doomed
  report : ∃ k', e = .panic "Attempt to kill init." regs k'

theorem flushSignals_error {pid : Nat} {regs : IntRegs} {k : Kernel} {e : Halt}
    (h : flushSignals pid regs k = .error e) :
    InitDies pid regs k e := by
  have hrule : ∀ e, flushSignals pid regs k = .error e →
      k.currentTask = 0 ∧ ∃ k', e = .panic "Attempt to kill init." regs k' := by
    refine flushSignals_rule (I := fun k₁ => k₁.currentTask = k.currentTask)
      (Q := fun x => ∀ e, x = .error e →
        k.currentTask = 0 ∧ ∃ k', e = .panic "Attempt to kill init." regs k') ?_ ?_ ?_ rfl
    · intro _ _ _ e heq
      cases heq
    · intro k₁ k₂ hcur _ htaken
      exact htaken.currentTask.trans hcur
    · intro k₁ k₂ hcur _ _ hzero e heq
      cases heq
      exact ⟨hcur.symm.trans hzero, k₂, rfl⟩
  obtain ⟨hzero, hreport⟩ := hrule e h
  refine ⟨hzero, ?_, ?_, hreport⟩
  · by_contra hnot
    rw [flushSignals_eq, if_neg hnot] at h
    cases h
  · intro hq
    by_contra hsafe
    obtain ⟨k', hok, -⟩ := flushSignals_returns regs hq (fun _ => hsafe)
    rw [h] at hok
    cases hok

end Klyx
