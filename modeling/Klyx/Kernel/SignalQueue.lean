import Klyx.Kernel.SchedulerInvariant
import Klyx.Lib.GhostHistory

/-!
# The signal queues refine bounded FIFO queues

For one slot, the history since the slot was last filled gives the signals that
were accepted and those that were handled, both in order.  The queue in the
task structure is the difference of the two (`QueueLog.fifo`), its indices are
in range, and the pause flag is what the handled signals made of it.

The invariant is checked for each scheduler action; handling a signal is the
pop, and queueing one the push, of the ring buffer.
-/

namespace Klyx

open HaltingRun GhostHistory

/-- Signals accepted for a slot since it was last filled, oldest first. -/
def acceptedSince (pid : Nat) : List Note → List Sig
  | [] => []
  | .created q _ :: h => if q = pid then [] else acceptedSince pid h
  | .queued q sig :: h =>
      if q = pid then acceptedSince pid h ++ [sig] else acceptedSince pid h
  | _ :: h => acceptedSince pid h

/-- Signals handled for a slot since it was last filled, oldest first. -/
def handledSince (pid : Nat) : List Note → List Sig
  | [] => []
  | .created q _ :: h => if q = pid then [] else handledSince pid h
  | .handled q sig :: h =>
      if q = pid then handledSince pid h ++ [sig] else handledSince pid h
  | _ :: h => handledSince pid h

/-- The queue of a slot accounts for every signal of the task in it. -/
structure QueueLog (pid : Nat) (h : List Note) (t : Task) : Prop where
  valid : t.QueueValid
  fifo : acceptedSince pid h = handledSince pid h ++ t.pending
  paused : t.paused = pausedAfter false (handledSince pid h)

/-- A handled signal is the oldest one accepted and not handled before. -/
def HandledInOrder (n : Note) (earlier : List Note) : Prop :=
  ∀ pid sig, n = .handled pid sig →
    ∃ rest, acceptedSince pid earlier = handledSince pid earlier ++ sig :: rest

/-- A flush ends with an empty queue or with the death of the task. -/
def FlushComplete (mayExit : Prop) (n : Note) (earlier : List Note) : Prop :=
  ∀ pid, n = .flushed pid →
    acceptedSince pid earlier = handledSince pid earlier ∨
    (∃ before, earlier = .died pid :: before) ∨
    mayExit

/-- The invariant of the signal queues. -/
structure QueuesInv (mayExit : Prop) (k : Kernel) : Prop where
  log : ∀ pid, QueueLog pid k.history (k.tasks pid)
  inOrder : Everywhere HandledInOrder k.history
  complete : Everywhere (FlushComplete mayExit) k.history

section Notes

variable {pid : Nat} {h : List Note} {sig : Sig}

/-- Records of other slots do not count. -/
theorem acceptedSince_other {notes : List Note}
    (hnotes : ∀ n ∈ notes, n.slot ≠ pid) :
    acceptedSince pid (notes ++ h) = acceptedSince pid h := by
  refine reading_append ?_ hnotes
  intro n earlier hn
  cases n with
  | created | queued =>
      exact if_neg hn
  | saved | resumed | handled | flushed | died | exited =>
      rfl

theorem handledSince_other {notes : List Note}
    (hnotes : ∀ n ∈ notes, n.slot ≠ pid) :
    handledSince pid (notes ++ h) = handledSince pid h := by
  refine reading_append ?_ hnotes
  intro n earlier hn
  cases n with
  | created | handled =>
      exact if_neg hn
  | saved | resumed | queued | flushed | died | exited =>
      rfl

@[simp] theorem acceptedSince_handleNotes :
    acceptedSince pid (handleNotes pid sig ++ h) = acceptedSince pid h := by
  unfold handleNotes
  split <;> rfl

@[simp] theorem handledSince_handleNotes :
    handledSince pid (handleNotes pid sig ++ h) = handledSince pid h ++ [sig] := by
  unfold handleNotes
  split <;> exact if_pos rfl

theorem pausedAfter_append (paused : Bool) (sigs : List Sig) (sig : Sig) :
    pausedAfter paused (sigs ++ [sig]) = pausedBy (pausedAfter paused sigs) sig := by
  simp [pausedAfter]

end Notes

section Tasks

variable {pid : Nat} {h : List Note} {t : Task}

/-- A log survives changes that spare the queue and the pause flag. -/
theorem QueueLog.transfer {t' : Task} {h' : List Note}
    (hlog : QueueLog pid h t)
    (hring : t'.ring = t.ring)
    (hpaused : t'.paused = t.paused)
    (hacc : acceptedSince pid h' = acceptedSince pid h)
    (hhan : handledSince pid h' = handledSince pid h) :
    QueueLog pid h' t' := by
  refine ⟨?_, ?_, ?_⟩
  · rw [Task.QueueValid, hring]
    exact hlog.valid
  · rw [Task.pending, hacc, hhan, hring]
    exact hlog.fifo
  · rw [hpaused, hhan]
    exact hlog.paused

theorem enqueue_ring (t : Task) (sig : Sig) :
    (t.enqueue sig).ring = RingBuffer.push taskSigCap t.ring sig := rfl

theorem enqueue_queueValid {sig : Sig}
    (hq : t.QueueValid)
    (hroom : t.signalsSize < taskSigCap - 1) :
    (t.enqueue sig).QueueValid := by
  rw [Task.QueueValid, enqueue_ring]
  exact RingBuffer.valid_push taskSigCap hq hroom sig

theorem enqueue_pending {sig : Sig}
    (hq : t.QueueValid)
    (hroom : t.signalsSize < taskSigCap - 1) :
    (t.enqueue sig).pending = t.pending ++ [sig] := by
  rw [Task.pending, enqueue_ring]
  exact RingBuffer.contents_push taskSigCap hq hroom sig

/-- Accepting a signal extends the queue. -/
theorem QueueLog.enqueue {sig : Sig}
    (hlog : QueueLog pid h t)
    (hroom : t.signalsSize < taskSigCap - 1) :
    QueueLog pid (.queued pid sig :: h) (t.enqueue sig) := by
  refine ⟨enqueue_queueValid hlog.valid hroom, ?_, hlog.paused⟩
  simp only [acceptedSince, handledSince, if_true, enqueue_pending hlog.valid hroom, hlog.fifo,
    List.append_assoc]

/-- Handling a signal moves it from the queue to the handled ones. -/
theorem QueueLog.handleFront
    (hlog : QueueLog pid h t)
    (hdel : t.Deliverable) :
    QueueLog pid (handleNotes pid t.front ++ h) t.handleFront := by
  refine ⟨handleFront_queueValid hlog.valid hdel.1, ?_, ?_⟩
  · rw [acceptedSince_handleNotes, handledSince_handleNotes, hlog.fifo,
      pending_eq_cons hlog.valid hdel.1]
    simp
  · rw [handledSince_handleNotes, pausedAfter_append, ← hlog.paused, handleFront_paused]

/-- A task that has just been created has an empty log. -/
theorem queueLog_freshTask (pid : Nat) (h : List Note)
    (eip tty fs gs cs genericSegment : Word) (yieldOnly : Bool) (regs : Regs) :
    QueueLog pid (.created pid regs :: h)
      (freshTask pid eip tty fs gs cs genericSegment yieldOnly) := by
  refine ⟨⟨?_, ?_, ?_, ?_⟩, ?_, ?_⟩
  · exact Nat.zero_le _
  · exact Nat.zero_lt_succ _
  · exact Nat.zero_lt_succ _
  · rfl
  · simp [acceptedSince, handledSince, Task.pending, RingBuffer.contents, Task.ring,
      freshTask, Task.zero]
  · simp [handledSince, freshTask, Task.zero, pausedAfter]

/-- Every move of a slot keeps its log. -/
theorem QueueLog.move {mayExit : Prop} {c c' : Nat} {h' : List Note} {t' : Task}
    (hlog : QueueLog pid h t)
    (hmove : SlotMove mayExit pid h t c h' t' c') :
    QueueLog pid h' t' := by
  cases hmove with
  | other notes _ hnotes _ =>
      exact hlog.transfer rfl rfl (acceptedSince_other hnotes) (handledSince_other hnotes)
  | save | flushed | resume | exit | setuid | setgid =>
      exact hlog.transfer rfl rfl rfl rfl
  | handle hdel _ =>
      exact hlog.handleFront hdel
  | queue sig hroom =>
      exact hlog.enqueue hroom
  | create =>
      exact queueLog_freshTask _ _ _ _ _ _ _ _ _ _

end Tasks

section Preservation

variable {mayExit : Prop} {k k' : Kernel}

theorem handledInOrder_of_not_handled {n : Note} {earlier : List Note}
    (h : ∀ pid sig, n ≠ .handled pid sig) :
    HandledInOrder n earlier :=
  fun pid sig heq => absurd heq (h pid sig)

theorem flushComplete_of_not_flushed {n : Note} {earlier : List Note}
    (h : ∀ pid, n ≠ .flushed pid) :
    FlushComplete mayExit n earlier :=
  fun pid heq => absurd heq (h pid)

/-- The signal that a round takes is the oldest one not handled before. -/
theorem handledInOrder_of_log {pid : Nat} {h : List Note} {t : Task}
    (hlog : QueueLog pid h t)
    (hdel : t.Deliverable) :
    HandledInOrder (.handled pid t.front) h := by
  intro q sig heq
  cases heq
  refine ⟨t.handleFront.pending, ?_⟩
  rw [hlog.fifo, pending_eq_cons hlog.valid hdel.1]

/-- Every action handles signals in order. -/
theorem action_inOrder
    (hinv : QueuesInv mayExit k)
    (h : Action mayExit k k') :
    Everywhere HandledInOrder k'.history := by
  have hold := hinv.inOrder
  cases h with
  | quiet h | advance _ h | setuid _ _ h | setgid _ _ h =>
      rw [h.history]
      exact hold
  | flushed _ h | resume _ _ _ h | save _ h | exit _ _ h | queue _ _ _ h
  | create _ _ _ _ _ _ _ _ _ h =>
      rw [h.history]
      exact ⟨handledInOrder_of_not_handled (fun _ _ => Note.noConfusion), hold⟩
  | handle hdel _ h =>
      rw [h.history]
      exact everywhere_handleNotes hold
        (handledInOrder_of_log (hinv.log k.currentTask) hdel)
        (handledInOrder_of_not_handled (fun _ _ => Note.noConfusion))

/-- Every action flushes completely. -/
theorem action_complete
    (hinv : QueuesInv mayExit k)
    (h : Action mayExit k k') :
    Everywhere (FlushComplete mayExit) k'.history := by
  have hold := hinv.complete
  cases h with
  | quiet h | advance _ h | setuid _ _ h | setgid _ _ h =>
      rw [h.history]
      exact hold
  | resume _ _ _ h | save _ h | exit _ _ h | queue _ _ _ h | create _ _ _ _ _ _ _ _ _ h =>
      rw [h.history]
      exact ⟨flushComplete_of_not_flushed (fun _ => Note.noConfusion), hold⟩
  | handle _ _ h =>
      rw [h.history]
      exact everywhere_handleNotes hold
        (flushComplete_of_not_flushed (fun _ => Note.noConfusion))
        (flushComplete_of_not_flushed (fun _ => Note.noConfusion))
  | flushed hdone h =>
      rw [h.history]
      refine ⟨?_, hold⟩
      intro pid heq
      cases heq
      rcases hdone with hempty | hdied | ⟨hmay, -⟩
      · left
        have hpending : k.current.pending = [] := (pending_eq_nil_iff _).mpr hempty
        have hfifo := (hinv.log k.currentTask).fifo
        unfold Kernel.current at hpending
        rw [hpending, List.append_nil] at hfifo
        exact hfifo
      · exact Or.inr (Or.inl hdied)
      · exact Or.inr (Or.inr hmay)

theorem action_queuesInv
    (hinv : QueuesInv mayExit k)
    (h : Action mayExit k k') :
    QueuesInv mayExit k' :=
  ⟨fun pid => (hinv.log pid).move (action_slotMove h pid), action_inOrder hinv h,
    action_complete hinv h⟩

/-- All queues are empty in zeroed memory. -/
theorem zero_queuesInv : QueuesInv mayExit Kernel.zero := by
  refine ⟨fun pid => ⟨⟨?_, ?_, ?_, ?_⟩, rfl, rfl⟩, trivial, trivial⟩
  · exact Nat.zero_le _
  · exact Nat.zero_lt_succ _
  · exact Nat.zero_lt_succ _
  · rfl

theorem queuesInv_of_run {img : Image} {regs : IntRegs} {es : List Event}
    (hexit : ∀ e ∈ es, e.IsExit → mayExit)
    (h : RunFromBoot img regs es k) :
    QueuesInv mayExit k :=
  actions_invariant (fun _ _ => action_queuesInv) zero_queuesInv (actions_of_run hexit h)

/-- The queues stay well formed in the middle of a reaction. -/
theorem Reachable.queueValid
    (h : Reachable k)
    (hacts : Actions True k k')
    (pid : Nat) :
    (k'.tasks pid).QueueValid := by
  have hinv : QueuesInv True k' :=
    actions_invariant (fun _ _ => action_queuesInv) zero_queuesInv (h.actions.trans hacts)
  exact (hinv.log pid).valid

end Preservation

/-- **The signal queue of every slot refines a bounded FIFO queue.** -/
theorem signal_queue_refines_fifo (img : Image) (regs : IntRegs) (es : List Event)
    (k : Kernel) (pid : Nat)
    (hrun : RunFromBoot img regs es k)
    (hexit : ∀ e ∈ es, ¬ e.IsExit) :
    -- the indices of the queue
    ((k.tasks pid).signalsSize ≤ taskSigCap - 1 ∧
      (k.tasks pid).signalsReadHead < taskSigCap ∧
      (k.tasks pid).signalsWriteHead < taskSigCap ∧
      (k.tasks pid).signalsWriteHead =
        ((k.tasks pid).signalsReadHead + (k.tasks pid).signalsSize) % taskSigCap) ∧
    -- what was accepted for this task is what was handled, then what is pending
    acceptedSince pid k.history = handledSince pid k.history ++ (k.tasks pid).pending ∧
    -- each handled signal is the oldest one accepted and not handled yet
    (∀ later sig earlier, k.history = later ++ .handled pid sig :: earlier →
      ∃ rest, acceptedSince pid earlier = handledSince pid earlier ++ sig :: rest) ∧
    -- a flush leaves nothing pending unless the task has just died
    (∀ later earlier, k.history = later ++ .flushed pid :: earlier →
      acceptedSince pid earlier = handledSince pid earlier ∨
      ∃ before, earlier = .died pid :: before) ∧
    -- the pause flag follows the handled signals
    (k.tasks pid).paused = pausedAfter false (handledSince pid k.history) := by
  have hinv : QueuesInv False k := queuesInv_of_run hexit hrun
  obtain ⟨hvalid, hfifo, hpaused⟩ := hinv.log pid
  refine ⟨⟨hvalid.size_le, hvalid.read_lt, hvalid.write_lt, hvalid.write_eq⟩, hfifo,
    ?_, ?_, hpaused⟩
  · intro later sig earlier heq
    exact everywhere_iff.mp hinv.inOrder later _ earlier heq pid sig rfl
  · intro later earlier heq
    rcases everywhere_iff.mp hinv.complete later _ earlier heq pid rfl with hdone | hdied | hf
    · exact Or.inl hdone
    · exact Or.inr hdied
    · exact hf.elim

/-- Init stops and continues task 1 and yields to it, which handles nothing yet. -/
theorem signal_queue_refines_fifo_sample :
    ∃ k, RunFromBoot Image.sample default
        [userCall 12 2 14, userCall 12 2 5, userCall 4 0 0, userCall 4 0 0] k ∧
      acceptedSince 1 k.history = [sigstop, sigcont] ∧
      handledSince 1 k.history = [sigstop, sigcont] ∧
      acceptedSince 1 k.history = handledSince 1 k.history ++ (k.tasks 1).pending := by
  obtain ⟨k, hrun, hcheck⟩ := exists_of_returnsWith
    (x := runFromBoot Image.sample default
      [userCall 12 2 14, userCall 12 2 5, userCall 4 0 0, userCall 4 0 0])
    (p := fun k => acceptedSince 1 k.history = [sigstop, sigcont] ∧
      handledSince 1 k.history = [sigstop, sigcont])
    (by decide +kernel)
  obtain ⟨-, hfifo, -⟩ := signal_queue_refines_fifo _ _ _ k 1 hrun (by decide)
  exact ⟨k, hrun, hcheck.1, hcheck.2, hfifo⟩

end Klyx
