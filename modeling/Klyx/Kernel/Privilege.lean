import Klyx.Kernel.SignalQueue
import Klyx.Kernel.UserMemory

/-!
# Privilege is monotone and confines signals

`KeepsCredentials`: a task with a nonzero user number keeps its user and group
numbers as long as its slot is not filled again.

`syscall_notExtended`: a system call of such a task never extends the queue of a
task of another user.  The call may switch tasks, and the scan then takes
signals from the queues of paused tasks, so these queues may become shorter.

Both hold of calls with their buffers outside the kernel's memory; the pointer
of `time` and `tty_read` may also be the address of `uid` in a task structure.
-/

namespace Klyx

open HaltingRun

/-- The slot was not filled again since, or its task keeps its credentials. -/
def KeepsCredentials (pid : Nat) (k k' : Kernel) : Prop :=
  ∃ notes, k'.history = notes ++ k.history ∧
    ((∀ regs, Note.created pid regs ∉ notes) → (k.tasks pid).uid ≠ 0 →
      (k'.tasks pid).uid = (k.tasks pid).uid ∧ (k'.tasks pid).gid = (k.tasks pid).gid)

section Credentials

variable {mayExit : Prop} {pid : Nat} {k k' k'' : Kernel}

theorem KeepsCredentials.refl (pid : Nat) (k : Kernel) :
    KeepsCredentials pid k k :=
  ⟨[], rfl, fun _ _ => ⟨rfl, rfl⟩⟩

theorem KeepsCredentials.trans
    (h₁ : KeepsCredentials pid k k')
    (h₂ : KeepsCredentials pid k' k'') :
    KeepsCredentials pid k k'' := by
  obtain ⟨notes₁, hhist₁, hkeep₁⟩ := h₁
  obtain ⟨notes₂, hhist₂, hkeep₂⟩ := h₂
  refine ⟨notes₂ ++ notes₁, by rw [hhist₂, hhist₁, List.append_assoc], ?_⟩
  intro hnone huid
  have hnone₁ : ∀ regs, Note.created pid regs ∉ notes₁ :=
    fun regs hmem => hnone regs (List.mem_append_right _ hmem)
  have hnone₂ : ∀ regs, Note.created pid regs ∉ notes₂ :=
    fun regs hmem => hnone regs (List.mem_append_left _ hmem)
  obtain ⟨huid₁, hgid₁⟩ := hkeep₁ hnone₁ huid
  have huid' : (k'.tasks pid).uid ≠ 0 := by
    rw [huid₁]
    exact huid
  obtain ⟨huid₂, hgid₂⟩ := hkeep₂ hnone₂ huid'
  exact ⟨huid₂.trans huid₁, hgid₂.trans hgid₁⟩

/-- Every move of a slot respects the credentials of its task. -/
theorem slotMove_keepsCredentials {h h' : List Note} {t t' : Task} {c c' : Nat}
    (hmove : SlotMove mayExit pid h t c h' t' c') :
    ∃ notes, h' = notes ++ h ∧
      ((∀ regs, Note.created pid regs ∉ notes) → t.uid ≠ 0 →
        t'.uid = t.uid ∧ t'.gid = t.gid) := by
  cases hmove with
  | other notes =>
      exact ⟨notes, rfl, fun _ _ => ⟨rfl, rfl⟩⟩
  | save | flushed | resume | queue | exit =>
      exact ⟨[_], rfl, fun _ _ => ⟨rfl, rfl⟩⟩
  | handle =>
      exact ⟨_, rfl, fun _ _ => ⟨handleFront_uid _, handleFront_gid _⟩⟩
  | create =>
      exact ⟨[_], rfl, fun hnone _ => absurd (List.mem_singleton.mpr rfl) (hnone _)⟩
  | setuid _ hroot | setgid _ hroot =>
      exact ⟨[], rfl, fun _ huid => absurd hroot huid⟩

theorem actions_keepsCredentials
    (h : Actions mayExit k k') :
    KeepsCredentials pid k k' := by
  induction h with
  | refl =>
      exact .refl pid k
  | tail _ hlast ih =>
      exact ih.trans (slotMove_keepsCredentials (action_slotMove hlast pid))

/-- A run from a reachable state respects credentials. -/
theorem run_keepsCredentials {es : List Event}
    (hinv : SchedInv k)
    (h : run step k es = .ok k') :
    KeepsCredentials pid k k' := by
  refine run_relation step (KeepsCredentials.refl pid) KeepsCredentials.trans ?_ hinv h
  intro e _ s s' hinv hstep
  exact ⟨step_schedInv hinv hstep, actions_keepsCredentials
    (reaction_actions hinv.runnable.1 (step_cases hinv.tasking hstep))⟩

end Credentials

section Confinement

/-- Flushing a task only removes signals from its queue. -/
theorem flushed_pending_suffix {t : Task}
    (hq : t.QueueValid) :
    t.flushed.pending <:+ t.pending := by
  revert hq
  refine flushed_induction
    (P := fun t r => t.QueueValid → r.pending <:+ t.pending) (fun _ _ _ => List.suffix_rfl) ?_ t
  intro t r hdel ih hq
  rw [pending_eq_cons hq hdel.1]
  exact (ih (handleFront_queueValid hq hdel.1)).trans (List.suffix_cons _ _)

/-- A queue that was not extended: no cell written, the write head not moved,
and nothing pending that was not pending before. -/
structure NotExtended (t t' : Task) : Prop where
  signals : t'.signals = t.signals
  signalsWriteHead : t'.signalsWriteHead = t.signalsWriteHead
  pending : t'.pending <:+ t.pending

/-- A system call of a task that is not root extends no queue of another user. -/
theorem syscall_notExtended {e : Event} {k k' : Kernel} {q : Nat}
    (h : Reaction e k k')
    (hcall : e.IsSyscall)
    (hq : (k.tasks q).QueueValid)
    (huser : k.current.uid ≠ 0)
    (hother : q ≠ k.currentTask)
    (huid : (k.tasks q).uid ≠ k.current.uid) :
    NotExtended (k.tasks q) (k'.tasks q) := by
  have hbystander := reaction_bystander hother h
  generalize k'.tasks q = t at hbystander
  cases hbystander with
  | same =>
      exact ⟨rfl, rfl, List.suffix_rfl⟩
  | flushed =>
      exact ⟨flushed_signals _, flushed_signalsWriteHead _, flushed_pending_suffix hq⟩
  | signalled sig hallowed =>
      rcases hallowed hcall with hroot | hsame
      · exact absurd hroot huser
      · exact absurd hsame.symm huid
  | created t hevent _ =>
      exact absurd hcall hevent

end Confinement

/-- **Privilege is monotone, and it confines signals**, in runs of calls with their
buffers outside the kernel's memory. -/
theorem privilege_monotone_and_confined (L : Layout) (compiled : CompileTime) (img : Image)
    (regs : IntRegs) (es : List UserEvent) (k : Kernel)
    (houtside : ∀ e ∈ es, e.BufferOutside L)
    (h : userRunFromBoot L compiled img regs es = .ok k) :
    -- a task that is not root keeps its credentials until its slot is filled again
    (∀ es' k' pid, (∀ e ∈ es', e.BufferOutside L) →
      run (userStep L compiled) k es' = .ok k' →
      ∃ notes, k'.history = notes ++ k.history ∧
        ((∀ regs, Note.created pid regs ∉ notes) → (k.tasks pid).uid ≠ 0 →
          (k'.tasks pid).uid = (k.tasks pid).uid ∧
          (k'.tasks pid).gid = (k.tasks pid).gid)) ∧
    -- and none of its system calls extends a queue of another user
    (∀ e k' q, e.event.IsSyscall → e.BufferOutside L → userStep L compiled k e = .ok k' →
      k.current.uid ≠ 0 → q ≠ k.currentTask → (k.tasks q).uid ≠ k.current.uid →
      NotExtended (k.tasks q) (k'.tasks q)) := by
  have hreach := reachable_of_userRun houtside h
  have hinv := hreach.schedInv
  constructor
  · intro es' k' pid houtside' hrun
    exact run_keepsCredentials hinv (run_of_userRun houtside' hrun)
  · intro e k' q hcall hbuffer hstep huser hother huid
    exact syscall_notExtended (step_cases hinv.tasking (step_of_userStep hbuffer hstep)) hcall
      (hreach.queueValid .refl q) huser hother huid

/-- Task 1 becomes user 7; no call of it with a buffer outside the kernel's memory
signals init. -/
theorem privilege_monotone_and_confined_sample :
    ∃ k, userRunFromBoot Layout.sample CompileTime.sample Image.sample default
        [callWithStores 4 0 0, callWithStores 7 7 0] = .ok k ∧
      (k.tasks 1).uid = 7 ∧
      (∀ e k', e.event.IsSyscall → e.BufferOutside Layout.sample →
        userStep Layout.sample CompileTime.sample k e = .ok k' →
        NotExtended (k.tasks 0) (k'.tasks 0)) := by
  obtain ⟨k, hrun, huid, hcur, huser, hinit⟩ := exists_of_returnsWith
    (x := userRunFromBoot Layout.sample CompileTime.sample Image.sample default
      [callWithStores 4 0 0, callWithStores 7 7 0])
    (p := fun k => (k.tasks 1).uid = 7 ∧ 0 ≠ k.currentTask ∧ k.current.uid ≠ 0 ∧
      (k.tasks 0).uid ≠ k.current.uid)
    (by decide +kernel)
  obtain ⟨-, hconfined⟩ := privilege_monotone_and_confined _ _ _ _ _ k (by decide +kernel) hrun
  exact ⟨k, hrun, huid,
    fun e k' hcall hbuffer hstep => hconfined e k' 0 hcall hbuffer hstep huser hcur hinit⟩

/-- Init becomes user 7 and asks for the time at the address of its `uid`, which
is then the number of seconds since 1970. -/
theorem time_overwrites_uid :
    ∃ k k', userRunFromBoot Layout.sample CompileTime.sample Image.sample default
        [callWithStores 7 7 0] = .ok k ∧
      userStep Layout.sample CompileTime.sample k (callWithStores 6 0x5010C 0) = .ok k' ∧
      k'.history = k.history ∧
      (k.tasks 0).uid = 7 ∧
      (k'.tasks 0).uid = 1762948800 := by
  obtain ⟨k, hrun, huid, hcall⟩ := exists_of_returnsWith
    (x := userRunFromBoot Layout.sample CompileTime.sample Image.sample default
      [callWithStores 7 7 0])
    (p := fun k => (k.tasks 0).uid = 7 ∧
      returnsWith (userStep Layout.sample CompileTime.sample k (callWithStores 6 0x5010C 0))
        (fun k' => k'.history = k.history ∧ (k'.tasks 0).uid = 1762948800) = true)
    (by decide +kernel)
  obtain ⟨k', hstep, hhist, huid'⟩ := exists_of_returnsWith hcall
  exact ⟨k, k', hrun, hstep, hhist, huid, huid'⟩

end Klyx
