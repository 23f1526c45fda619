import Klyx.Kernel.KillSyscall
import Klyx.Kernel.UserTask

/-!
# Init's supervision of the terminals

`test_init` asks for three process numbers whether they are alive, and fills a
slot for each that is not.  It only yields, so no other task runs between a
check and the creation that follows from it.

The checks name fixed process numbers, but `sched_make_task` takes the first
free slot.  The two agree as long as the task of terminal 1, which init does
not check, is alive whenever init replaces a task in a later slot.  Without it
the replacement lands in slot 2, the checked slot stays free, and the next
round of the loop starts a second task on the same terminal.
-/

namespace Klyx

open HaltingRun

/-- The process numbers that `test_init` checks. -/
inductive Check where
  | pid2
  | pid4
  | pid5
deriving DecidableEq

/-- The argument of `kill`. -/
def Check.pid : Check → Word
  | .pid2 => 2
  | .pid4 => 4
  | .pid5 => 5

/-- The slot of the process. -/
def Check.slot : Check → Nat
  | .pid2 => 1
  | .pid4 => 3
  | .pid5 => 4

/-- The terminal of the task that is started instead. -/
def Check.tty : Check → Word
  | .pid2 => 0
  | .pid4 => 2
  | .pid5 => 3

/-- The program of the task that is started instead. -/
def Check.program (img : Image) : Check → Word
  | .pid2 => img.testA
  | .pid4 => img.testA
  | .pid5 => img.testC

/-- The next statement of `test_init`. -/
inductive InitPoint where
  | kill (c : Check)
  | make (c : Check)
  | yield
deriving DecidableEq

/-- The statement after an `if` of `test_init`. -/
def Check.next : Check → InitPoint
  | .pid2 => .kill .pid4
  | .pid4 => .kill .pid5
  | .pid5 => .yield

/-- The registers of `kill(pid, 0)`. -/
def Check.call (c : Check) (regs : IntRegs) : IntRegs :=
  { regs with eax := 12, ebx := c.pid, ecx := 0 }

/-- `test_init`, one statement at a time. -/
def testInit (img : Image) (regs : IntRegs) (k : Kernel) : InitPoint → Exec (Kernel × InitPoint)
  | .kill c =>
      (syscallHandlerImpl k (c.call regs) 0).map
        (fun r => (r.1, if r.2.eax ≠ 0 then .make c else c.next))
  | .make c =>
      .ok ((schedMakeTask k (c.program img) c.tty 0 0 0x08 0x10 false).1, c.next)
  | .yield =>
      (syscallHandlerImpl k { regs with eax := 4 } 0).map (fun r => (r.1, .kill .pid2))

/-- No two live tasks other than init are attached to the same terminal. -/
def OneTaskPerTty (k : Kernel) : Prop :=
  ∀ p q, p ≠ 0 → q ≠ 0 → (k.tasks p).status ≠ .dead → (k.tasks q).status ≠ .dead →
    (k.tasks p).tty = (k.tasks q).tty → p = q

/-- The task of terminal 1 is alive when init replaces a task of a later slot. -/
def KeepsTestB (s : Kernel × Option InitPoint) : Turn → Prop
  | .own _ => s.1.currentTask = 0 → s.2 = some (.make .pid4) ∨ s.2 = some (.make .pid5) →
      (s.1.tasks 2).status ≠ .dead
  | .other _ => True

instance (s : Kernel × Option InitPoint) (t : Turn) : Decidable (KeepsTestB s t) :=
  match t with
  | .own _ => inferInstanceAs (Decidable (_ → _ → _))
  | .other _ => .isTrue trivial

/-- The terminal of the task that `kernel_start` puts in a slot. -/
def homeTty : Nat → Option Word
  | 1 => some 0
  | 2 => some 1
  | 3 => some 2
  | 4 => some 3
  | _ => none

/-- The checks that a round of the loop has passed. -/
def InitPoint.passed : InitPoint → List Check
  | .kill .pid2 | .make .pid2 => []
  | .kill .pid4 | .make .pid4 => [.pid2]
  | .kill .pid5 | .make .pid5 => [.pid2, .pid4]
  | .yield => [.pid2, .pid4, .pid5]

/-- The invariant of init's supervision. -/
structure Supervised (k : Kernel) (point : InitPoint) : Prop where
  sched : SchedInv k
  yieldOnly : (k.tasks 0).yieldOnly = true
  home : ∀ pid, pid ≠ 0 → (k.tasks pid).status ≠ .dead → homeTty pid = some (k.tasks pid).tty
  resting : k.currentTask ≠ 0 → point = .kill .pid2
  missing : k.currentTask = 0 → ∀ c, point = .make c → (k.tasks c.slot).status = .dead
  respawned : k.currentTask = 0 → ∀ c ∈ point.passed, (k.tasks c.slot).status ≠ .dead

theorem eq_of_homeTty {pid : Nat} {tty : Word}
    (h : homeTty pid = some tty) :
    pid = tty.toNat + 1 := by
  unfold homeTty at h
  split at h
  · cases h
    rfl
  · cases h
    rfl
  · cases h
    rfl
  · cases h
    rfl
  · cases h

theorem Supervised.oneTaskPerTty {k : Kernel} {point : InitPoint}
    (h : Supervised k point) :
    OneTaskPerTty k := by
  intro p q hp hq hplive hqlive htty
  rw [eq_of_homeTty (h.home p hp hplive), eq_of_homeTty (h.home q hq hqlive), htty]

section Statements

variable {img : Image} {regs : IntRegs} {k k' : Kernel} {c : Check} {point : InitPoint}

theorem killTarget_check :
    killTarget (c.call regs) = c.slot := by
  change (c.pid - 1).toNat = c.slot
  cases c <;> decide

/-- The check finds out whether the slot is free and changes nothing. -/
theorem testInit_kill :
    testInit img regs k (.kill c) =
      .ok (k, if (k.tasks c.slot).status = .dead then .make c else c.next) := by
  have hcall : testInit img regs k (.kill c) =
      (syscallHandlerImpl k (c.call regs) 0).map
        (fun r => (r.1, if r.2.eax ≠ 0 then .make c else c.next)) := rfl
  rw [hcall, syscallHandlerImpl_kill rfl]
  by_cases hdead : (k.tasks c.slot).status = .dead
  · have hrefused : ¬ KillValid k (c.call regs) := by
      rintro ⟨-, hlive, -⟩
      rw [killTarget_check] at hlive
      exact hlive hdead
    rw [sysKill_refused (Or.inl hrefused)]
    simp [Except.map, hdead]
  · have hvalid : KillValid k (c.call regs) := by
      refine ⟨?_, ?_, Nat.zero_lt_succ _⟩
      · rw [killTarget_check]
        cases c <;> decide
      · rw [killTarget_check]
        exact hdead
    rw [sysKill_probe hvalid rfl]
    simp [Except.map, hdead]

/-- A replaced task lands in the slot that was checked, because all the slots
before it are taken. -/
theorem Supervised.firstFree
    (h : Supervised k (.make c))
    (hcur : k.currentTask = 0)
    (hkeeps : c ≠ .pid2 → (k.tasks 2).status ≠ .dead)
    {pid : Nat}
    (hfree : FirstFree k pid) :
    pid = c.slot := by
  have hle : pid ≤ c.slot := by
    by_contra hlt
    exact hfree.first c.slot (by omega) (h.missing hcur c rfl)
  have htaken : ∀ q, q < c.slot → (k.tasks q).status ≠ .dead := by
    intro q hq
    have hpassed := h.respawned hcur
    cases c with
    | pid2 =>
        obtain rfl : q = 0 := by
          simp only [Check.slot] at hq
          omega
        exact h.sched.init_live
    | pid4 =>
        obtain rfl | rfl | rfl : q = 0 ∨ q = 1 ∨ q = 2 := by
          simp only [Check.slot] at hq
          omega
        · exact h.sched.init_live
        · exact hpassed .pid2 (by simp [InitPoint.passed])
        · exact hkeeps (by simp)
    | pid5 =>
        obtain rfl | rfl | rfl | rfl : q = 0 ∨ q = 1 ∨ q = 2 ∨ q = 3 := by
          simp only [Check.slot] at hq
          omega
        · exact h.sched.init_live
        · exact hpassed .pid2 (by simp [InitPoint.passed])
        · exact hkeeps (by simp)
        · exact hpassed .pid4 (by simp [InitPoint.passed])
  by_contra hne
  exact htaken pid (by omega) hfree.dead

/-- What is passed after an `if` of the loop. -/
theorem mem_passed_next {d : Check} :
    d ∈ c.next.passed ↔ d = c ∨ d ∈ (InitPoint.kill c).passed := by
  revert c d
  unfold Check.next InitPoint.passed
  intro c d
  cases c <;> cases d <;> simp

/-- The statements of the loop keep the invariant. -/
theorem Supervised.kill
    (h : Supervised k (.kill c))
    (hcur : k.currentTask = 0)
    (hact : testInit img regs k (.kill c) = .ok (k', point)) :
    Supervised k' point := by
  rw [testInit_kill] at hact
  obtain ⟨rfl, rfl⟩ := Prod.mk.inj (Except.ok.inj hact)
  refine ⟨h.sched, h.yieldOnly, h.home, fun hrest => absurd hcur hrest, ?_, ?_⟩
  · intro _ d hd
    split at hd
    · rename_i hdead
      cases hd
      exact hdead
    · cases c <;> cases hd
  · intro _ d hd
    split at hd
    · refine h.respawned hcur d ?_
      cases c <;> exact hd
    · rename_i hlive
      rcases mem_passed_next.mp hd with rfl | hd
      · exact hlive
      · exact h.respawned hcur d hd

theorem Supervised.make
    (h : Supervised k (.make c))
    (hcur : k.currentTask = 0)
    (hkeeps : c ≠ .pid2 → (k.tasks 2).status ≠ .dead)
    (hact : testInit img regs k (.make c) = .ok (k', point)) :
    Supervised k' point := by
  have hstep : step k (.makeTask (c.program img) c.tty 0 0 0x08 0x10 false) =
      .ok (schedMakeTask k (c.program img) c.tty 0 0 0x08 0x10 false).1 := rfl
  obtain ⟨rfl, rfl⟩ := Prod.mk.inj (Except.ok.inj hact)
  have hsched := step_schedInv h.sched hstep
  have hdead := h.missing hcur c rfl
  have hslot : c.slot < tasksCap := by
    cases c <;> decide
  rcases schedMakeTask_cases k (c.program img) c.tty 0 0 0x08 0x10 false with
    ⟨pid, hfree, hmade⟩ | ⟨hnone, -⟩
  · obtain rfl := h.firstFree hcur hkeeps hfree
    have hinit : (0 : Nat) ≠ c.slot := by
      cases c <;> decide
    rw [hmade] at hsched ⊢
    refine ⟨hsched, ?_, ?_, fun hrest => absurd hcur hrest, ?_, ?_⟩
    · rw [Kernel.note_tasks, Kernel.setTask_tasks, Function.update_of_ne hinit]
      exact h.yieldOnly
    · intro pid hpid
      rw [Kernel.note_tasks, Kernel.setTask_tasks]
      refine update_slot
        (P := fun t => t.status ≠ .dead → homeTty pid = some t.tty) (fun _ => h.home pid hpid) ?_
      rintro rfl _
      cases c <;> rfl
    · intro _ d hd
      cases c <;> cases hd
    · intro _ d hd
      rw [Kernel.note_tasks, Kernel.setTask_tasks]
      refine update_slot (P := fun t => t.status ≠ .dead) ?_ ?_
      · intro hne
        rcases mem_passed_next.mp hd with rfl | hd
        · exact absurd rfl hne
        · refine h.respawned hcur d ?_
          cases c <;> exact hd
      · intro _
        exact (freshTask_runnable _ _ _ _ _ _ _ _).1
  · exact absurd hdead (hnone c.slot hslot)

/-- An event that fills no slot keeps the tasks at their terminals. -/
theorem Supervised.elsewhere {e : Event}
    (h : Supervised k point)
    (hmake : ¬ e.IsMakeTask)
    (hstep : step k e = .ok k') :
    Supervised k' (.kill .pid2) := by
  have hkept := step_kept h.sched.tasking hmake hstep
  refine ⟨step_schedInv h.sched hstep, ?_, ?_, fun _ => rfl, ?_, ?_⟩
  · rw [(hkept 0).yieldOnly]
    exact h.yieldOnly
  · intro pid hpid hlive
    rw [(hkept pid).tty]
    exact h.home pid hpid (fun hdead => hlive ((hkept pid).dead hdead))
  · intro _ d hd
    cases hd
  · intro _ d hd
    cases hd

theorem Supervised.yield
    (h : Supervised k .yield)
    (hact : testInit img regs k .yield = .ok (k', point)) :
    Supervised k' point := by
  obtain ⟨⟨k₁, regs'⟩, hcall, heq⟩ := map_eq_ok.mp hact
  obtain ⟨rfl, rfl⟩ := Prod.mk.inj heq
  have hstep : step k (.syscall { regs with eax := 4 } 0) = .ok k₁ :=
    map_eq_ok.mpr ⟨_, hcall, rfl⟩
  exact h.elsewhere id hstep

/-- The invariant while init runs its loop. -/
def SupervisedRun (s : Kernel × Option InitPoint) : Prop :=
  ∃ point, s.2 = some point ∧ Supervised s.1 point

/-- Every turn that meets the condition keeps the invariant. -/
theorem takeTurn_supervised {t : Turn} {next : Kernel × Option InitPoint}
    (hothers : ∀ e, t = .other e → ¬ e.IsMakeTask)
    (h : Supervised k point)
    (hkeeps : KeepsTestB (k, some point) t)
    (hturn : takeTurn 0 (testInit img) (k, some point) t = .ok next) :
    SupervisedRun next := by
  have hsurvives : ∀ {k' : Kernel} {point' : InitPoint}, Supervised k' point' →
      SupervisedRun (k', k'.surviving 0 point') :=
    fun h' => ⟨_, surviving_of_live h'.sched.init_live, h'⟩
  cases takeTurn_cases hturn with
  | idle =>
      exact ⟨point, rfl, h⟩
  | own regs k' point' hcur hact =>
      refine hsurvives ?_
      cases point with
      | kill c =>
          exact h.kill hcur hact
      | make c =>
          refine h.make hcur ?_ hact
          intro hc
          refine hkeeps hcur ?_
          cases c with
          | pid2 =>
              exact absurd rfl hc
          | pid4 =>
              exact Or.inl rfl
          | pid5 =>
              exact Or.inr rfl
      | yield =>
          exact h.yield hact
  | other e k' hallowed hstep =>
      refine hsurvives ?_
      by_cases hcur : k.currentTask = 0
      · -- init only yields, so a timer tick leaves it running
        have hyield : k.current.yieldOnly = true := by
          rw [Kernel.current, hcur]
          exact h.yieldOnly
        rw [step_timer_yieldOnly hyield (hallowed hcur) hstep]
        exact h
      · rw [h.resting hcur]
        exact h.elsewhere (hothers e rfl) hstep

end Statements

section Boot

/-- The first `n` slots are filled, with tasks at their terminals. -/
structure Filled (n : Nat) (k : Kernel) : Prop where
  live : ∀ q, q < n → (k.tasks q).status ≠ .dead
  free : ∀ q, n ≤ q → (k.tasks q).status = .dead
  home : ∀ pid, pid ≠ 0 → (k.tasks pid).status ≠ .dead → homeTty pid = some (k.tasks pid).tty

theorem filled_zero : Filled 0 Kernel.zero :=
  ⟨fun q hq => absurd hq (Nat.not_lt_zero q), fun _ _ => rfl, fun _ _ hlive => absurd rfl hlive⟩

/-- Each call of `sched_make_task` fills the next slot. -/
theorem Filled.make {n : Nat} {k : Kernel}
    (h : Filled n k)
    (tty : Word)
    (hn : n < tasksCap)
    (htty : n ≠ 0 → homeTty n = some tty)
    (eip fs gs cs genericSegment : Word)
    (yieldOnly : Bool) :
    Filled (n + 1) (schedMakeTask k eip tty fs gs cs genericSegment yieldOnly).1 := by
  rcases schedMakeTask_cases k eip tty fs gs cs genericSegment yieldOnly with
    ⟨pid, hfree, hmade⟩ | ⟨hnone, -⟩
  · have hpid : pid = n := by
      have hge : ¬ pid < n := fun hlt => h.live pid hlt hfree.dead
      have hle : ¬ n < pid := fun hlt => hfree.first n hlt (h.free n le_rfl)
      omega
    subst hpid
    rw [hmade]
    refine ⟨?_, ?_, ?_⟩
    · intro q hq
      refine update_slot (P := fun t => t.status ≠ .dead) ?_ ?_
      · intro hne
        exact h.live q (by omega)
      · intro _
        exact (freshTask_runnable _ _ _ _ _ _ _ _).1
    · intro q hq
      rw [Kernel.note_tasks, Kernel.setTask_tasks, Function.update_of_ne (by omega)]
      exact h.free q (by omega)
    · intro q hq
      refine update_slot
        (P := fun t => t.status ≠ .dead → homeTty q = some t.tty) (fun _ => h.home q hq) ?_
      rintro rfl _
      exact htty hq
  · exact absurd (h.free n le_rfl) (hnone n hn)

theorem filled_bootTasks (img : Image) :
    Filled 5 (bootTasks img) := by
  have h1 := filled_zero.make 0 (by decide) (fun h => absurd rfl h)
    img.testInit 0 0 0x08 0x10 true
  have h2 := h1.make 0 (by decide) (fun _ => rfl) img.testA 0 0 0x08 0x10 false
  have h3 := h2.make 1 (by decide) (fun _ => rfl) img.testB 0 0 0x08 0x10 false
  have h4 := h3.make 2 (by decide) (fun _ => rfl) img.testA 0 0 0x08 0x10 false
  exact h4.make 3 (by decide) (fun _ => rfl) img.testC 0 0 0x08 0x10 false

theorem started_resume_tasks (k : Kernel) :
    k.started.resume.tasks = k.tasks := rfl

/-- Init's supervision starts well. -/
theorem supervised_of_kernelStart {img : Image} {regs regs' : IntRegs} {k : Kernel}
    (h : kernelStart img regs = .ok (k, regs')) :
    Supervised k (.kill .pid2) := by
  refine ⟨kernelStart_schedInv h, ?_, ?_, fun _ => rfl, ?_, ?_⟩
  · rw [eq_of_kernelStart h, started_resume_tasks, bootTasks_init]
    rfl
  · rw [eq_of_kernelStart h, started_resume_tasks]
    exact (filled_bootTasks img).home
  · intro _ d hd
    cases hd
  · intro _ d hd
    cases hd

end Boot

/-- **Init keeps one task per terminal as long as the task of terminal 1 lives
whenever a later one is replaced.** -/
theorem one_task_per_tty (img : Image) (regs regs' : IntRegs) (k₀ k : Kernel) (ts : List Turn)
    (point : Option InitPoint)
    (hstart : kernelStart img regs = .ok (k₀, regs'))
    (hothers : ∀ e, .other e ∈ ts → ¬ e.IsMakeTask)
    (hkeeps : Throughout (takeTurn 0 (testInit img)) KeepsTestB (k₀, some (.kill .pid2)) ts)
    (hrun : run (takeTurn 0 (testInit img)) (k₀, some (.kill .pid2)) ts = .ok (k, point)) :
    OneTaskPerTty k := by
  have hinv : SupervisedRun (k, point) := by
    refine run_invariant_throughout (takeTurn 0 (testInit img)) ?_
      ⟨_, rfl, supervised_of_kernelStart hstart⟩ hkeeps hrun
    rintro t ht ⟨k, _⟩ next ⟨p, rfl, hsup⟩ hcond hturn
    refine takeTurn_supervised ?_ hsup hcond hturn
    rintro e rfl
    exact hothers e ht
  obtain ⟨p, -, hsup⟩ := hinv
  exact hsup.oneTaskPerTty

/-- Init finds its five tasks alive and yields, task 1 exits, and the others
yield until init replaces it. -/
theorem one_task_per_tty_sample :
    ∃ k₀ regs k point, kernelStart Image.sample default = .ok (k₀, regs) ∧
      run (takeTurn 0 (testInit Image.sample)) (k₀, some (.kill .pid2))
        [.own default, .own default, .own default, .own default, .other (userCall 1 0 0),
          .other (userCall 4 0 0), .other (userCall 4 0 0), .other (userCall 4 0 0),
          .own default, .own default] = .ok (k, point) ∧
      OneTaskPerTty k := by
  obtain ⟨⟨k, point⟩, hrun, -⟩ := exists_of_returnsWith
    (x := run (takeTurn 0 (testInit Image.sample))
      ((bootTasks Image.sample).started.resume, some (.kill .pid2))
      [.own default, .own default, .own default, .own default, .other (userCall 1 0 0),
        .other (userCall 4 0 0), .other (userCall 4 0 0), .other (userCall 4 0 0),
        .own default, .own default])
    (p := fun _ => True) (by decide +kernel)
  refine ⟨_, _, k, point, kernelStart_eq _ _, hrun, ?_⟩
  refine one_task_per_tty _ _ _ _ k _ point (kernelStart_eq Image.sample default) ?_
    (by decide +kernel) hrun
  intro e he
  simp only [List.mem_cons, List.not_mem_nil, reduceCtorEq, false_or, or_false,
    Turn.other.injEq] at he
  rcases he with rfl | rfl | rfl | rfl <;> exact id

/-- Task 1 kills the task of terminal 1 and the shell of terminal 2 exits: init
replaces the shell twice. -/
theorem two_tasks_on_one_tty :
    ¬ ∀ img regs k₀ regs' k ts point, kernelStart img regs = .ok (k₀, regs') →
      (∀ e, .other e ∈ ts → ¬ e.IsMakeTask) →
      run (takeTurn 0 (testInit img)) (k₀, some (.kill .pid2)) ts = .ok (k, point) →
      OneTaskPerTty k := by
  intro hall
  obtain ⟨⟨k, point⟩, hrun, hlive₂, hlive₃, htty⟩ := exists_of_returnsWith
    (x := run (takeTurn 0 (testInit Image.sample))
      ((bootTasks Image.sample).started.resume, some (.kill .pid2))
      [.own default, .own default, .own default, .own default, .other (userCall 12 3 10),
        .other (userCall 4 0 0), .other (userCall 4 0 0), .other (userCall 1 0 0),
        .other (userCall 4 0 0), .own default, .own default, .own default, .own default,
        .own default, .other (userCall 4 0 0), .other (userCall 4 0 0), .other (userCall 4 0 0),
        .own default, .own default, .own default])
    (p := fun s => (s.1.tasks 2).status ≠ .dead ∧ (s.1.tasks 3).status ≠ .dead ∧
      (s.1.tasks 2).tty = (s.1.tasks 3).tty)
    (by decide +kernel)
  have hone : OneTaskPerTty k := by
    refine hall Image.sample default _ _ k _ point (kernelStart_eq _ _) ?_ hrun
    intro e he
    simp only [List.mem_cons, List.not_mem_nil, reduceCtorEq, false_or, or_false,
      Turn.other.injEq] at he
    rcases he with rfl | rfl | rfl | rfl | rfl | rfl | rfl | rfl <;> exact id
  exact absurd (hone 2 3 (by decide) (by decide) hlive₂ hlive₃ htty) (by decide)

end Klyx
