import Klyx.Kernel.BoundedWaiting
import Klyx.Kernel.Supervision
import Klyx.Lib.RankedRun

/-!
# Init restarts the programs of the terminals

`one_task_per_tty` says that init does not start too many programs.  It does not
start too few either: a slot that init checks does not stay free.  While another
task is running, each switch brings init nearer, and while init is running, each
of its statements brings the replacement nearer.  The rank `toGo` counts both.
-/

namespace Klyx

open HaltingRun CyclicScan RankedRun

/-- A switch while another task is running, or a statement of init. -/
def Turn.Counts (s : Kernel × Option InitPoint) : Turn → Prop
  | .own _ => s.1.currentTask = 0
  | .other e => s.1.currentTask ≠ 0 ∧ e.Switches s.1

instance (s : Kernel × Option InitPoint) (t : Turn) : Decidable (t.Counts s) :=
  match t with
  | .own _ => inferInstanceAs (Decidable (_ = _))
  | .other _ => inferInstanceAs (Decidable (_ ∧ _))

/-- How many statements init makes at most until it yields. -/
def InitPoint.left : InitPoint → Nat
  | .kill .pid2 => 6
  | .make .pid2 => 5
  | .kill .pid4 => 4
  | .make .pid4 => 3
  | .kill .pid5 => 2
  | .make .pid5 => 1
  | .yield => 0

/-- How many switches and statements of init go by at most until init yields. -/
def toGo (k : Kernel) (point : InitPoint) : Nat :=
  if k.currentTask = 0 then point.left else ahead tasksCap k.currentTask 0 + 1 + 6

section Turns

variable {img : Image} {k k' : Kernel} {c : Check} {point point' : InitPoint}

theorem left_le (point : InitPoint) :
    point.left ≤ 6 := by
  unfold InitPoint.left
  split <;> omega

theorem left_next (c : Check) :
    c.next.left + 1 = (InitPoint.make c).left := by
  cases c with
  | pid2 | pid4 | pid5 =>
      rfl

theorem left_make (c : Check) :
    (InitPoint.make c).left + 1 = (InitPoint.kill c).left := by
  cases c with
  | pid2 | pid4 | pid5 =>
      rfl

theorem toGo_le
    (point : InitPoint) :
    toGo k point ≤ tasksCap + 6 := by
  have hleft := left_le point
  have hahead : ahead tasksCap k.currentTask 0 < tasksCap := ahead_lt (by decide)
  unfold toGo
  split
  · omega
  · omega

/-- With a slot free that it checks, init does not come to yield, and each statement
leaves one less. -/
theorem testInit_left {regs : IntRegs}
    (h : Supervised k point)
    (hcur : k.currentTask = 0)
    (hdead : (k.tasks c.slot).status = .dead)
    (hact : testInit img regs k point = .ok (k', point')) :
    k'.currentTask = 0 ∧ point'.left + 1 ≤ point.left := by
  cases point with
  | kill d =>
      rw [testInit_kill] at hact
      obtain ⟨rfl, rfl⟩ := Prod.mk.inj (Except.ok.inj hact)
      refine ⟨hcur, ?_⟩
      have hmake := left_make d
      have hnext := left_next d
      split
      · omega
      · omega
  | make d =>
      obtain ⟨rfl, rfl⟩ := Prod.mk.inj (Except.ok.inj hact)
      exact ⟨by rw [schedMakeTask_currentTask, hcur], (left_next d).le⟩
  | yield =>
      refine absurd hdead (h.respawned hcur c ?_)
      cases c with
      | pid2 | pid4 | pid5 =>
          simp [InitPoint.passed]

/-- A switch from another task brings init nearer. -/
theorem step_nearer {e : Event}
    (hinv : SchedInv k)
    (hpaused : (k.tasks 0).paused = false)
    (hother : k.currentTask ≠ 0)
    (hswitches : e.Switches k)
    (h : step k e = .ok k') :
    toGo k' (.kill .pid2) + 1 ≤ toGo k point := by
  rcases step_switch hinv hswitches ⟨hinv.init_live, hpaused⟩ h with ⟨m, -, hnext, hskip⟩
  have hcur := hinv.currentTask_lt
  have hle : m ≤ ahead tasksCap k.currentTask 0 := by
    by_contra hpast
    exact hskip _ (Nat.lt_of_not_le hpast) (slotAfter_ahead hcur (by decide))
  rw [toGo, toGo, if_neg hother]
  rcases Nat.lt_or_eq_of_le hle with hbefore | hreached
  · have hnear := ahead_slotAfter hcur (by decide) hbefore
    rw [← hnext] at hnear
    split
    · have hleft := left_le (.kill .pid2)
      omega
    · omega
  · rw [hreached, slotAfter_ahead hcur (by decide)] at hnext
    have hleft := left_le (.kill .pid2)
    rw [if_pos hnext]
    omega

theorem eq_of_surviving
    (h : k.surviving 0 point = some point') :
    point' = point := by
  unfold Kernel.surviving at h
  split at h
  · cases h
  · cases h
    rfl

/-- No turn leads away from the replacement, and those that count lead towards it. -/
theorem takeTurn_toGo {t : Turn}
    (h : Supervised k point)
    (hpaused : (k.tasks 0).paused = false)
    (hdead : (k.tasks c.slot).status = .dead)
    (hturn : takeTurn 0 (testInit img) (k, some point) t = .ok (k', some point')) :
    toGo k' point' + (if t.Counts (k, some point) then 1 else 0) ≤ toGo k point := by
  cases t with
  | own regs =>
      by_cases hcur : k.currentTask = 0
      · have hcounts : Turn.Counts (k, some point) (.own regs) := hcur
        simp only [takeTurn, if_pos hcur] at hturn
        obtain ⟨⟨k₁, point₁⟩, hact, heq⟩ := map_eq_ok.mp hturn
        obtain ⟨rfl, hsurviving⟩ := Prod.mk.inj heq
        obtain rfl := eq_of_surviving hsurviving
        rcases testInit_left h hcur hdead hact with ⟨hcur', hleft⟩
        rw [if_pos hcounts, toGo, toGo, if_pos hcur, if_pos hcur']
        exact hleft
      · have hcounts : ¬ Turn.Counts (k, some point) (.own regs) := hcur
        simp only [takeTurn, if_neg hcur] at hturn
        cases hturn
        rw [if_neg hcounts]
        exact le_rfl
  | other e =>
      by_cases hcur : k.currentTask = 0
      · rw [if_neg (fun hcounts => hcounts.1 hcur)]
        by_cases hidle : k.currentTask = 0 ∧ ¬ e.IsTimer
        · simp only [takeTurn, if_pos hidle] at hturn
          cases hturn
          exact le_rfl
        · -- init only yields, so a timer tick leaves it running
          have hyield : k.current.yieldOnly = true := by
            rw [Kernel.current, hcur]
            exact h.yieldOnly
          have htimer : e.IsTimer := by
            by_contra hnot
            exact hidle ⟨hcur, hnot⟩
          simp only [takeTurn, if_neg hidle] at hturn
          obtain ⟨k₁, hstep, heq⟩ := map_eq_ok.mp hturn
          obtain ⟨rfl, hsurviving⟩ := Prod.mk.inj heq
          obtain rfl := eq_of_surviving hsurviving
          rw [step_timer_yieldOnly hyield htimer hstep]
          exact le_rfl
      · have hresting := h.resting hcur
        simp only [takeTurn, hcur, false_and, if_false] at hturn
        obtain ⟨k₁, hstep, heq⟩ := map_eq_ok.mp hturn
        obtain ⟨rfl, hsurviving⟩ := Prod.mk.inj heq
        obtain rfl := eq_of_surviving hsurviving
        by_cases hswitches : e.Switches k
        · rw [if_pos ⟨hcur, hswitches⟩, hresting]
          exact step_nearer h.sched hpaused hcur hswitches hstep
        · have hsame := currentTask_of_not_switches hswitches hstep
          rw [if_neg (fun hcounts => hswitches hcounts.2), toGo, toGo, hsame]
          exact le_rfl

end Turns

/-- The rank of a state: how much goes by until init yields. -/
def toGoFrom (s : Kernel × Option InitPoint) : Nat :=
  s.2.elim 0 (toGo s.1)

/-- With a slot free that init checks, the turns that count lower the rank. -/
theorem takeTurn_rank {img : Image} {c : Check} {t : Turn} {s s' : Kernel × Option InitPoint}
    (hothers : ∀ e, t = .other e → ¬ e.IsMakeTask)
    (h : SupervisedRun s)
    (hkeeps : KeepsTestB s t)
    (hpaused : (s.1.tasks 0).paused = false)
    (hdead : (s.1.tasks c.slot).status = .dead)
    (hturn : takeTurn 0 (testInit img) s t = .ok s') :
    SupervisedRun s' ∧ toGoFrom s' + (if t.Counts s then 1 else 0) ≤ toGoFrom s := by
  rcases s with ⟨k, _⟩
  rcases s' with ⟨k', _⟩
  rcases h with ⟨point, rfl, hsup⟩
  rcases takeTurn_supervised hothers hsup hkeeps hturn with ⟨point', rfl, hsup'⟩
  exact ⟨⟨point', rfl, hsup'⟩, takeTurn_toGo hsup hpaused hdead hturn⟩

/-- The invariant of init's supervision holds in every run from booting on. -/
theorem supervisedRun_of_run {img : Image} {regs regs' : IntRegs} {k₀ : Kernel} {ts : List Turn}
    {s : Kernel × Option InitPoint}
    (hstart : kernelStart img regs = .ok (k₀, regs'))
    (hothers : ∀ e, .other e ∈ ts → ¬ e.IsMakeTask)
    (hkeeps : Throughout (takeTurn 0 (testInit img)) KeepsTestB (k₀, some (.kill .pid2)) ts)
    (hrun : run (takeTurn 0 (testInit img)) (k₀, some (.kill .pid2)) ts = .ok s) :
    SupervisedRun s := by
  refine run_invariant_throughout (takeTurn 0 (testInit img)) ?_
    ⟨_, rfl, supervised_of_kernelStart hstart⟩ hkeeps hrun
  rintro t ht ⟨k, _⟩ next ⟨p, rfl, hsup⟩ hcond hturn
  refine takeTurn_supervised ?_ hsup hcond hturn
  rintro e rfl
  exact hothers e ht

/-- Init's system while nothing is sent to its tasks and the task of terminal 1 lives. -/
structure Peaceful (k : Kernel) (point : InitPoint) : Prop where
  supervised : Supervised k point
  quiet : Quiet k
  init : (k.tasks 0).paused = false
  testB : (k.tasks 2).status ≠ .dead

section Peaceful

variable {img : Image} {k k' : Kernel} {point point' : InitPoint} {regs regs' : IntRegs}

theorem Peaceful.keeps
    (h : Peaceful k point)
    (t : Turn) :
    KeepsTestB (k, some point) t := by
  cases t with
  | own regs =>
      exact fun _ _ => h.testB
  | other e =>
      exact trivial

theorem Peaceful.switch
    (h : Peaceful k point)
    (regs : IntRegs) :
    ∃ k' regs', schedNextTask k regs = .ok (k', regs') ∧ Quiet k' ∧
      (k'.tasks 0).paused = false ∧ (k'.tasks 2).status ≠ .dead := by
  have hcur := h.supervised.sched.currentTask_lt
  have hsome : runnableOrder k ≠ [] :=
    List.ne_nil_of_mem ((mem_members hcur).mpr ⟨hcur, h.supervised.sched.runnable⟩)
  rcases h.quiet.switch hcur hsome regs with ⟨k₁, m, k', regs', hcall, hswitched⟩
  have hsame := hswitched.sameButRegs h.quiet hcur
  refine ⟨k', regs', hcall, h.quiet.transfer (fun pid _ => hsame pid), ?_, ?_⟩
  · rcases hsame 0 with ⟨r, heq⟩
    rw [heq]
    exact h.init
  · rcases hsame 2 with ⟨r, heq⟩
    rw [heq]
    exact h.testB

/-- Every statement of init returns. -/
theorem Peaceful.own
    (h : Peaceful k point)
    (img : Image)
    (regs : IntRegs) :
    ∃ k' point', testInit img regs k point = .ok (k', point') ∧ Quiet k' ∧
      (k'.tasks 0).paused = false ∧ (k'.tasks 2).status ≠ .dead := by
  cases point with
  | kill c =>
      exact ⟨k, _, testInit_kill, h.quiet, h.init, h.testB⟩
  | make c =>
      refine ⟨_, _, rfl, ?_, ?_, ?_⟩
      · rcases schedMakeTask_cases k (c.program img) c.tty 0 0 0x08 0x10 false with
          ⟨pid, -, hmade⟩ | ⟨-, hmade⟩
        · rw [hmade]
          intro q hq
          exact update_slot (P := fun t => t.status ≠ .dead → t.signalsSize = 0)
            (fun _ => h.quiet q hq) (fun _ _ => rfl)
        · rw [hmade]
          exact h.quiet
      · rw [schedMakeTask_live _ _ _ _ _ _ _ h.supervised.sched.init_live]
        exact h.init
      · rw [schedMakeTask_live _ _ _ _ _ _ _ h.testB]
        exact h.testB
  | yield =>
      rcases h.switch { regs with eax := 4 } with ⟨k', regs', hcall, hkept⟩
      exact ⟨k', _, map_eq_ok.mpr ⟨_, hcall, rfl⟩, hkept⟩

/-- So does every turn that makes a statement of init or switches. -/
theorem Peaceful.turn {t : Turn}
    (h : Peaceful k point)
    (img : Image)
    (ht : t = .own regs ∨ t = .other (.nextTask regs)) :
    ∃ k' point', takeTurn 0 (testInit img) (k, some point) t = .ok (k', some point') ∧
      Peaceful k' point' := by
  have hothers : ∀ e, t = .other e → ¬ e.IsMakeTask := by
    rintro e rfl
    rcases ht with ht | ht
    · cases ht
    · cases ht
      exact id
  have hreturns : ∃ k' o, takeTurn 0 (testInit img) (k, some point) t = .ok (k', o) ∧ Quiet k' ∧
      (k'.tasks 0).paused = false ∧ (k'.tasks 2).status ≠ .dead := by
    by_cases hcur : k.currentTask = 0
    · rcases ht with rfl | rfl
      · rcases h.own img regs with ⟨k', point', hact, hkept⟩
        exact ⟨k', _, by simp only [takeTurn, if_pos hcur, hact]; rfl, hkept⟩
      · exact ⟨k, _, if_pos ⟨hcur, id⟩, h.quiet, h.init, h.testB⟩
    · rcases ht with rfl | rfl
      · exact ⟨k, _, if_neg hcur, h.quiet, h.init, h.testB⟩
      · rcases h.switch regs with ⟨k', regs', hcall, hkept⟩
        have hstep : step k (.nextTask regs) = .ok k' := map_eq_ok.mpr ⟨_, hcall, rfl⟩
        refine ⟨k', k'.surviving 0 point, ?_, hkept⟩
        simp only [takeTurn, hcur, false_and, if_false, hstep]
        rfl
  rcases hreturns with ⟨k', _, hturn, hquiet, hinit, htestB⟩
  rcases takeTurn_supervised hothers h.supervised (h.keeps t) hturn with ⟨point', rfl, hsup⟩
  exact ⟨k', point', hturn, hsup, hquiet, hinit, htestB⟩

/-- A turn for init and one for the others, time and again. -/
def rounds (regs : IntRegs) : Nat → List Turn
  | 0 => []
  | n + 1 => .own regs :: .other (.nextTask regs) :: rounds regs n

theorem eq_of_mem_rounds {e : Event} {n : Nat}
    (h : .other e ∈ rounds regs n) :
    e = .nextTask regs := by
  induction n with
  | zero =>
      cases h
  | succ n ih =>
      simp only [Klyx.rounds, List.mem_cons, reduceCtorEq, false_or, Turn.other.injEq] at h
      rcases h with rfl | h
      · rfl
      · exact ih h

/-- In every round, one of the two turns counts. -/
theorem Peaceful.rounds
    (h : Peaceful k point)
    (n : Nat) :
    Throughout (takeTurn 0 (testInit img))
        (fun s t => KeepsTestB s t ∧ (s.1.tasks 0).paused = false) (k, some point) (rounds regs n) ∧
      n ≤ counted (takeTurn 0 (testInit img)) Turn.Counts (k, some point) (rounds regs n) := by
  induction n generalizing k point with
  | zero =>
      exact ⟨trivial, Nat.zero_le _⟩
  | succ n ih =>
      rcases h.turn (t := .own regs) img (Or.inl rfl) with ⟨k₁, point₁, hown, h₁⟩
      rcases h₁.turn (t := .other (.nextTask regs)) img (Or.inr rfl) with ⟨k₂, point₂, hother, h₂⟩
      rcases ih h₂ with ⟨hthrough, hcount⟩
      refine ⟨⟨⟨h.keeps _, h.init⟩, ?_⟩, ?_⟩
      · intro s hs
        cases hown.symm.trans hs
        refine ⟨⟨h₁.keeps _, h₁.init⟩, ?_⟩
        intro s hs
        cases hother.symm.trans hs
        exact hthrough
      · have hone : 1 ≤ (if Turn.Counts (k, some point) (.own regs) then 1 else 0) +
            (if Turn.Counts (k₁, some point₁) (.other (.nextTask regs)) then 1 else 0) := by
          by_cases hcur : k.currentTask = 0
          · have hcounts : Turn.Counts (k, some point) (.own regs) := hcur
            rw [if_pos hcounts]
            omega
          · cases (if_neg hcur).symm.trans hown
            have hcounts : Turn.Counts (k, some point) (.other (.nextTask regs)) :=
              ⟨hcur, trivial⟩
            rw [if_pos hcounts]
            omega
        rw [Klyx.rounds, counted_cons hown, counted_cons hother]
        omega

end Peaceful

/-- **Init restarts what it checks**: in no run with more than `TASKS_CAP + 6` switches
and statements of init is one of its slots free throughout, as long as init is not
stopped and the task of terminal 1 is there when it must be.  No program, and no buffer of
a system call, writes to the kernel's memory. -/
theorem restarted (img : Image) (regs regs' : IntRegs) (k₀ : Kernel) (ts ts' : List Turn)
    (s : Kernel × Option InitPoint) (c : Check)
    (hstart : kernelStart img regs = .ok (k₀, regs'))
    (hothers : ∀ e, .other e ∈ ts ++ ts' → ¬ e.IsMakeTask)
    (hkeeps : Throughout (takeTurn 0 (testInit img)) KeepsTestB (k₀, some (.kill .pid2)) ts)
    (hbefore : run (takeTurn 0 (testInit img)) (k₀, some (.kill .pid2)) ts = .ok s)
    (hkeeps' : Throughout (takeTurn 0 (testInit img))
      (fun s t => KeepsTestB s t ∧ (s.1.tasks 0).paused = false) s ts')
    (hlong : tasksCap + 6 < counted (takeTurn 0 (testInit img)) Turn.Counts s ts') :
    ¬ Throughout (takeTurn 0 (testInit img))
      (fun s _ => (s.1.tasks c.slot).status = .dead) s ts' := by
  intro hdead
  have hinv : SupervisedRun s :=
    supervisedRun_of_run hstart (fun e he => hothers e (List.mem_append_left _ he)) hkeeps hbefore
  have hrank : counted (takeTurn 0 (testInit img)) Turn.Counts s ts' ≤ toGoFrom s := by
    refine counted_le_rank ?_ hinv (throughout_and _ hkeeps' hdead)
    rintro t ht s s' hinv ⟨⟨hkeeps, hpaused⟩, hdead⟩ hturn
    refine takeTurn_rank ?_ hinv hkeeps hpaused hdead hturn
    rintro e rfl
    exact hothers e (List.mem_append_right _ ht)
  rcases s with ⟨k, _⟩
  rcases hinv with ⟨point, rfl, -⟩
  exact absurd hlong (Nat.not_lt_of_le (hrank.trans (toGo_le point)))

/-- Init checks its tasks and yields, task 1 exits, and the others yield. -/
def exitOfTask1 : List Turn :=
  [.own default, .own default, .own default, .own default, .other (userCall 1 0 0),
    .other (userCall 4 0 0), .other (userCall 4 0 0)]

/-- Then task 1 is replaced. -/
theorem restarted_sample :
    ∃ s, run (takeTurn 0 (testInit Image.sample))
        ((bootTasks Image.sample).started.resume, some (.kill .pid2)) exitOfTask1 = .ok s ∧
      (s.1.tasks 1).status = .dead ∧
      ¬ Throughout (takeTurn 0 (testInit Image.sample))
        (fun s _ => (s.1.tasks 1).status = .dead) s (rounds default (tasksCap + 7)) := by
  obtain ⟨⟨k, o⟩, hrun, hdead, hquiet, hinit, htestB⟩ := exists_of_returnsWith
    (x := run (takeTurn 0 (testInit Image.sample))
      ((bootTasks Image.sample).started.resume, some (.kill .pid2)) exitOfTask1)
    (p := fun s => (s.1.tasks 1).status = .dead ∧
      (∀ pid, pid < tasksCap → (s.1.tasks pid).status ≠ .dead →
        (s.1.tasks pid).signalsSize = 0) ∧
      (s.1.tasks 0).paused = false ∧ (s.1.tasks 2).status ≠ .dead)
    (by decide +kernel)
  have hkeeps : Throughout (takeTurn 0 (testInit Image.sample)) KeepsTestB
      ((bootTasks Image.sample).started.resume, some (.kill .pid2)) exitOfTask1 := by
    decide +kernel
  have hstart := kernelStart_eq Image.sample default
  have hothers : ∀ e, .other e ∈ exitOfTask1 ++ rounds default (tasksCap + 7) →
      ¬ e.IsMakeTask := by
    intro e he
    rcases List.mem_append.mp he with hexit | hround
    · simp only [exitOfTask1, List.mem_cons, List.not_mem_nil, reduceCtorEq, false_or, or_false,
        Turn.other.injEq] at hexit
      rcases hexit with rfl | rfl | rfl <;> exact id
    · rw [eq_of_mem_rounds hround]
      exact id
  obtain ⟨point, rfl, hsup⟩ := supervisedRun_of_run hstart
    (fun e he => hothers e (List.mem_append_left _ he)) hkeeps hrun
  have hpeaceful : Peaceful k point := ⟨hsup, hquiet, hinit, htestB⟩
  obtain ⟨hkeeps', hcount⟩ := hpeaceful.rounds (tasksCap + 7)
  exact ⟨_, hrun, hdead, restarted _ _ _ _ _ _ _ .pid2 hstart hothers hkeeps hrun hkeeps'
    (by omega)⟩

end Klyx
