import Klyx.Lib.CyclicScan
import Mathlib.Logic.Relation

/-!
# Process tables

A table gives the state of the process in each slot.  New processes are put into
free slots, and a switch takes the processor from one process and gives it to the
next one that is ready, in cyclic order.  Messages reach a process only when a
switch takes the processor from it or goes past it, so that a process that is
ready can neither be stopped nor ended.

**Results.**
* `step_oneRunning`: exactly one process runs.
* `step_arrow`: the changes of state that there are.
-/

namespace ProcessTable

open CyclicScan

/-- The state of a slot. -/
inductive ProcState where
  | free
  | ready
  | running
  | stopped
deriving DecidableEq

/-- What a switch may make of a slot that it goes past. -/
inductive Passed : ProcState → ProcState → Prop where
  | free : Passed .free .free
  | stopped (s : ProcState) (hs : s ≠ .running) : Passed .stopped s

/-- A switch from slot `c` to the slot that comes after `m` others. -/
structure Switch (cap c m : Nat) (t t' : Nat → ProcState) : Prop where
  short : m < cap
  stops : t c = .running
  starts : t' (slotAfter cap c m) = .running
  ready : slotAfter cap c m ≠ c → t (slotAfter cap c m) = .ready ∧ t' c ≠ .running
  passed : ∀ j, j < m → Passed (t (slotAfter cap c j)) (t' (slotAfter cap c j))
  others : ∀ q, q ≠ c → (∀ j, j ≤ m → q ≠ slotAfter cap c j) → t' q = t q

/-- One step of a table whose process in slot `root` does not end. -/
inductive Step (cap root : Nat) (t t' : Nat → ProcState) : Prop where
  | idle
      (h : t' = t)
  | spawn
      (q : Nat)
      (hfree : t q = .free)
      (hfirst : ∀ p, p < q → t p ≠ .free)
      (h : t' = Function.update t q .ready)
  | switch
      (c m : Nat)
      (h : Switch cap c m t t')
      (hroot : t root ≠ .free → t' root ≠ .free)

/-- Exactly one process has the processor. -/
def OneRunning (cap : Nat) (t : Nat → ProcState) : Prop :=
  ∃ c, c < cap ∧ ∀ q, t q = .running ↔ q = c

/-- A process can go from one state to the other in a step. -/
inductive Arrow : ProcState → ProcState → Prop where
  | stay (s : ProcState) : Arrow s s
  | created : Arrow .free .ready
  | dispatched : Arrow .ready .running
  | preempted : Arrow .running .ready
  | halted : Arrow .running .stopped
  | ended : Arrow .running .free
  | continued : Arrow .stopped .ready
  | killed : Arrow .stopped .free

section Steps

variable {cap root c m q : Nat} {t t' : Nat → ProcState}

theorem Passed.arrow {s s' : ProcState}
    (h : Passed s s') :
    Arrow s s' := by
  cases h with
  | free =>
      exact .stay _
  | stopped s' hs =>
      cases s' with
      | free =>
          exact .killed
      | ready =>
          exact .continued
      | running =>
          exact absurd rfl hs
      | stopped =>
          exact .stay _

theorem Passed.not_running {s s' : ProcState}
    (h : Passed s s') :
    s' ≠ .running := by
  cases h with
  | free =>
      exact ProcState.noConfusion
  | stopped _ hs =>
      exact hs

theorem arrow_of_running {s : ProcState} :
    Arrow .running s := by
  cases s with
  | free =>
      exact .ended
  | ready =>
      exact .preempted
  | running =>
      exact .stay _
  | stopped =>
      exact .halted

/-- What a switch does to a slot other than the one it starts from. -/
theorem Switch.other
    (h : Switch cap c m t t')
    (hq : q ≠ c) :
    q = slotAfter cap c m ∧ t q = .ready ∧ t' q = .running ∨
      q ≠ slotAfter cap c m ∧ (t' q = t q ∨ Passed (t q) (t' q)) := by
  by_cases hnext : q = slotAfter cap c m
  · subst hnext
    exact Or.inl ⟨rfl, (h.ready hq).1, h.starts⟩
  · right
    refine ⟨hnext, ?_⟩
    by_cases hpassed : ∃ j, j < m ∧ q = slotAfter cap c j
    · rcases hpassed with ⟨j, hj, rfl⟩
      exact Or.inr (h.passed j hj)
    · left
      apply h.others q hq
      intro j hj heq
      rcases Nat.lt_or_eq_of_le hj with hlt | rfl
      · exact hpassed ⟨j, hlt, heq⟩
      · exact hnext heq

/-- **A slot changes its state along the arrows only.** -/
theorem step_arrow
    (h : Step cap root t t')
    (q : Nat) :
    Arrow (t q) (t' q) := by
  cases h with
  | idle h =>
      rw [h]
      exact .stay _
  | spawn p hfree _ h =>
      rw [h]
      by_cases hp : q = p
      · subst hp
        rw [hfree, Function.update_self]
        exact .created
      · rw [Function.update_of_ne hp]
        exact .stay _
  | switch c m h _ =>
      by_cases hq : q = c
      · rw [hq, h.stops]
        exact arrow_of_running
      · rcases h.other hq with ⟨-, hready, hstarts⟩ | ⟨-, hsame | hpassed⟩
        · rw [hready, hstarts]
          exact .dispatched
        · rw [hsame]
          exact .stay _
        · exact hpassed.arrow

/-- **Exactly one process runs after every step.** -/
theorem step_oneRunning
    (hone : OneRunning cap t)
    (h : Step cap root t t') :
    OneRunning cap t' := by
  rcases hone with ⟨d, hd, honly⟩
  cases h with
  | idle h =>
      rw [h]
      exact ⟨d, hd, honly⟩
  | spawn p hfree _ h =>
      refine ⟨d, hd, ?_⟩
      intro q
      rw [h]
      by_cases hp : q = p
      · subst hp
        have hqd : q ≠ d := by
          rintro rfl
          cases hfree.symm.trans ((honly q).mpr rfl)
        rw [Function.update_self]
        exact iff_of_false ProcState.noConfusion hqd
      · rw [Function.update_of_ne hp]
        exact honly q
  | switch c m h _ =>
      obtain rfl := (honly c).mp h.stops
      refine ⟨slotAfter cap c m, slotAfter_lt hd m, ?_⟩
      intro q
      constructor
      · intro hq
        by_contra hnext
        by_cases hqc : q = c
        · subst hqc
          exact (h.ready (Ne.symm hnext)).2 hq
        · rcases h.other hqc with ⟨heq, -⟩ | ⟨-, hsame | hpassed⟩
          · exact hnext heq
          · exact hqc ((honly q).mp (hsame ▸ hq))
          · exact hpassed.not_running hq
      · rintro rfl
        exact h.starts

/-- The process in slot `root` does not end. -/
theorem step_root
    (hroot : t root ≠ .free)
    (h : Step cap root t t') :
    t' root ≠ .free := by
  cases h with
  | idle h =>
      rw [h]
      exact hroot
  | spawn p hfree _ h =>
      rw [h]
      by_cases hp : root = p
      · rw [hp, Function.update_self]
        exact ProcState.noConfusion
      · rw [Function.update_of_ne hp]
        exact hroot
  | switch _ _ _ hkeeps =>
      exact hkeeps hroot

theorem steps_oneRunning
    (hone : OneRunning cap t)
    (h : Relation.ReflTransGen (Step cap root) t t') :
    OneRunning cap t' := by
  induction h with
  | refl =>
      exact hone
  | tail _ hlast ih =>
      exact step_oneRunning ih hlast

theorem steps_root
    (hroot : t root ≠ .free)
    (h : Relation.ReflTransGen (Step cap root) t t') :
    t' root ≠ .free := by
  induction h with
  | refl =>
      exact hroot
  | tail _ hlast ih =>
      exact step_root ih hlast

end Steps

end ProcessTable
