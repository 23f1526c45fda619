import Mathlib.Data.List.GetD

/-!
# Laws along a run

A run executes a list of inputs from the left.  `Along step P s as` says that
`P` holds at every step of the run from `s`, of the state before the step and
its input.

A law of the steps may hold only under a condition, which is often known on a
simpler run of the same inputs.  If the condition decides the law in related
states, and keeps the states related, then the law holds along the one run
exactly when the condition holds along the other.

**Results.**
* `along_iff`: a law and its condition along two runs.
* `along_iff_forall`, `along_iff_forall_get`, `forall_take_iff`: step by number.
-/

namespace LawfulRun

variable {σ τ α : Type} {step : σ → α → σ} {next : τ → α → τ}

/-- At every step of a run. -/
def Along (step : σ → α → σ) (P : σ → α → Prop) : σ → List α → Prop
  | _, [] => True
  | s, a :: as => P s a ∧ Along step P (step s a) as

theorem along_of_forall {P : σ → α → Prop}
    (h : ∀ s a, P s a)
    (s : σ)
    (as : List α) :
    Along step P s as := by
  induction as generalizing s with
  | nil =>
      exact trivial
  | cons a as ih =>
      exact ⟨h s a, ih (step s a)⟩

section Numbers

variable {P : σ → α → Prop} {Q : σ → Prop} {s : σ} {as : List α}

theorem along_iff_forall (d : α) :
    Along step P s as ↔ ∀ n < as.length, P ((as.take n).foldl step s) (as.getD n d) := by
  induction as generalizing s with
  | nil =>
      exact iff_of_true trivial (fun n hn => absurd hn (Nat.not_lt_zero n))
  | cons a as ih =>
      rw [Along, ih]
      constructor
      · rintro ⟨hfirst, hrest⟩ n hn
        cases n with
        | zero =>
            exact hfirst
        | succ n =>
            exact hrest n (Nat.lt_of_succ_lt_succ hn)
      · intro h
        exact ⟨h 0 (Nat.zero_lt_succ _), fun n hn => h (n + 1) (Nat.succ_lt_succ hn)⟩

theorem along_iff_forall_get :
    Along step P s as ↔ ∀ n (hn : n < as.length), P ((as.take n).foldl step s) as[n] := by
  cases as with
  | nil =>
      exact iff_of_true trivial (fun n hn => absurd hn (Nat.not_lt_zero n))
  | cons a as =>
      rw [along_iff_forall a]
      refine forall_congr' fun n => forall_congr' fun hn => ?_
      rw [List.getD_eq_getElem _ _ hn]

/-- One more step. -/
theorem foldl_take_succ {n : Nat} (d : α)
    (hn : n < as.length) :
    (as.take (n + 1)).foldl step s = step ((as.take n).foldl step s) (as.getD n d) := by
  rw [← List.take_append_getElem hn, List.foldl_append, List.getD_eq_getElem _ _ hn]
  rfl

/-- A property of all states of a run, as one of its steps. -/
theorem forall_take_iff :
    (∀ n, Q ((as.take n).foldl step s)) ↔ Q s ∧ Along step (fun s a => Q (step s a)) s as := by
  induction as generalizing s with
  | nil =>
      simp [Along]
  | cons a as ih =>
      rw [Along, ← ih]
      constructor
      · intro h
        exact ⟨h 0, fun n => h (n + 1)⟩
      · rintro ⟨hfirst, hrest⟩ n
        cases n with
        | zero =>
            exact hfirst
        | succ n =>
            exact hrest n

end Numbers

/-- A law along one run and its condition along another.  `Ok` is what is known
of every step beforehand. -/
theorem along_iff {R : σ → τ → Prop} {Ok Law : σ → α → Prop} {Cond : τ → α → Prop}
    (hlaw : ∀ s t a, R s t → Ok s a → (Law s a ↔ Cond t a))
    (hnext : ∀ s t a, R s t → Ok s a → Cond t a → R (step s a) (next t a))
    {s : σ} {t : τ} {as : List α}
    (h : R s t)
    (hok : Along step Ok s as) :
    Along step Law s as ↔ Along next Cond t as := by
  induction as generalizing s t with
  | nil =>
      exact Iff.rfl
  | cons a as ih =>
      obtain ⟨hfirst, hrest⟩ := hok
      rw [Along, Along, hlaw s t a h hfirst]
      exact and_congr_right fun hcond => ih (hnext s t a h hfirst hcond) hrest

end LawfulRun
