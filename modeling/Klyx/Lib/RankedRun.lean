import Klyx.Lib.HaltingRun

/-!
# Runs with a rank

Some steps of a run count as progress.  A rank that no step raises and every
counted step lowers bounds the number of counted steps, so a condition that
makes the rank fall cannot hold for longer.
-/

namespace RankedRun

open HaltingRun

universe u

variable {σ ε η : Type u} (step : σ → ε → Except η σ)

/-- The steps of a run that count. -/
def counted (C : σ → ε → Prop) [∀ s e, Decidable (C s e)] : σ → List ε → Nat
  | _, [] => 0
  | s, e :: es =>
      match step s e with
      | .error _ => 0
      | .ok s' => (if C s e then 1 else 0) + counted C s' es

variable {step} {C : σ → ε → Prop} [∀ s e, Decidable (C s e)]

theorem counted_cons {s s' : σ} {e : ε} {es : List ε}
    (h : step s e = .ok s') :
    counted step C s (e :: es) = (if C s e then 1 else 0) + counted step C s' es := by
  simp only [counted, h]

/-- **No more steps count than the rank allows.** -/
theorem counted_le_rank {Inv : σ → Prop} {P : σ → ε → Prop} {rank : σ → Nat} {s : σ} {es : List ε}
    (hstep : ∀ e ∈ es, ∀ s s', Inv s → P s e → step s e = .ok s' →
      Inv s' ∧ rank s' + (if C s e then 1 else 0) ≤ rank s)
    (hinit : Inv s)
    (hcond : Throughout step P s es) :
    counted step C s es ≤ rank s := by
  induction es generalizing s with
  | nil =>
      exact Nat.zero_le _
  | cons e es ih =>
      cases h : step s e with
      | error x =>
          simp only [counted, h]
          exact Nat.zero_le _
      | ok s' =>
          rcases hstep e (by simp) s s' hinit hcond.1 h with ⟨hinv, hrank⟩
          have hrest := ih (fun e he => hstep e (List.mem_cons_of_mem _ he)) hinv (hcond.2 s' h)
          rw [counted_cons h]
          omega

end RankedRun
