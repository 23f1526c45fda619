/-!
# Runs of a machine whose steps may halt

A step either yields the next state or halts with a report.  `run` feeds a list
of events to the machine and stops at the first halt.

**Results.**
* `run_invariant`: what every step preserves holds at the end of every run.
* `run_relation`: a reflexive and transitive relation respected by every step
  relates the ends of every run.
* `run_invariant_throughout`: the same for runs whose steps all meet a
  condition.
* `run_append`: runs compose.
* `run_map_ok`: runs of one machine as runs of another.
-/

namespace HaltingRun

universe u

section HaltingRun

variable {σ ε η : Type u} (step : σ → ε → Except η σ)

/-- Execute events from the left until the list is exhausted or a step halts. -/
def run : σ → List ε → Except η σ
  | s, [] => .ok s
  | s, e :: es => step s e >>= fun s' => run s' es

/-- A sequence succeeds exactly when both parts do. -/
theorem bind_eq_ok {α β : Type u} {x : Except η α} {f : α → Except η β} {b : β} :
    (x >>= f) = .ok b ↔ ∃ a, x = .ok a ∧ f a = .ok b := by
  cases x with
  | error e =>
      simp [bind, Except.bind]
  | ok a =>
      simp [bind, Except.bind]

theorem map_eq_ok {α β : Type u} {x : Except η α} {f : α → β} {b : β} :
    x.map f = .ok b ↔ ∃ a, x = .ok a ∧ f a = b := by
  cases x with
  | error e =>
      simp [Except.map]
  | ok a =>
      simp [Except.map]

/-- A computation returns a value with a decidable property. -/
def returnsWith {α : Type u} (x : Except η α) (p : α → Prop) [DecidablePred p] : Bool :=
  match x with
  | .ok a => decide (p a)
  | .error _ => false

theorem exists_of_returnsWith {α : Type u} {x : Except η α} {p : α → Prop} [DecidablePred p]
    (h : returnsWith x p = true) :
    ∃ a, x = .ok a ∧ p a := by
  cases x with
  | error e =>
      cases h
  | ok a =>
      exact ⟨a, rfl, of_decide_eq_true h⟩

theorem run_cons_eq_ok {s t : σ} {e : ε} {es : List ε} :
    run step s (e :: es) = .ok t ↔
      ∃ s', step s e = .ok s' ∧ run step s' es = .ok t :=
  bind_eq_ok

theorem run_append {s s' : σ} {es₁ es₂ : List ε}
    (h : run step s es₁ = .ok s') :
    run step s (es₁ ++ es₂) = run step s' es₂ := by
  induction es₁ generalizing s with
  | nil =>
      cases h
      rfl
  | cons e es ih =>
      obtain ⟨s₁, hstep, hrest⟩ := (run_cons_eq_ok step).mp h
      simp only [List.cons_append, run, hstep]
      exact ih hrest

/-- An invariant preserved by the events of a run holds at its end. -/
theorem run_invariant {Inv : σ → Prop} {s t : σ} {es : List ε}
    (hstep : ∀ e ∈ es, ∀ s s', Inv s → step s e = .ok s' → Inv s')
    (hinit : Inv s)
    (h : run step s es = .ok t) :
    Inv t := by
  induction es generalizing s with
  | nil =>
      cases h
      exact hinit
  | cons e es ih =>
      obtain ⟨s₁, hs, hrest⟩ := (run_cons_eq_ok step).mp h
      have hnext : Inv s₁ := hstep e (by simp) s s₁ hinit hs
      exact ih (fun e he => hstep e (List.mem_cons_of_mem _ he)) hnext hrest

/-- Steps taken under an invariant and related by `R` compose to a related run. -/
theorem run_relation {Inv : σ → Prop} {R : σ → σ → Prop} {s t : σ} {es : List ε}
    (hrefl : ∀ s, R s s)
    (htrans : ∀ {a b c}, R a b → R b c → R a c)
    (hstep : ∀ e ∈ es, ∀ s s', Inv s → step s e = .ok s' → Inv s' ∧ R s s')
    (hinit : Inv s)
    (h : run step s es = .ok t) :
    R s t := by
  induction es generalizing s with
  | nil =>
      cases h
      exact hrefl _
  | cons e es ih =>
      obtain ⟨s₁, hs, hrest⟩ := (run_cons_eq_ok step).mp h
      obtain ⟨hinv, hrel⟩ := hstep e (by simp) s s₁ hinit hs
      exact htrans hrel
        (ih (fun e he => hstep e (List.mem_cons_of_mem _ he)) hinv hrest)

/-- A run of one machine is a run of another if each of its steps is a step of
the other. -/
theorem run_map_ok {ε' η' : Type u} {step : σ → ε → Except η σ} {step' : σ → ε' → Except η' σ}
    {f : ε' → ε} {s t : σ} {es : List ε'}
    (hstep : ∀ e ∈ es, ∀ s s', step' s e = .ok s' → step s (f e) = .ok s')
    (h : run step' s es = .ok t) :
    run step s (es.map f) = .ok t := by
  induction es generalizing s with
  | nil =>
      cases h
      rfl
  | cons e es ih =>
      obtain ⟨s₁, hs, hrest⟩ := (run_cons_eq_ok step').mp h
      have hlater := ih (fun e he => hstep e (List.mem_cons_of_mem _ he)) hrest
      exact (run_cons_eq_ok step).mpr ⟨s₁, hstep e List.mem_cons_self s s₁ hs, hlater⟩

/-- `P` holds of every state of a run together with the event it takes next. -/
def Throughout (P : σ → ε → Prop) : σ → List ε → Prop
  | _, [] => True
  | s, e :: es => P s e ∧ ∀ s', step s e = .ok s' → Throughout P s' es

instance decidableOk {α : Type u} {p : α → Prop} [DecidablePred p] (x : Except η α) :
    Decidable (∀ a, x = .ok a → p a) :=
  match x with
  | .ok a => decidable_of_iff (p a) ⟨fun h _ heq => Except.ok.inj heq ▸ h, fun h => h a rfl⟩
  | .error _ => .isTrue (fun _ heq => nomatch heq)

instance decidableThroughout {P : σ → ε → Prop} [∀ s e, Decidable (P s e)] :
    (s : σ) → (es : List ε) → Decidable (Throughout step P s es)
  | _, [] => .isTrue trivial
  | s, e :: es =>
      have (s' : σ) : Decidable (Throughout step P s' es) := decidableThroughout s' es
      inferInstanceAs (Decidable (P s e ∧ ∀ s', step s e = .ok s' → Throughout step P s' es))

/-- An invariant preserved by the steps that meet a condition holds at the end
of every run whose steps all meet it. -/
theorem run_invariant_throughout {Inv : σ → Prop} {P : σ → ε → Prop} {s t : σ} {es : List ε}
    (hstep : ∀ e ∈ es, ∀ s s', Inv s → P s e → step s e = .ok s' → Inv s')
    (hinit : Inv s)
    (hcond : Throughout step P s es)
    (h : run step s es = .ok t) :
    Inv t := by
  induction es generalizing s with
  | nil =>
      cases h
      exact hinit
  | cons e es ih =>
      obtain ⟨s₁, hs, hrest⟩ := (run_cons_eq_ok step).mp h
      obtain ⟨hhere, hlater⟩ := hcond
      have hnext : Inv s₁ := hstep e (by simp) s s₁ hinit hhere hs
      exact ih (fun e he => hstep e (List.mem_cons_of_mem _ he)) hnext (hlater s₁ hs) hrest

theorem throughout_and {P Q : σ → ε → Prop} {s : σ} {es : List ε}
    (hp : Throughout step P s es)
    (hq : Throughout step Q s es) :
    Throughout step (fun s e => P s e ∧ Q s e) s es := by
  induction es generalizing s with
  | nil =>
      exact trivial
  | cons e es ih =>
      exact ⟨⟨hp.1, hq.1⟩, fun s' hs => ih (hp.2 s' hs) (hq.2 s' hs)⟩

end HaltingRun

end HaltingRun
