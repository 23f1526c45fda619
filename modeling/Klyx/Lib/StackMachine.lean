import Mathlib.Data.List.Basic
import Mathlib.Logic.Function.Basic

/-!
# A stack machine

Straight-line programs over variables of type `V` and a stack of values of type `W`.
Popping from an empty stack has no meaning (`none`); otherwise an instruction touches
one variable, or the top of the stack, or both.

**Results.**
* `run_frame`: a program leaves alone what lies below the stack that it needs.
* `run_save_restore`: pushing variables before and popping them in the opposite order
  after a program makes the program spare them.
* `run_simulation`: a simulation of single instructions is one of programs.
-/

namespace StackMachine

variable {V W : Type}

/-- What an instruction reads. -/
inductive Source (V W : Type) where
  | var (v : V)
  | const (w : W)

inductive Instr (V W : Type) where
  | push (e : Source V W)
  | pop (v : V)
  | add (v : V) (e : Source V W)
  | sub (v : V) (e : Source V W)

/-- Variables, and a stack with its top in front. -/
structure State (V W : Type) where
  vars : V → W
  stack : List W

def Source.value (vars : V → W) : Source V W → W
  | .var v => vars v
  | .const w => w

variable [DecidableEq V] [Add W] [Sub W]

def step (s : State V W) : Instr V W → Option (State V W)
  | .push e => some { s with stack := e.value s.vars :: s.stack }
  | .pop v =>
      match s.stack with
      | [] => none
      | w :: ws => some ⟨Function.update s.vars v w, ws⟩
  | .add v e => some { s with vars := Function.update s.vars v (s.vars v + e.value s.vars) }
  | .sub v e => some { s with vars := Function.update s.vars v (s.vars v - e.value s.vars) }

/-- A program from its first instruction on. -/
def run (s : State V W) : List (Instr V W) → Option (State V W)
  | [] => some s
  | i :: p => (step s i).bind (fun s' => run s' p)

section Programs

variable {s s' s'' : State V W} {i : Instr V W} {p q : List (Instr V W)}

theorem run_append
    (h : run s p = some s') :
    run s (p ++ q) = run s' q := by
  induction p generalizing s with
  | nil =>
      cases h
      rfl
  | cons i p ih =>
      rcases Option.bind_eq_some_iff.mp h with ⟨s₁, hstep, hrest⟩
      simp only [List.cons_append, run, hstep, Option.bind_some]
      exact ih hrest

/-- More values below the stack stay where they are. -/
theorem step_frame (base : List W)
    (h : step s i = some s') :
    step ⟨s.vars, s.stack ++ base⟩ i = some ⟨s'.vars, s'.stack ++ base⟩ := by
  cases i with
  | push | add | sub =>
      cases h
      rfl
  | pop v =>
      rcases s with ⟨vars, stack⟩
      cases stack with
      | nil =>
          cases h
      | cons w ws =>
          cases h
          rfl

theorem run_frame (base : List W)
    (h : run s p = some s') :
    run ⟨s.vars, s.stack ++ base⟩ p = some ⟨s'.vars, s'.stack ++ base⟩ := by
  induction p generalizing s with
  | nil =>
      cases h
      rfl
  | cons i p ih =>
      rcases Option.bind_eq_some_iff.mp h with ⟨s₁, hstep, hrest⟩
      simp only [run, step_frame base hstep, Option.bind_some]
      exact ih hrest

/-- Push variables, the first one first. -/
def pushAll (W : Type) (vs : List V) : List (Instr V W) :=
  vs.map (fun v => .push (.var v))

/-- Pop variables, the first one first. -/
def popAll (W : Type) (vs : List V) : List (Instr V W) :=
  vs.map .pop

theorem run_pushAll (vs : List V) :
    run s (pushAll W vs) = some { s with stack := (vs.map s.vars).reverse ++ s.stack } := by
  induction vs generalizing s with
  | nil =>
      rfl
  | cons v vs ih =>
      change run _ (pushAll W vs) = _
      rw [ih]
      simp [Source.value]

/-- Popping what was read from other variables restores these. -/
theorem run_popAll (vs : List V) (vars old : V → W) (base : List W) :
    run ⟨vars, vs.map old ++ base⟩ (popAll W vs) =
      some ⟨fun v => if v ∈ vs then old v else vars v, base⟩ := by
  induction vs generalizing vars with
  | nil =>
      simp [run, popAll]
  | cons v vs ih =>
      change run ⟨Function.update vars v (old v), vs.map old ++ base⟩ (popAll W vs) = _
      rw [ih]
      congr 2
      funext x
      by_cases hx : x = v
      · subst hx
        simp
      · simp [hx]

/-- **Saved variables are restored**, whatever a program in between does to them, if it
leaves the stack as it finds it. -/
theorem run_save_restore {vars' : V → W} (vs : List V)
    (h : run ⟨s.vars, []⟩ p = some ⟨vars', []⟩) :
    run s (pushAll W vs ++ (p ++ popAll W vs.reverse)) =
      some ⟨fun v => if v ∈ vs then s.vars v else vars' v, s.stack⟩ := by
  have hbody : run ⟨s.vars, (vs.map s.vars).reverse ++ s.stack⟩ p =
      some ⟨vars', (vs.map s.vars).reverse ++ s.stack⟩ := run_frame _ h
  rw [run_append (run_pushAll vs), run_append hbody, ← List.map_reverse, run_popAll]
  simp

end Programs

/-- A simulation of single instructions by another machine, within a budget that every
instruction draws on, is a simulation of programs. -/
theorem run_simulation {σ : Type} {exec : σ → List (Instr V W) → Option σ}
    {Rel : Nat → σ → State V W → Prop}
    (hnil : ∀ c, exec c [] = some c)
    (hcons : ∀ c i p n s s', Rel (n + 1) c s → step s i = some s' →
      ∃ c', exec c (i :: p) = exec c' p ∧ Rel n c' s')
    {c : σ} {s s' : State V W} {p : List (Instr V W)}
    (hrel : Rel p.length c s)
    (h : run s p = some s') :
    ∃ c', exec c p = some c' ∧ Rel 0 c' s' := by
  induction p generalizing c s with
  | nil =>
      cases h
      exact ⟨c, hnil c, hrel⟩
  | cons i p ih =>
      rcases Option.bind_eq_some_iff.mp h with ⟨s₁, hstep, hrest⟩
      rcases hcons c i p p.length s s₁ hrel hstep with ⟨c₁, hexec, hrel₁⟩
      rw [hexec]
      exact ih hrel₁ hrest

end StackMachine
