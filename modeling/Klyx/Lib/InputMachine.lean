/-!
# Machines that read inputs

A machine `next` takes inputs from a list.  Another machine that takes the same inputs
along with many other steps agrees with it if the inputs it has taken lead from the start
to the state that it represents.  The list of inputs need not be known in advance: what
has been taken is found from what is left.

**Results.**
* `HasRead.start`, `HasRead.read`: nothing taken yet, and one more input.
-/

namespace InputMachine

variable {α ι : Type} {next : α → ι → α} {a₀ a : α} {inputs rest : List ι} {i : ι}

/-- The inputs before `rest` lead from `a₀` to `a`. -/
def HasRead (next : α → ι → α) (a₀ : α) (inputs rest : List ι) (a : α) : Prop :=
  ∃ taken, inputs = taken ++ rest ∧ taken.foldl next a₀ = a

theorem HasRead.start : HasRead next a₀ inputs inputs a₀ :=
  ⟨[], rfl, rfl⟩

theorem HasRead.read
    (h : HasRead next a₀ inputs (i :: rest) a) :
    HasRead next a₀ inputs rest (next a i) := by
  rcases h with ⟨taken, rfl, rfl⟩
  exact ⟨taken ++ [i], by simp, by simp⟩

theorem HasRead.cons
    (h : HasRead next (next a₀ i) inputs rest a) :
    HasRead next a₀ (i :: inputs) rest a := by
  rcases h with ⟨taken, rfl, rfl⟩
  exact ⟨i :: taken, rfl, rfl⟩

end InputMachine
