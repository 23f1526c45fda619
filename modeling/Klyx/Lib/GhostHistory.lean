/-!
# Ghost histories

A ghost history is a list of records, newest first, that a machine only ever
extends.  A property of one record and of everything recorded before it holds
`Everywhere` in a history when it holds at each of its positions, so a machine
has to establish it only for the record it adds.  A reading of the history
that skips a kind of record does not change when such records are added.
-/

namespace GhostHistory

universe u v

section GhostHistory

variable {α : Type u} {β : Type v}

/-- `P` holds of every record together with the records older than it. -/
def Everywhere (P : α → List α → Prop) : List α → Prop
  | [] => True
  | x :: earlier => P x earlier ∧ Everywhere P earlier

/-- The position-wise reading of `Everywhere`. -/
theorem everywhere_iff {P : α → List α → Prop} {h : List α} :
    Everywhere P h ↔
      ∀ later x earlier, h = later ++ x :: earlier → P x earlier := by
  induction h with
  | nil =>
      simp [Everywhere]
  | cons y h ih =>
      constructor
      · rintro ⟨hy, hrest⟩ later x earlier heq
        cases later with
        | nil =>
            obtain ⟨rfl, rfl⟩ := List.cons.inj heq
            exact hy
        | cons z later =>
            obtain ⟨-, htail⟩ := List.cons.inj heq
            exact ih.mp hrest later x earlier htail
      · intro hall
        refine ⟨hall [] y h rfl, ih.mpr ?_⟩
        intro later x earlier heq
        exact hall (y :: later) x earlier (by rw [heq]; rfl)

/-- A reading of the history that skips the records in `Skip` does not see them. -/
theorem reading_append {f : List α → β} {Skip : α → Prop} {new h : List α}
    (hskip : ∀ x earlier, Skip x → f (x :: earlier) = f earlier)
    (hnew : ∀ x ∈ new, Skip x) :
    f (new ++ h) = f h := by
  induction new with
  | nil =>
      rfl
  | cons x new ih =>
      rw [List.cons_append, hskip x _ (hnew x List.mem_cons_self)]
      exact ih (fun y hy => hnew y (List.mem_cons_of_mem x hy))

end GhostHistory

end GhostHistory
