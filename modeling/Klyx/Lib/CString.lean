import Mathlib.Data.List.GetD
import Mathlib.Logic.Function.Basic

/-!
# Strings that end with a zero

An array is a function from indices.  A string lies in an array if its
characters do, none of which is zero, with a zero behind them.

**Results.**
* `IsString.unique`: at most one string begins at an index.
* `stringAt_eq_some`: a scan for the zero finds the string.
* `stringAt_congr`: the scan looks no further than a zero.
* `isString_copy_iff`: characters that were copied without a zero.
-/

namespace CString

variable {α : Type} {m m' : Nat → α} {a i n : Nat} {s t : List α}

/-- Copy characters to an array, from an index on. -/
def copy (m : Nat → α) (a : Nat) : List α → Nat → α
  | [] => m
  | c :: cs => copy (Function.update m a c) (a + 1) cs

/-- The same, store after store: each with its index. -/
def copyStores (a : Nat) : List α → List (Nat × α)
  | [] => []
  | c :: cs => (a, c) :: copyStores (a + 1) cs

theorem copy_eq_foldl :
    copy m a s = (copyStores a s).foldl (fun m p => Function.update m p.1 p.2) m := by
  induction s generalizing m a with
  | nil =>
      rfl
  | cons c s ih =>
      exact ih

theorem mem_copyStores {p : Nat × α}
    (h : p ∈ copyStores a s) :
    a ≤ p.1 ∧ p.1 < a + s.length := by
  induction s generalizing a with
  | nil =>
      exact absurd h List.not_mem_nil
  | cons c s ih =>
      rw [List.length_cons]
      rcases List.mem_cons.mp h with rfl | hrest
      · dsimp only
        omega
      · have hrange := ih hrest
        omega

/-- Nothing else is written. -/
theorem copy_outside
    (h : i < a ∨ a + s.length ≤ i) :
    copy m a s i = m i := by
  induction s generalizing m a with
  | nil =>
      rfl
  | cons c s ih =>
      rw [List.length_cons] at h
      rw [copy, ih (by omega), Function.update_of_ne (by omega)]

variable [Zero α]

/-- A string lies at an index of an array. -/
structure IsString (m : Nat → α) (a : Nat) (s : List α) : Prop where
  nonzero : ∀ c ∈ s, c ≠ 0
  chars : ∀ i, i < s.length → m (a + i) = s.getD i 0
  nul : m (a + s.length) = 0

/-- The string at an index, if its end is one of the next `n` characters. -/
def stringAt [DecidableEq α] (m : Nat → α) : Nat → Nat → Option (List α)
  | 0, _ => none
  | n + 1, a => if m a = 0 then some [] else (stringAt m n (a + 1)).map (m a :: ·)

/-- The same in an array of `n` characters, without the case of no end. -/
def stringIn [DecidableEq α] (m : Nat → α) (n a : Nat) : List α :=
  (stringAt m (n - a) a).getD []

namespace IsString

theorem char_ne_zero
    (h : IsString m a s)
    (hi : i < s.length) :
    m (a + i) ≠ 0 := by
  rw [h.chars i hi, List.getD_eq_getElem _ _ hi]
  exact h.nonzero _ (List.getElem_mem hi)

theorem length_le
    (hs : IsString m a s)
    (ht : IsString m a t) :
    s.length ≤ t.length := by
  by_contra hlt
  exact hs.char_ne_zero (Nat.lt_of_not_le hlt) ht.nul

theorem unique
    (hs : IsString m a s)
    (ht : IsString m a t) :
    s = t := by
  have hlength : s.length = t.length := Nat.le_antisymm (hs.length_le ht) (ht.length_le hs)
  refine List.ext_getElem hlength ?_
  intro i hi hi'
  have hchar := hs.chars i hi
  rw [ht.chars i hi', List.getD_eq_getElem _ _ hi, List.getD_eq_getElem _ _ hi'] at hchar
  exact hchar.symm

/-- The string behind the first character. -/
theorem tail {c : α}
    (h : IsString m a (c :: s)) :
    m a = c ∧ c ≠ 0 ∧ IsString m (a + 1) s := by
  refine ⟨h.chars 0 (Nat.zero_lt_succ _), h.nonzero c List.mem_cons_self, ?_⟩
  constructor
  · exact fun d hd => h.nonzero d (List.mem_cons_of_mem _ hd)
  · intro i hi
    have hshift : a + 1 + i = a + (i + 1) := by omega
    rw [hshift]
    exact h.chars (i + 1) (Nat.succ_lt_succ hi)
  · have hnul := h.nul
    rwa [List.length_cons, Nat.add_comm s.length, ← Nat.add_assoc] at hnul

/-- A character in front of a string. -/
theorem cons {c : α}
    (h : IsString m (a + 1) s)
    (hfirst : m a = c)
    (hc : c ≠ 0) :
    IsString m a (c :: s) := by
  have hshift : ∀ i, a + (i + 1) = a + 1 + i := fun i => by omega
  constructor
  · intro d hd
    rcases List.mem_cons.mp hd with rfl | hd
    · exact hc
    · exact h.nonzero d hd
  · intro i hi
    cases i with
    | zero => exact hfirst
    | succ i =>
        rw [hshift]
        exact h.chars i (Nat.lt_of_succ_lt_succ hi)
  · rw [List.length_cons, hshift]
    exact h.nul

end IsString

section Scan

variable [DecidableEq α]

theorem stringAt_eq_some
    (h : IsString m a s)
    (hn : s.length < n) :
    stringAt m n a = some s := by
  induction s generalizing a n with
  | nil =>
      cases n with
      | zero => exact absurd hn (Nat.not_lt_zero _)
      | succ n => exact if_pos h.nul
  | cons c s ih =>
      obtain ⟨hfirst, hne, htail⟩ := h.tail
      cases n with
      | zero => exact absurd hn (Nat.not_lt_zero _)
      | succ n =>
          have hrest := ih htail (Nat.lt_of_succ_lt_succ hn)
          rw [stringAt, hfirst, if_neg hne, hrest]
          rfl

theorem stringIn_eq
    (h : IsString m a s)
    (hn : a + s.length < n) :
    stringIn m n a = s := by
  rw [stringIn, stringAt_eq_some h (by omega)]
  rfl

/-- Arrays that agree up to a zero hold the same string. -/
theorem stringAt_congr {k : Nat}
    (hk : m (a + k) = 0)
    (h : ∀ i ≤ k, m' (a + i) = m (a + i))
    (hn : k < n) :
    ∃ s, stringAt m n a = some s ∧ stringAt m' n a = some s := by
  induction k generalizing a n with
  | zero =>
      cases n with
      | zero => exact absurd hn (Nat.not_lt_zero _)
      | succ n => exact ⟨[], if_pos hk, if_pos ((h 0 (Nat.le_refl _)).trans hk)⟩
  | succ k ih =>
      cases n with
      | zero => exact absurd hn (Nat.not_lt_zero _)
      | succ n =>
          have hfirst : m' a = m a := h 0 (Nat.zero_le _)
          rw [stringAt, stringAt, hfirst]
          by_cases hzero : m a = 0
          · exact ⟨[], if_pos hzero, if_pos hzero⟩
          · have hshift : ∀ i, a + 1 + i = a + (i + 1) := fun i => by omega
            obtain ⟨s, hs, hs'⟩ := ih (a := a + 1) (by rw [hshift]; exact hk)
              (fun i hi => by rw [hshift]; exact h (i + 1) (Nat.succ_le_succ hi))
              (Nat.lt_of_succ_lt_succ hn)
            rw [if_neg hzero, if_neg hzero, hs, hs']
            exact ⟨m a :: s, rfl, rfl⟩

end Scan

section Copy

theorem copy_inside
    (h : i < s.length) :
    copy m a s (a + i) = s.getD i 0 := by
  induction s generalizing m a i with
  | nil =>
      exact absurd h (Nat.not_lt_zero _)
  | cons c s ih =>
      cases i with
      | zero =>
          rw [copy, copy_outside (Or.inl (by omega))]
          exact Function.update_self _ _ _
      | succ i =>
          have hshift : a + (i + 1) = a + 1 + i := by omega
          rw [copy, hshift, ih (Nat.lt_of_succ_lt_succ h)]
          rfl

/-- The copy is a string if a zero was there before. -/
theorem isString_copy_iff
    (hs : ∀ c ∈ s, c ≠ 0) :
    IsString (copy m a s) a s ↔ m (a + s.length) = 0 := by
  have hend : copy m a s (a + s.length) = m (a + s.length) := copy_outside (Or.inr (Nat.le_refl _))
  constructor
  · intro h
    exact hend.symm.trans h.nul
  · intro h
    exact ⟨hs, fun i => copy_inside, hend.trans h⟩

end Copy

end CString
