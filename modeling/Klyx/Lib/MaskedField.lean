import Mathlib.Algebra.Group.Nat.Defs

/-!
# Fields of a word

A field of an `n`-bit word is the set of bits of a mask, shifted down to bit 0.

**Results.**
* `get_congr`, `get_of_disjoint`: what a field depends on.
* `merge_inside`, `merge_outside`: assigning the bits of a mask.
* `merge_eq_outside_iff`: when bits stored at another place do no harm.
-/

namespace MaskedField

variable {n : Nat} {m m' k x y v : BitVec n}

/-- The value of the field of a mask. -/
def get (m : BitVec n) (shift : Nat) (x : BitVec n) : BitVec n :=
  (x &&& m) >>> shift

/-- Clear the bits of a mask, and set those of a value. -/
def merge (m x v : BitVec n) : BitVec n :=
  (x &&& ~~~m) ||| v

/-- A field depends on the bits of its mask only. -/
theorem get_congr {shift : Nat}
    (h : x &&& m = y &&& m) :
    get m shift x = get m shift y := by
  rw [get, get, h]

/-- Words that agree outside of a mask agree on every disjoint one. -/
theorem and_eq_of_disjoint
    (hdisjoint : m &&& m' = 0#n)
    (h : x &&& ~~~m = y &&& ~~~m) :
    x &&& m' = y &&& m' := by
  have hsub : m' = ~~~m &&& m' := by
    ext i hi
    have hbit := congrArg (·[i]) hdisjoint
    simp only [BitVec.getElem_and, BitVec.getElem_zero] at hbit
    simp only [BitVec.getElem_and, BitVec.getElem_not]
    cases hm : m[i] with
    | false => rfl
    | true => simpa [hm] using hbit
  rw [hsub, ← BitVec.and_assoc, ← BitVec.and_assoc, h]

/-- A field at bit 0. -/
theorem get_zero_toNat {w : Nat}
    (hmask : m.toNat = 2 ^ w - 1) :
    (get m 0 x).toNat = x.toNat % 2 ^ w := by
  rw [get, BitVec.ushiftRight_zero, BitVec.toNat_and, hmask, Nat.and_two_pow_sub_one_eq_mod]

theorem get_of_disjoint {shift : Nat}
    (hdisjoint : m &&& m' = 0#n)
    (h : x &&& ~~~m = y &&& ~~~m) :
    get m' shift x = get m' shift y :=
  get_congr (and_eq_of_disjoint hdisjoint h)

/-- The bits of the mask are those of the value. -/
theorem merge_inside (m x v : BitVec n) : merge m x v &&& m = v &&& m := by
  rw [merge, BitVec.and_or_distrib_right, BitVec.and_assoc, BitVec.not_and_self]
  simp

/-- The other bits stay if the value has none of them. -/
theorem merge_eq_outside_iff
    (hk : v &&& m = 0#n) :
    merge m x v &&& ~~~m = x &&& ~~~m ↔ x ||| v = x := by
  have hbits : ∀ i (hi : i < n), (v[i] && m[i]) = false := by
    intro i hi
    have hbit := congrArg (·[i]) hk
    simpa using hbit
  constructor
  · intro h
    ext i hi
    have hbit := congrArg (·[i]) h
    have hv := hbits i hi
    simp only [merge, BitVec.getElem_and, BitVec.getElem_or, BitVec.getElem_not] at hbit ⊢
    revert hbit hv
    cases x[i] <;> cases v[i] <;> cases m[i] <;> decide
  · intro h
    ext i hi
    have hbit := congrArg (·[i]) h
    simp only [merge, BitVec.getElem_and, BitVec.getElem_or, BitVec.getElem_not] at hbit ⊢
    revert hbit
    cases x[i] <;> cases v[i] <;> cases m[i] <;> decide

/-- The other bits stay if the value lies in the mask. -/
theorem merge_outside (m x v : BitVec n) :
    merge m x (v &&& m) &&& ~~~m = x &&& ~~~m := by
  rw [merge, BitVec.and_or_distrib_right, BitVec.and_assoc v, BitVec.and_not_self, BitVec.and_assoc,
    BitVec.and_self]
  simp

end MaskedField
