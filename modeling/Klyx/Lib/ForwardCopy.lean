import Mathlib.Algebra.Group.Nat.Defs
import Mathlib.Logic.Function.Basic
import Mathlib.Tactic.SplitIfs

/-!
# Forward copy loops

Arrays are functions on indices.  `copy` moves a range inside one array element
by element from the low end, so an element that was already overwritten is read
back in its new value.  `copyInto` reads another array, and `fill` stores one
value.

**Results.**
* `copy_apply`: when the destination does not lie above the source, overlapping
  ranges do no harm.
* `copyInto_apply`, `fill_apply`: the other two loops.
* `Agrees.copy`, `Agrees.fill`: the loops on a memory whose addresses are words
  do the same, as long as no address wraps around.
* `copyMem_apply`, `fillMem_apply`: what they leave there.
-/

namespace ForwardCopy

universe u

section ForwardCopy

variable {α : Type u}

/-- Copy `n` elements from `src` to `dst`, lowest first. -/
def copy : (Nat → α) → Nat → Nat → Nat → Nat → α
  | m, _, _, 0 => m
  | m, dst, src, n + 1 => copy (Function.update m dst (m src)) (dst + 1) (src + 1) n

/-- Copy `n` elements of another array. -/
def copyInto (source : Nat → α) : (Nat → α) → Nat → Nat → Nat → Nat → α
  | m, _, _, 0 => m
  | m, dst, src, n + 1 =>
      copyInto source (Function.update m dst (source src)) (dst + 1) (src + 1) n

/-- Store one value in `n` elements. -/
def fill (x : α) : (Nat → α) → Nat → Nat → Nat → α
  | m, _, 0 => m
  | m, dst, n + 1 => fill x (Function.update m dst x) (dst + 1) n

/-- A forward copy to a lower or equal address moves the range as a whole. -/
theorem copy_apply {m : Nat → α} {dst src n : Nat}
    (hle : dst ≤ src)
    (i : Nat) :
    copy m dst src n i = if dst ≤ i ∧ i < dst + n then m (src + (i - dst)) else m i := by
  induction n generalizing m dst src with
  | zero =>
      have hempty : ¬ (dst ≤ i ∧ i < dst + 0) := by omega
      rw [copy, if_neg hempty]
  | succ n ih =>
      rw [copy, ih (by omega)]
      by_cases hfirst : i = dst
      · subst hfirst
        have hpast : ¬ (i + 1 ≤ i ∧ i < i + 1 + n) := by omega
        have hin : i ≤ i ∧ i < i + (n + 1) := by omega
        rw [if_neg hpast, if_pos hin, Function.update_self, Nat.sub_self, Nat.add_zero]
      · by_cases hin : dst ≤ i ∧ i < dst + (n + 1)
        · have hrest : dst + 1 ≤ i ∧ i < dst + 1 + n := by omega
          have hsource : src + 1 + (i - (dst + 1)) = src + (i - dst) := by omega
          -- the element still to be read lies above the one just written
          have hunread : src + (i - dst) ≠ dst := by omega
          rw [if_pos hrest, if_pos hin, hsource, Function.update_of_ne hunread]
        · have hrest : ¬ (dst + 1 ≤ i ∧ i < dst + 1 + n) := by omega
          rw [if_neg hrest, if_neg hin, Function.update_of_ne hfirst]

theorem copyInto_apply {source m : Nat → α} {dst src n : Nat} (i : Nat) :
    copyInto source m dst src n i =
      if dst ≤ i ∧ i < dst + n then source (src + (i - dst)) else m i := by
  induction n generalizing m dst src with
  | zero =>
      have hempty : ¬ (dst ≤ i ∧ i < dst + 0) := by omega
      rw [copyInto, if_neg hempty]
  | succ n ih =>
      rw [copyInto, ih]
      by_cases hfirst : i = dst
      · subst hfirst
        have hpast : ¬ (i + 1 ≤ i ∧ i < i + 1 + n) := by omega
        have hin : i ≤ i ∧ i < i + (n + 1) := by omega
        rw [if_neg hpast, if_pos hin, Function.update_self, Nat.sub_self, Nat.add_zero]
      · by_cases hin : dst ≤ i ∧ i < dst + (n + 1)
        · have hrest : dst + 1 ≤ i ∧ i < dst + 1 + n := by omega
          have hsource : src + 1 + (i - (dst + 1)) = src + (i - dst) := by omega
          rw [if_pos hrest, if_pos hin, hsource]
        · have hrest : ¬ (dst + 1 ≤ i ∧ i < dst + 1 + n) := by omega
          rw [if_neg hrest, if_neg hin, Function.update_of_ne hfirst]

/-- One value is stored as if it were copied from an array that holds it everywhere. -/
theorem fill_eq_copyInto (x : α) (m : Nat → α) (dst src n : Nat) :
    fill x m dst n = copyInto (fun _ => x) m dst src n := by
  induction n generalizing m dst src with
  | zero =>
      rfl
  | succ n ih =>
      rw [fill, copyInto, ih _ _ (src + 1)]

theorem fill_apply {x : α} {m : Nat → α} {dst n : Nat} (i : Nat) :
    fill x m dst n i = if dst ≤ i ∧ i < dst + n then x else m i := by
  rw [fill_eq_copyInto x m dst 0 n, copyInto_apply]

end ForwardCopy

section Memory

variable {α : Type u} {w : Nat}

/-- The loop of `copy` on a memory with `w`-bit addresses. -/
def copyMem : (BitVec w → α) → BitVec w → BitVec w → Nat → BitVec w → α
  | m, _, _, 0 => m
  | m, dst, src, n + 1 => copyMem (Function.update m dst (m src)) (dst + 1) (src + 1) n

/-- The loop of `fill` on a memory with `w`-bit addresses. -/
def fillMem (x : α) : (BitVec w → α) → BitVec w → Nat → BitVec w → α
  | m, _, 0 => m
  | m, dst, n + 1 => fillMem x (Function.update m dst x) (dst + 1) n

/-- An array holds at each index what a memory holds at that address. -/
def Agrees (mem : BitVec w → α) (m : Nat → α) : Prop :=
  ∀ a, mem a = m a.toNat

variable {mem : BitVec w → α} {m : Nat → α} {dst src n i : Nat}

theorem agrees_ofNat (mem : BitVec w → α) :
    Agrees mem (fun i => mem (BitVec.ofNat w i)) := by
  intro a
  dsimp only
  rw [BitVec.ofNat_toNat, BitVec.setWidth_eq]

namespace Agrees

theorem at_ofNat
    (h : Agrees mem m)
    (hi : i < 2 ^ w) :
    mem (BitVec.ofNat w i) = m i := by
  rw [h, BitVec.toNat_ofNat, Nat.mod_eq_of_lt hi]

/-- One store. -/
theorem update
    (h : Agrees mem m)
    (hi : i < 2 ^ w)
    (x : α) :
    Agrees (Function.update mem (BitVec.ofNat w i) x) (Function.update m i x) := by
  intro a
  have hsame : a = BitVec.ofNat w i ↔ a.toNat = i := by
    rw [← BitVec.toNat_inj, BitVec.toNat_ofNat, Nat.mod_eq_of_lt hi]
  rw [Function.update_apply, Function.update_apply, if_congr hsame rfl (h a)]

theorem copy
    (h : Agrees mem m)
    (hdst : dst + n ≤ 2 ^ w)
    (hsrc : src + n ≤ 2 ^ w) :
    Agrees (copyMem mem (BitVec.ofNat w dst) (BitVec.ofNat w src) n)
      (ForwardCopy.copy m dst src n) := by
  induction n generalizing mem m dst src with
  | zero =>
      exact h
  | succ n ih =>
      have hread : mem (BitVec.ofNat w src) = m src := h.at_ofNat (by omega)
      have hstep := h.update (i := dst) (by omega) (m src)
      have hdst' : dst + 1 + n ≤ 2 ^ w := by omega
      have hsrc' : src + 1 + n ≤ 2 ^ w := by omega
      have hrest := ih hstep hdst' hsrc'
      rw [BitVec.ofNat_add, BitVec.ofNat_add] at hrest
      rw [copyMem, ForwardCopy.copy, hread]
      exact hrest

theorem fill
    (h : Agrees mem m)
    (x : α)
    (hdst : dst + n ≤ 2 ^ w) :
    Agrees (fillMem x mem (BitVec.ofNat w dst) n) (ForwardCopy.fill x m dst n) := by
  induction n generalizing mem m dst with
  | zero =>
      exact h
  | succ n ih =>
      have hstep := h.update (i := dst) (by omega) x
      have hdst' : dst + 1 + n ≤ 2 ^ w := by omega
      have hrest := ih hstep hdst'
      rw [BitVec.ofNat_add] at hrest
      exact hrest

end Agrees

/-- A forward copy in memory, to a lower or equal address. -/
theorem copyMem_apply (mem : BitVec w → α)
    (hle : dst ≤ src)
    (hwrap : src + n ≤ 2 ^ w)
    (hi : i < 2 ^ w) :
    copyMem mem (BitVec.ofNat w dst) (BitVec.ofNat w src) n (BitVec.ofNat w i) =
      if dst ≤ i ∧ i < dst + n then mem (BitVec.ofNat w (src + (i - dst)))
      else mem (BitVec.ofNat w i) := by
  have hdst : dst + n ≤ 2 ^ w := by omega
  have hcopy := (agrees_ofNat mem).copy hdst hwrap
  rw [hcopy.at_ofNat hi, copy_apply hle]

theorem fillMem_apply (x : α) (mem : BitVec w → α)
    (hwrap : dst + n ≤ 2 ^ w)
    (hi : i < 2 ^ w) :
    fillMem x mem (BitVec.ofNat w dst) n (BitVec.ofNat w i) =
      if dst ≤ i ∧ i < dst + n then x else mem (BitVec.ofNat w i) := by
  have hfill := (agrees_ofNat mem).fill x hwrap
  rw [hfill.at_ofNat hi, fill_apply]

end Memory

end ForwardCopy
