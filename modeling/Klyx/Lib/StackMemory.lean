import Mathlib.Algebra.Group.Nat.Defs
import Mathlib.Data.List.Basic

/-!
# Words on a stack in byte memory

Memory is a function from 32-bit addresses to bytes, words are stored with the
low byte first, and all address arithmetic wraps around.  A stack grows down
from its pointer.

Distances are taken upwards: the address `x` lies `(x - a).toNat` bytes above
`a`.

**Results.**
* `readWords_pushAll`: what was pushed is read back from the top of the stack.
* `pushAll_mem_of_above`: pushing changes no byte at or above the old pointer.
-/

namespace StackMemory

/-- The word at an address. -/
def read (m : BitVec 32 → BitVec 8) (a : BitVec 32) : BitVec 32 :=
  BitVec.ofNat 32 ((m a).toNat + 2 ^ 8 * (m (a + 1)).toNat + 2 ^ 16 * (m (a + 2)).toNat +
    2 ^ 24 * (m (a + 3)).toNat)

/-- Store a word. -/
def write (m : BitVec 32 → BitVec 8) (a w : BitVec 32) (x : BitVec 32) : BitVec 8 :=
  if (x - a).toNat < 4 then BitVec.ofNat 8 (w.toNat / 2 ^ (8 * (x - a).toNat)) else m x

/-- Consecutive words, from an address upwards. -/
def readWords (m : BitVec 32 → BitVec 8) : BitVec 32 → Nat → List (BitVec 32)
  | _, 0 => []
  | a, n + 1 => read m a :: readWords m (a + 4) n

/-- A memory with a stack pointer. -/
structure Stack where
  mem : BitVec 32 → BitVec 8
  esp : BitVec 32

/-- Push one word. -/
def push (s : Stack) (w : BitVec 32) : Stack where
  mem := write s.mem (s.esp - 4) w
  esp := s.esp - 4

/-- Push words, the first one first. -/
def pushAll (s : Stack) (ws : List (BitVec 32)) : Stack :=
  ws.foldl push s

section Words

variable {m m' : BitVec 32 → BitVec 8} {a w : BitVec 32}

theorem write_of_above {x : BitVec 32}
    (h : 4 ≤ (x - a).toNat) :
    write m a w x = m x :=
  if_neg (by omega)

/-- A word that was stored is read back. -/
theorem read_write : read (write m a w) a = w := by
  have h0 : (a - a).toNat = 0 := by bv_omega
  have h1 : (a + 1 - a).toNat = 1 := by bv_omega
  have h2 : (a + 2 - a).toNat = 2 := by bv_omega
  have h3 : (a + 3 - a).toNat = 3 := by bv_omega
  have hw := w.isLt
  apply BitVec.eq_of_toNat_eq
  simp only [read, write, h0, h1, h2, h3, Nat.reduceLT, if_true, Nat.reduceMul, Nat.reducePow,
    Nat.div_one, BitVec.toNat_ofNat]
  omega

/-- Reading a word looks at its four bytes. -/
theorem read_congr
    (h : ∀ x, (x - a).toNat < 4 → m' x = m x) :
    read m' a = read m a := by
  unfold read
  rw [h a (by bv_omega), h (a + 1) (by bv_omega), h (a + 2) (by bv_omega), h (a + 3) (by bv_omega)]

/-- The lowest byte of a word. -/
theorem read_low (m : BitVec 32 → BitVec 8) (a : BitVec 32) :
    (read m a).toNat % 2 ^ 8 = (m a).toNat := by
  have ha := (m a).isLt
  simp only [read, BitVec.toNat_ofNat]
  omega

/-- The highest byte of a word. -/
theorem read_high (m : BitVec 32 → BitVec 8) (a : BitVec 32) :
    (read m a).toNat / 2 ^ 24 = (m (a + 3)).toNat := by
  have h0 := (m a).isLt
  have h1 := (m (a + 1)).isLt
  have h2 := (m (a + 2)).isLt
  have h3 := (m (a + 3)).isLt
  simp only [read, BitVec.toNat_ofNat]
  omega

/-- Two addresses are the same if every memory holds the same word at both. -/
theorem eq_of_read_eq {b : BitVec 32}
    (h : ∀ m, read m a = read m b) :
    a = b := by
  by_contra hne
  let m : BitVec 32 → BitVec 8 := fun x => if x = a then 1#8 else 0#8
  have hbyte : (m a).toNat = (m b).toNat := by
    rw [← read_low, ← read_low, h m]
  simp [m, Ne.symm hne] at hbyte

theorem readWords_succ (m : BitVec 32 → BitVec 8) (a : BitVec 32) (n : Nat) :
    readWords m a (n + 1) = readWords m a n ++ [read m (a + BitVec.ofNat 32 (4 * n))] := by
  induction n generalizing a with
  | zero =>
      simp [readWords]
  | succ n ih =>
      have hnext : a + 4 + BitVec.ofNat 32 (4 * n) = a + BitVec.ofNat 32 (4 * (n + 1)) := by
        rw [BitVec.add_assoc, Nat.mul_succ, Nat.add_comm (4 * n), BitVec.ofNat_add]
        rfl
      rw [readWords, ih, hnext, readWords, List.cons_append]

/-- Reading words looks at their bytes. -/
theorem readWords_congr {n : Nat}
    (hn : 4 * n ≤ 2 ^ 32)
    (h : ∀ x, (x - a).toNat < 4 * n → m' x = m x) :
    readWords m' a n = readWords m a n := by
  induction n generalizing a with
  | zero =>
      rfl
  | succ n ih =>
      rw [readWords, readWords, read_congr (fun x hx => h x (by omega))]
      rw [ih (by omega) (fun x hx => h x (by bv_omega))]

/-- A word that is stored below others spares them. -/
theorem readWords_write_below {n : Nat}
    (hn : 4 * (n + 1) ≤ 2 ^ 32) :
    readWords (write m (a - 4) w) a n = readWords m a n := by
  refine readWords_congr (by omega) ?_
  intro x hx
  exact write_of_above (by bv_omega)

end Words

section Stacks

variable {s : Stack} {w : BitVec 32} {ws : List (BitVec 32)}

theorem pushAll_esp (s : Stack) (ws : List (BitVec 32)) :
    (pushAll s ws).esp = s.esp - BitVec.ofNat 32 (4 * ws.length) := by
  induction ws generalizing s with
  | nil =>
      simp [pushAll]
  | cons w ws ih =>
      change (pushAll (push s w) ws).esp = _
      rw [ih, push, List.length_cons, Nat.mul_succ, BitVec.ofNat_add]
      bv_omega

/-- Nothing changes at or above the old stack pointer, except by wrapping
around the whole memory. -/
theorem pushAll_mem_of_above (s : Stack) (ws : List (BitVec 32)) {x : BitVec 32}
    (h : (x - s.esp).toNat + 4 * ws.length < 2 ^ 32) :
    (pushAll s ws).mem x = s.mem x := by
  induction ws generalizing s with
  | nil =>
      rfl
  | cons w ws ih =>
      rw [List.length_cons] at h
      have hdist : (x - (s.esp - 4)).toNat = (x - s.esp).toNat + 4 := by bv_omega
      change (pushAll (push s w) ws).mem x = _
      rw [ih (push s w) (by simp only [push, hdist]; omega)]
      exact write_of_above (by omega)

/-- The words that were pushed are found on top of the stack, the last one first. -/
theorem readWords_pushAll (s : Stack) (ws : List (BitVec 32))
    (h : 4 * ws.length < 2 ^ 32) :
    readWords (pushAll s ws).mem (pushAll s ws).esp ws.length = ws.reverse := by
  induction ws generalizing s with
  | nil =>
      rfl
  | cons w ws ih =>
      rw [List.length_cons] at h
      change readWords (pushAll (push s w) ws).mem (pushAll (push s w) ws).esp (ws.length + 1) = _
      have hbottom : (pushAll (push s w) ws).esp + BitVec.ofNat 32 (4 * ws.length) = s.esp - 4 := by
        rw [pushAll_esp]
        exact BitVec.sub_add_cancel _ _
      have hword : read (pushAll (push s w) ws).mem (s.esp - 4) = w := by
        have hsame : read (pushAll (push s w) ws).mem (s.esp - 4) =
            read (push s w).mem (s.esp - 4) := by
          apply read_congr
          intro x hx
          exact pushAll_mem_of_above (push s w) ws (by simp only [push]; omega)
        rw [hsame]
        exact read_write
      rw [readWords_succ, ih (push s w) (by omega), hbottom, hword, List.reverse_cons]

end Stacks

end StackMemory
