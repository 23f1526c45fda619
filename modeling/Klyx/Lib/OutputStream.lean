import Klyx.Lib.CString
import Mathlib.Data.BitVec

/-!
# Output functions

An output function takes one character at a time and is told the character's
index, which is kept in a machine word.  A buffer of bounded size drops the
characters whose index lies past its end.

**Results.**
* `emit_append`: two texts one after the other are one text.
* `emit_store_outside`: a bounded buffer is not written past its end.
* `emit_store`: it holds the characters that fit.
-/

namespace OutputStream

variable {α β : Type} {w : Nat}

/-- What an output function has made of its buffer, and the next index. -/
structure Output (β : Type) (w : Nat) where
  buffer : β
  idx : BitVec w

/-- Hand on one character. -/
def put (out : α → β → BitVec w → β) (o : Output β w) (c : α) : Output β w :=
  ⟨out c o.buffer o.idx, o.idx + 1⟩

/-- Hand on a text. -/
def emit (out : α → β → BitVec w → β) (o : Output β w) (s : List α) : Output β w :=
  s.foldl (put out) o

/-- Store in a buffer of `n` characters. -/
def store (n : BitVec w) (c : α) (m : Nat → α) (i : BitVec w) : Nat → α :=
  if i.toNat < n.toNat then Function.update m i.toNat c else m

section Emit

variable {out : α → β → BitVec w → β} {o : Output β w} {s t : List α}

@[simp] theorem emit_nil :
    emit out o [] = o := rfl

@[simp] theorem emit_cons {c : α} :
    emit out o (c :: s) = emit out (put out o c) s := rfl

theorem emit_append :
    emit out o (s ++ t) = emit out (emit out o s) t :=
  List.foldl_append

theorem emit_idx :
    (emit out o s).idx = o.idx + BitVec.ofNat w s.length := by
  induction s generalizing o with
  | nil =>
      simp
  | cons c s ih =>
      have hsucc : BitVec.ofNat w (s.length + 1) = 1 + BitVec.ofNat w s.length := by
        rw [Nat.add_comm, BitVec.ofNat_add]
        rfl
      rw [emit_cons, ih, List.length_cons, hsucc, ← BitVec.add_assoc]
      rfl

/-- The index as a number, if it does not wrap. -/
theorem emit_idx_toNat
    (h : o.idx.toNat + s.length < 2 ^ w) :
    (emit out o s).idx.toNat = o.idx.toNat + s.length := by
  rw [emit_idx, BitVec.toNat_add, BitVec.toNat_ofNat, Nat.add_mod_mod, Nat.mod_eq_of_lt h]

/-- An output function that does not look at the index folds over the text. -/
theorem emit_fold (f : β → α → β) :
    (emit (fun c b _ => f b c) o s).buffer = s.foldl f o.buffer := by
  induction s generalizing o with
  | nil =>
      rfl
  | cons c s ih =>
      exact ih

end Emit

section Store

variable {n : BitVec w} {o : Output (Nat → α) w} {s : List α} {k : Nat}

/-- Nothing is written past the end, however long the text is. -/
theorem emit_store_outside
    (h : n.toNat ≤ k) :
    (emit (store n) o s).buffer k = o.buffer k := by
  induction s generalizing o with
  | nil =>
      rfl
  | cons c s ih =>
      rw [emit_cons, ih]
      unfold put store
      split
      · next hlt =>
          have hne : k ≠ o.idx.toNat := by omega
          exact Function.update_of_ne hne _ _
      · rfl

/-- The characters that fit are copied, if the index does not wrap. -/
theorem emit_store
    (hwrap : o.idx.toNat + s.length ≤ 2 ^ w) :
    (emit (store n) o s).buffer =
      CString.copy o.buffer o.idx.toNat (s.take (n.toNat - o.idx.toNat)) := by
  induction s generalizing o with
  | nil =>
      rw [List.take_nil]
      rfl
  | cons c s ih =>
      rw [List.length_cons] at hwrap
      have hput : (put (store n) o c).buffer =
          CString.copy o.buffer o.idx.toNat ([c].take (n.toNat - o.idx.toNat)) := by
        unfold put store
        dsimp only
        by_cases hlt : o.idx.toNat < n.toNat
        · rw [if_pos hlt, List.take_of_length_le (by rw [List.length_singleton]; omega)]
          rfl
        · rw [if_neg hlt, Nat.sub_eq_zero_of_le (Nat.le_of_not_lt hlt)]
          rfl
      rw [emit_cons]
      by_cases hnext : o.idx.toNat + 1 < 2 ^ w
      · have hidx : (put (store n) o c).idx.toNat = o.idx.toNat + 1 :=
          @emit_idx_toNat _ _ w (store n) o [c] hnext
        rw [ih (by omega), hidx, hput]
        by_cases hlt : o.idx.toNat < n.toNat
        · have hroom : n.toNat - o.idx.toNat = n.toNat - (o.idx.toNat + 1) + 1 := by omega
          rw [hroom, List.take_succ_cons, List.take_succ_cons, List.take_nil]
          rfl
        · have hnone : n.toNat - o.idx.toNat = 0 := Nat.sub_eq_zero_of_le (Nat.le_of_not_lt hlt)
          have hnone' : n.toNat - (o.idx.toNat + 1) = 0 := by omega
          rw [hnone, hnone']
          rfl
      · -- the index wraps behind the last character
        have hlast : s = [] := List.eq_nil_of_length_eq_zero (by omega)
        rw [hlast]
        exact hput

end Store

end OutputStream
