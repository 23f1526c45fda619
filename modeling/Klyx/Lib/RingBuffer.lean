import Mathlib.Logic.Function.Basic
import Mathlib.Data.Nat.ModEq

/-!
# Ring buffers refine bounded FIFO queues

A ring buffer keeps a storage array, a read index, a write index and a fill
count.  One cell always stays free: the producer stops at `cap - 1` elements.

**Abstraction.**  `contents cap r` lists the stored elements from the oldest to
the newest.

**Results.**
* `valid_push`, `valid_pop`: both operations keep the index invariant `Valid`.
* `contents_push`: pushing appends at the end of the queue.
* `contents_pop`: popping removes the element under the read index, which is
  the oldest one.
-/

namespace RingBuffer

universe u

/-- Storage, read index, write index and fill count. -/
structure Ring (α : Type u) where
  buf : Nat → α
  readHead : Nat
  writeHead : Nat
  size : Nat

section RingBuffer

variable {α : Type u} (cap : Nat)

/-- The index invariant of a ring of `cap` cells. -/
structure Valid (r : Ring α) : Prop where
  size_le : r.size ≤ cap - 1
  read_lt : r.readHead < cap
  write_lt : r.writeHead < cap
  write_eq : r.writeHead = (r.readHead + r.size) % cap

/-- Stored elements, oldest first. -/
def contents (r : Ring α) : List α :=
  (List.range r.size).map (fun i => r.buf ((r.readHead + i) % cap))

/-- Store an element under the write index. -/
def push (r : Ring α) (x : α) : Ring α :=
  { r with
    size := r.size + 1
    buf := Function.update r.buf r.writeHead x
    writeHead := (r.writeHead + 1) % cap }

/-- Release the element under the read index. -/
def pop (r : Ring α) : Ring α :=
  { r with
    size := r.size - 1
    readHead := (r.readHead + 1) % cap }

@[simp] theorem length_contents (r : Ring α) :
    (contents cap r).length = r.size := by
  simp [contents]

theorem contents_eq_nil_iff (r : Ring α) :
    contents cap r = [] ↔ r.size = 0 := by
  rw [← List.length_eq_zero_iff, length_contents]

/-- Two offsets inside the ring name the same cell only if they are equal. -/
theorem offset_injective {a i j : Nat}
    (hi : i < cap)
    (hj : j < cap)
    (h : (a + i) % cap = (a + j) % cap) :
    i = j := by
  have hmod : i ≡ j [MOD cap] := Nat.ModEq.add_left_cancel' a h
  exact Nat.ModEq.eq_of_lt_of_lt hmod hi hj

theorem valid_push {r : Ring α}
    (hv : Valid cap r)
    (hroom : r.size < cap - 1)
    (x : α) :
    Valid cap (push cap r x) := by
  have hcap : 0 < cap := by omega
  refine ⟨by simp only [push]; omega, hv.read_lt, Nat.mod_lt _ hcap, ?_⟩
  simp only [push, hv.write_eq, Nat.mod_add_mod]
  rw [Nat.add_assoc]

theorem valid_pop {r : Ring α}
    (hv : Valid cap r)
    (hsize : r.size ≠ 0) :
    Valid cap (pop cap r) := by
  have hcap : 0 < cap := by
    have := hv.read_lt
    omega
  refine ⟨?_, Nat.mod_lt _ hcap, hv.write_lt, ?_⟩
  · have := hv.size_le
    simp only [pop]
    omega
  · simp only [pop, hv.write_eq, Nat.mod_add_mod]
    congr 1
    omega

/-- Pushing appends at the end of the queue. -/
theorem contents_push {r : Ring α}
    (hv : Valid cap r)
    (hroom : r.size < cap - 1)
    (x : α) :
    contents cap (push cap r x) = contents cap r ++ [x] := by
  have hold : ∀ i, i < r.size →
      Function.update r.buf r.writeHead x ((r.readHead + i) % cap) =
        r.buf ((r.readHead + i) % cap) := by
    intro i hi
    apply Function.update_of_ne
    rw [hv.write_eq]
    intro h
    have := offset_injective cap (by omega) (by omega) h
    omega
  have hnew :
      Function.update r.buf r.writeHead x ((r.readHead + r.size) % cap) = x := by
    rw [← hv.write_eq]
    exact Function.update_self _ _ _
  simp only [contents, push, List.range_succ, List.map_append, List.map_cons,
    List.map_nil, hnew]
  congr 1
  apply List.map_congr_left
  intro i hi
  exact hold i (List.mem_range.mp hi)

/-- Popping removes the oldest element, the one under the read index. -/
theorem contents_pop {r : Ring α}
    (hv : Valid cap r)
    (hsize : r.size ≠ 0) :
    contents cap r = r.buf r.readHead :: contents cap (pop cap r) := by
  obtain ⟨n, hn⟩ := Nat.exists_eq_succ_of_ne_zero hsize
  have hfirst : (r.readHead + 0) % cap = r.readHead := Nat.mod_eq_of_lt hv.read_lt
  simp only [contents, pop, hn, Nat.succ_eq_add_one, Nat.add_sub_cancel,
    List.range_succ_eq_map, List.map_cons, List.map_map, hfirst]
  congr 1
  apply List.map_congr_left
  intro i _
  simp only [Function.comp_apply, Nat.mod_add_mod]
  congr 2
  omega

end RingBuffer

end RingBuffer
