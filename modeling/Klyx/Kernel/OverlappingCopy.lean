import Klyx.Kernel.Console

/-!
# Copies that overlap

`memcpy` and `memset` of `string.h` on the bytes of the memory.  The loop of
`memcpy` goes up from the lowest byte, so it moves a range down by any distance:
a byte of the source that was overwritten has been read before.

Scrolling moves the lower rows of a screen over the upper ones in this way.  The
console works on cells of two bytes; `scrollBytes_cell` connects its scrolling
with the two calls on bytes.

**Results.**
* `forward_overlapping_copy`: what `memcpy` leaves in memory.
* `memcpyBytes_cell`, `memsetBytes_cell`: the same in cells.
* `scrollBytes_cell`: the screen after it scrolled.
-/

namespace Klyx

open ForwardCopy

/-- `memcpy`, where addresses wrap around.  It returns `s1`, which no caller uses. -/
def memcpyBytes (mem : Word → Byte) (s1 s2 n : Word) : Word → Byte :=
  copyMem mem s1 s2 n.toNat

/-- `memset`, which stores the low byte of `c`. -/
def memsetBytes (mem : Word → Byte) (s c n : Word) : Word → Byte :=
  fillMem (c.setWidth 8) mem s n.toNat

/-- The two calls that scroll the screen at an address. -/
def scrollBytes (mem : Word → Byte) (addr : Word) : Word → Byte :=
  let mem := memcpyBytes mem addr (addr + 80 * 2) (80 * 24 * 2)
  memsetBytes mem (addr + 80 * 24 * 2) 0 (80 * 2)

/-- A cell of an array in memory, with the low byte first. -/
def cellAt (mem : Word → Byte) (addr : Word) (i : Nat) : Cell :=
  mem (addr + BitVec.ofNat 32 (2 * i + 1)) ++ mem (addr + BitVec.ofNat 32 (2 * i))

section Bytes

variable {dst src n : Word} {i : Nat}

theorem add_ofNat (addr : Word) (k : Nat) :
    addr + BitVec.ofNat 32 k = BitVec.ofNat 32 (addr.toNat + k) := by
  rw [BitVec.ofNat_add, BitVec.ofNat_toNat, BitVec.setWidth_eq]

/-- Each byte after the copy, by its address. -/
theorem memcpyBytes_apply (mem : Word → Byte)
    (hle : dst ≤ src)
    (hwrap : src.toNat + n.toNat ≤ 2 ^ 32)
    (hi : i < 2 ^ 32) :
    memcpyBytes mem dst src n (BitVec.ofNat 32 i) =
      if dst.toNat ≤ i ∧ i < dst.toNat + n.toNat then
        mem (BitVec.ofNat 32 (src.toNat + (i - dst.toNat)))
      else mem (BitVec.ofNat 32 i) := by
  have hcopy := copyMem_apply mem (BitVec.le_def.mp hle) hwrap hi
  simp only [BitVec.ofNat_toNat, BitVec.setWidth_eq] at hcopy
  exact hcopy

end Bytes

/-- **A forward copy moves the range as a whole**, to a lower or equal address and
by any distance, as long as no address wraps around. -/
theorem forward_overlapping_copy (mem : Word → Byte) {dst src n : Word}
    (hle : dst ≤ src)
    (hwrap : src.toNat + n.toNat ≤ 2 ^ 32) :
    (∀ i, i < n.toNat →
      memcpyBytes mem dst src n (dst + BitVec.ofNat 32 i) = mem (src + BitVec.ofNat 32 i)) ∧
    ∀ a : Word, a.toNat < dst.toNat ∨ dst.toNat + n.toNat ≤ a.toNat →
      memcpyBytes mem dst src n a = mem a := by
  have hle' : dst.toNat ≤ src.toNat := BitVec.le_def.mp hle
  constructor
  · intro i hi
    have hin : dst.toNat ≤ dst.toNat + i ∧ dst.toNat + i < dst.toNat + n.toNat := by omega
    rw [add_ofNat, add_ofNat, memcpyBytes_apply mem hle hwrap (by omega), if_pos hin,
      Nat.add_sub_cancel_left]
  · intro a houtside
    have hout : ¬ (dst.toNat ≤ a.toNat ∧ a.toNat < dst.toNat + n.toNat) := by omega
    have hbyte := memcpyBytes_apply mem hle hwrap a.isLt
    rwa [if_neg hout, BitVec.ofNat_toNat, BitVec.setWidth_eq] at hbyte

/-- Three bytes are moved down by one address. -/
theorem forward_overlapping_copy_sample :
    let mem : Word → Byte := fun a => a.setWidth 8
    (∀ i, i < (3 : Word).toNat →
      memcpyBytes mem 100 101 3 (100 + BitVec.ofNat 32 i) = mem (101 + BitVec.ofNat 32 i)) ∧
    ∀ a : Word, a.toNat < (100 : Word).toNat ∨ (100 : Word).toNat + (3 : Word).toNat ≤ a.toNat →
      memcpyBytes mem 100 101 3 a = mem a :=
  forward_overlapping_copy (fun a => a.setWidth 8) (by decide) (by decide)

section Cells

variable {addr : Word} {s1 s2 n i j : Nat}

/-- Cells are the same if both bytes are. -/
theorem cellAt_congr {mem mem' : Word → Byte}
    (h : ∀ k, k < 2 →
      mem' (addr + BitVec.ofNat 32 (2 * i + k)) = mem (addr + BitVec.ofNat 32 (2 * j + k))) :
    cellAt mem' addr i = cellAt mem addr j := by
  have hlow := h 0 (by decide)
  simp only [Nat.add_zero] at hlow
  rw [cellAt, cellAt, h 1 (by decide), hlow]

/-- The two bytes of a cell lie in a range of cells, or both lie outside of it. -/
theorem byte_in_range_iff {a k : Nat}
    (hk : k < 2) :
    a + 2 * s1 ≤ a + (2 * i + k) ∧ a + (2 * i + k) < a + 2 * s1 + 2 * n ↔
      s1 ≤ i ∧ i < s1 + n := by
  omega

/-- A copy of bytes that are cells is one of cells. -/
theorem memcpyBytes_cell (mem : Word → Byte)
    (hle : s1 ≤ s2)
    (hroom : addr.toNat + 2 * (s2 + n) ≤ 2 ^ 32)
    (hn : 2 * n < 2 ^ 32)
    (hi : addr.toNat + (2 * i + 1) < 2 ^ 32) :
    cellAt (memcpyBytes mem (addr + BitVec.ofNat 32 (2 * s1)) (addr + BitVec.ofNat 32 (2 * s2))
      (BitVec.ofNat 32 (2 * n))) addr i = memcpy (cellAt mem addr) s1 s2 n i := by
  have hcount : (BitVec.ofNat 32 (2 * n)).toNat = 2 * n := by
    rw [BitVec.toNat_ofNat, Nat.mod_eq_of_lt hn]
  rw [memcpy, copy_apply hle]
  by_cases hin : s1 ≤ i ∧ i < s1 + n
  · rw [if_pos hin]
    apply cellAt_congr
    intro k hk
    have hsource : addr.toNat + 2 * s2 + (addr.toNat + (2 * i + k) - (addr.toNat + 2 * s1)) =
        addr.toNat + (2 * (s2 + (i - s1)) + k) := by omega
    simp only [memcpyBytes, hcount, add_ofNat]
    rw [copyMem_apply mem (by omega) (by omega) (by omega), if_pos ((byte_in_range_iff hk).mpr hin),
      hsource]
  · rw [if_neg hin]
    apply cellAt_congr
    intro k hk
    simp only [memcpyBytes, hcount, add_ofNat]
    rw [copyMem_apply mem (by omega) (by omega) (by omega),
      if_neg ((byte_in_range_iff hk).not.mpr hin)]

/-- Bytes that are cells are filled cell by cell. -/
theorem memsetBytes_cell (mem : Word → Byte) (c : Word)
    (hroom : addr.toNat + 2 * (s1 + n) ≤ 2 ^ 32)
    (hn : 2 * n < 2 ^ 32)
    (hi : addr.toNat + (2 * i + 1) < 2 ^ 32) :
    cellAt (memsetBytes mem (addr + BitVec.ofNat 32 (2 * s1)) c (BitVec.ofNat 32 (2 * n))) addr i =
      memset (cellAt mem addr) s1 (c.setWidth 8 ++ c.setWidth 8) n i := by
  have hcount : (BitVec.ofNat 32 (2 * n)).toNat = 2 * n := by
    rw [BitVec.toNat_ofNat, Nat.mod_eq_of_lt hn]
  rw [memset, fill_apply]
  by_cases hin : s1 ≤ i ∧ i < s1 + n
  · have hfilled : cellAt (fun _ => c.setWidth 8) addr i = c.setWidth 8 ++ c.setWidth 8 := rfl
    rw [if_pos hin, ← hfilled]
    apply cellAt_congr
    intro k hk
    simp only [memsetBytes, hcount, add_ofNat]
    rw [fillMem_apply _ mem (by omega) (by omega), if_pos ((byte_in_range_iff hk).mpr hin)]
  · rw [if_neg hin]
    apply cellAt_congr
    intro k hk
    simp only [memsetBytes, hcount, add_ofNat]
    rw [fillMem_apply _ mem (by omega) (by omega), if_neg ((byte_in_range_iff hk).not.mpr hin)]

/-- **Scrolling on bytes is scrolling on cells**, for each screen in an array of
cells at an address. -/
theorem scrollBytes_cell (mem : Word → Byte) (addr : Word) {base i : Nat}
    (hroom : addr.toNat + 2 * (base + 80 * 25) ≤ 2 ^ 32)
    (hi : addr.toNat + (2 * i + 1) < 2 ^ 32) :
    cellAt (scrollBytes mem (addr + BitVec.ofNat 32 (2 * base))) addr i =
      Console.scrollRows (cellAt mem addr) base i := by
  have hoffset : ∀ cells : Nat, addr + BitVec.ofNat 32 (2 * base) + BitVec.ofNat 32 (2 * cells) =
      addr + BitVec.ofNat 32 (2 * (base + cells)) := by
    intro cells
    rw [BitVec.add_assoc, ← BitVec.ofNat_add, ← Nat.mul_add]
  have hsource := hoffset 80
  have hlast := hoffset (80 * 24)
  have hrows : addr.toNat + 2 * (base + 80 + 80 * 24) ≤ 2 ^ 32 := by omega
  have hrow : addr.toNat + 2 * (base + 80 * 24 + 80) ≤ 2 ^ 32 := by omega
  have hcopy := memcpyBytes_cell mem (Nat.le_add_right base 80) hrows (by decide) hi
  have hfill := memsetBytes_cell (memcpyBytes mem (addr + BitVec.ofNat 32 (2 * base))
    (addr + BitVec.ofNat 32 (2 * (base + 80))) (BitVec.ofNat 32 (2 * (80 * 24)))) 0 hrow
    (by decide) hi
  rw [← hsource, ← hlast, memset, fill_apply] at hfill
  rw [← hsource] at hcopy
  rw [Console.scrollRows, memset, fill_apply, ← hcopy]
  exact hfill

end Cells

end Klyx
