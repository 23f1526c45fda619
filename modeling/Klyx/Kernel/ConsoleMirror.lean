import Klyx.Kernel.Console

/-!
# The mirrored console

`con_putstr_rev` shows every row from right to left.  Two consoles are mirror
images of each other for a terminal if the cursors agree and each row of one
screen is the reversal of the same row of the other, in `vga_copies` and in VGA
memory.

The two write routines move the cursor alike and differ in the cell that they
store to, which is its mirror image; scrolling moves whole rows.  So each
character preserves the relation.

**Results.**
* `MirrorImage.putChar`: one character.
* `mirrored_console_simulates`: every string.
-/

namespace Klyx

/-- Each row of one screen is the reversal of the same row of the other. -/
def RowsReversed (f g : Nat → Cell) : Prop :=
  ∀ row < 25, ∀ col < 80, f (80 * row + col) = g (80 * row + (79 - col))

/-- The screen of a terminal, and VGA memory, in mirror image. -/
structure MirrorImage (tty : Nat) (m c : Console) : Prop where
  displayed : m.currentTtyDispl = tty ↔ c.currentTtyDispl = tty
  cursor : m.conCursors tty = c.conCursors tty
  cells : RowsReversed (m.cell tty) (c.cell tty)
  conAddr : RowsReversed m.conAddr c.conAddr

/-- The cursor is in a cell of the screen. -/
def CursorInside (tty : Nat) (c : Console) : Prop :=
  (c.conCursors tty).toNat < 80 * 25

instance (tty : Nat) (c : Console) : Decidable (CursorInside tty c) :=
  inferInstanceAs (Decidable (_ < _))

section Rows

variable {f g f' g' : Nat → Cell}

/-- A cell and its mirror image. -/
theorem rowsReversed_iff :
    RowsReversed f g ↔ ∀ i < 80 * 25, f (Console.mirrored i) = g i := by
  unfold RowsReversed Console.mirrored
  constructor
  · intro h i hi
    have hrow := h (i / 80) (by omega) (79 - i % 80) (by omega)
    have hleft : 79 - i % 80 + i / 80 * 80 = 80 * (i / 80) + (79 - i % 80) := by omega
    have hright : 80 * (i / 80) + (79 - (79 - i % 80)) = i := by omega
    rw [hright] at hrow
    rw [hleft]
    exact hrow
  · intro h row hrow col hcol
    have hcell := h (80 * row + (79 - col)) (by omega)
    have hleft : 79 - (80 * row + (79 - col)) % 80 + (80 * row + (79 - col)) / 80 * 80 =
        80 * row + col := by
      omega
    rwa [hleft] at hcell

/-- The same cell is stored in both. -/
theorem RowsReversed.store
    (h : RowsReversed f g)
    (i : Nat)
    (cell : Cell)
    (hf : ∀ j < 80 * 25, f' j = if j = Console.mirrored i then cell else f j)
    (hg : ∀ j < 80 * 25, g' j = if j = i then cell else g j) :
    RowsReversed f' g' := by
  rw [rowsReversed_iff] at h ⊢
  intro j hj
  rw [hf _ (Console.mirrored_lt hj), hg j hj, h j hj]
  exact if_congr Console.mirrored_inj rfl rfl

/-- Both move up by one row. -/
theorem RowsReversed.scroll
    (h : RowsReversed f g)
    (hf : ∀ j < 80 * 25, f' j = if j < 80 * 24 then f (j + 80) else 0)
    (hg : ∀ j < 80 * 25, g' j = if j < 80 * 24 then g (j + 80) else 0) :
    RowsReversed f' g' := by
  intro row hrow col hcol
  rw [hf _ (by omega), hg _ (by omega)]
  by_cases hlast : row < 24
  · have hnext := h (row + 1) (by omega) col hcol
    have hleft : 80 * row + col + 80 = 80 * (row + 1) + col := by omega
    have hright : 80 * row + (79 - col) + 80 = 80 * (row + 1) + (79 - col) := by omega
    rw [if_pos (by omega), if_pos (by omega), hleft, hright]
    exact hnext
  · rw [if_neg (by omega), if_neg (by omega)]

end Rows

/-- The check at the end of the loop body keeps the cursor on the screen. -/
theorem cursorInside_putChar (place : Nat → Nat) (tty : Nat) (c : Console) (ch : Byte) :
    CursorInside tty (c.putChar place tty ch) := by
  unfold CursorInside Console.putChar Console.scrollIfPast
  split_ifs with hpast
  · rw [Console.scroll_conCursors, Function.update_self]
    decide
  · omega

namespace MirrorImage

variable {tty : Nat} {m c : Console}

theorem moveCursor
    (h : MirrorImage tty m c)
    (cur : BitVec 16) :
    MirrorImage tty (m.moveCursor tty cur) (c.moveCursor tty cur) :=
  ⟨h.displayed, by simp, h.cells, h.conAddr⟩

theorem store {i : Nat}
    (h : MirrorImage tty m c)
    (hi : i < 80 * 25)
    (cell : Cell) :
    MirrorImage tty (m.store tty (Console.mirrored i) cell) (c.store tty i cell) := by
  refine ⟨h.displayed, h.cursor, ?_, ?_⟩
  · refine h.cells.store i cell ?_ ?_
    · intro j hj
      rw [Console.cell_store _ _ _ _ (Console.mirrored_lt hi) hj]
      simp
    · intro j hj
      rw [Console.cell_store _ _ _ _ hi hj]
      simp
  · rw [Console.store_conAddr, Console.store_conAddr]
    by_cases hshown : c.currentTtyDispl = tty
    · rw [if_pos hshown, if_pos (h.displayed.mpr hshown)]
      exact h.conAddr.store i cell (fun _ _ => Function.update_apply _ _ _ _)
        (fun _ _ => Function.update_apply _ _ _ _)
    · rw [if_neg hshown, if_neg (fun heq => hshown (h.displayed.mp heq))]
      exact h.conAddr

theorem scroll
    (h : MirrorImage tty m c) :
    MirrorImage tty (m.scroll tty) (c.scroll tty) := by
  refine ⟨h.displayed, by simp, ?_, ?_⟩
  · refine h.cells.scroll ?_ ?_
    · intro j hj
      rw [m.cell_scroll tty hj, if_pos rfl]
    · intro j hj
      rw [c.cell_scroll tty hj, if_pos rfl]
  · by_cases hshown : c.currentTtyDispl = tty
    · refine h.conAddr.scroll ?_ ?_
      · intro j hj
        rw [m.conAddr_scroll tty hj, if_pos (h.displayed.mpr hshown)]
      · intro j hj
        rw [c.conAddr_scroll tty hj, if_pos hshown]
    · rw [Console.scroll_conAddr, Console.scroll_conAddr, if_neg hshown,
        if_neg (fun heq => hshown (h.displayed.mp heq))]
      exact h.conAddr

/-- The switch: the cursors move alike, and a character goes to mirrored cells. -/
theorem putGlyph
    (h : MirrorImage tty m c)
    (hcursor : CursorInside tty c)
    (ch : Byte) :
    MirrorImage tty (Console.putGlyph Console.mirrored m tty ch)
      (Console.putGlyph id c tty ch) := by
  unfold Console.putGlyph
  rw [h.cursor]
  split_ifs
  · exact h.moveCursor _
  · exact h.moveCursor _
  · exact h.moveCursor _
  · exact h.moveCursor _
  · exact h.moveCursor _
  · exact (h.store hcursor _).moveCursor _

/-- One character. -/
theorem putChar
    (h : MirrorImage tty m c)
    (hcursor : CursorInside tty c)
    (ch : Byte) :
    MirrorImage tty (m.putChar Console.mirrored tty ch) (c.putChar id tty ch) := by
  have hglyph := h.putGlyph hcursor ch
  unfold Console.putChar Console.scrollIfPast
  rw [hglyph.cursor]
  split_ifs
  · exact hglyph.scroll
  · exact hglyph

end MirrorImage

/-- **The mirrored console is the mirror image of the plain one.** -/
theorem mirrored_console_simulates (tty : Nat) (m c : Console) (buf : List Byte)
    (h : MirrorImage tty m c)
    (hcursor : CursorInside tty c) :
    MirrorImage tty (m.conPutstrRev tty buf).1 (c.conPutstr tty buf).1 ∧
    (m.conPutstrRev tty buf).2 = (c.conPutstr tty buf).2 := by
  refine ⟨?_, rfl⟩
  change MirrorImage tty (buf.foldl (Console.putChar Console.mirrored tty) m)
    (buf.foldl (Console.putChar id tty) c)
  induction buf generalizing m c with
  | nil =>
      exact h
  | cons ch buf ih =>
      exact ih (m.putChar Console.mirrored tty ch) (c.putChar id tty ch) (h.putChar hcursor ch)
        (cursorInside_putChar id tty c ch)

/-- The theorem applies to a blank screen and its mirror image, at the last
cell. -/
theorem mirrored_console_simulates_sample :
    let c := Console.boot.moveCursor 3 1999
    MirrorImage 3 (c.conPutstrRev 3 [65, 9, 66]).1 (c.conPutstr 3 [65, 9, 66]).1 ∧
    (c.conPutstrRev 3 [65, 9, 66]).2 = (c.conPutstr 3 [65, 9, 66]).2 :=
  mirrored_console_simulates 3 (Console.boot.moveCursor 3 1999) (Console.boot.moveCursor 3 1999)
    [65, 9, 66] ⟨Iff.rfl, rfl, fun _ _ _ _ => rfl, fun _ _ _ _ => rfl⟩ (by decide)

end Klyx
