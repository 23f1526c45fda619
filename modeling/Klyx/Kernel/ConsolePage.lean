import Klyx.Kernel.Console
import Klyx.Lib.ScrollingPage

/-!
# The console shows the last rows of an unbounded page

`layout` puts a text on a page of 80 columns with as many rows as it takes.
A terminal that was blank when the text was written to it shows the window of 25
rows that ends with the row of the final position.

The two are compared character by character.  A character takes the position
to the next row at most, so one row at most has to be scrolled away.

**Results.**
* `Shows.putChar`: one character.
* `console_shows_last_rows`: every text, in any number of calls of `con_putstr`.
-/

namespace Klyx

open ScrollingPage

/-- A character of 7 bits that neither moves back a cell nor leaves its column. -/
def Plain (ch : Byte) : Prop :=
  ch.toNat < 0x80 ∧ ch ≠ 8 ∧ ch ≠ 11

instance (ch : Byte) : Decidable (Plain ch) :=
  inferInstanceAs (Decidable (_ ∧ _))

/-- Put a character on the page: newline, carriage return, tab or a cell. -/
def layChar (p : Page Cell) (ch : Byte) : Page Cell :=
  if ch = 10 then p.moveTo (p.pos / 80 * 80 + 80)
  else if ch = 13 then p.moveTo (p.pos / 80 * 80)
  else if ch = 9 then p.moveTo (p.pos / 80 * 80 + (p.pos % 80 / 8 + 1) * 8)
  else (p.write (0x0F00 ||| ch.setWidth 16)).moveTo (p.pos + 1)

/-- The page that holds a text. -/
def layout (text : List Byte) : Page Cell :=
  text.foldl layChar (Page.empty 0)

/-- A terminal shows its window of a page. -/
def Shows (tty : Nat) (c : Console) (p : Page Cell) : Prop :=
  View 80 25 0 p (c.cell tty) (c.conCursors tty).toNat

/-- A character of 7 bits is not changed by the sign extension. -/
theorem glyph_of_lt : ∀ ch : Byte, ch.toNat < 0x80 → glyph ch = 0x0F00 ||| ch.setWidth 16 := by
  decide +kernel

section Cursors

variable {cur : BitVec 16}

theorem toNat_newline
    (h : cur.toNat < 80 * 25) :
    (cur + (80 - cur % 80)).toNat = cur.toNat / 80 * 80 + 80 := by
  simp only [BitVec.toNat_add, BitVec.toNat_sub, BitVec.toNat_umod, BitVec.ofNat_eq_ofNat,
    BitVec.toNat_ofNat, Nat.reducePow, Nat.reduceMod]
  omega

theorem toNat_carriageReturn
    (h : cur.toNat < 80 * 25) :
    (cur - cur % 80).toNat = cur.toNat / 80 * 80 := by
  simp only [BitVec.toNat_sub, BitVec.toNat_umod, BitVec.ofNat_eq_ofNat, BitVec.toNat_ofNat,
    Nat.reducePow, Nat.reduceMod]
  omega

theorem toNat_tab
    (h : cur.toNat < 80 * 25) :
    (cur + (8 - cur % 80 % 8)).toNat = cur.toNat / 80 * 80 + (cur.toNat % 80 / 8 + 1) * 8 := by
  simp only [BitVec.toNat_add, BitVec.toNat_sub, BitVec.toNat_umod, BitVec.ofNat_eq_ofNat,
    BitVec.toNat_ofNat, Nat.reducePow, Nat.reduceMod]
  omega

theorem toNat_next
    (h : cur.toNat < 80 * 25) :
    (cur + 1).toNat = cur.toNat + 1 := by
  simp only [BitVec.toNat_add, BitVec.ofNat_eq_ofNat,
    BitVec.toNat_ofNat, Nat.reducePow, Nat.reduceMod]
  omega

end Cursors

namespace Shows

variable {c : Console} {p : Page Cell} {tty : Nat} {ch : Byte}

theorem cursor_lt
    (h : Shows tty c p) :
    (c.conCursors tty).toNat < 80 * 25 :=
  View.cursor_lt h (by decide)

/-- The cursor and the position are in the same column. -/
theorem exists_rows
    (h : Shows tty c p) :
    ∃ rows, p.pos = (c.conCursors tty).toNat + 80 * rows :=
  ⟨_, h.cursor.symm⟩

/-- The check at the end of the loop body scrolls exactly when the window moves. -/
theorem scrollIfPast {cursor pos : Nat}
    (h : View 80 25 0 p (c.cell tty) cursor)
    (hlow : 80 * (p.pos / 80) ≤ pos)
    (hhigh : pos ≤ 80 * (p.pos / 80 + 1))
    (hcursor : (c.conCursors tty).toNat + p.pos = cursor + pos) :
    Shows tty (c.scrollIfPast tty) (p.moveTo pos) := by
  unfold Console.scrollIfPast
  by_cases hpast : 80 * 25 ≤ (c.conCursors tty).toNat
  · rw [if_pos hpast]
    have hview := h.scroll (by decide) (by decide) hhigh hcursor hpast
    have hcur : ((c.scroll tty).conCursors tty).toNat = 80 * (25 - 1) := by
      rw [Console.scroll_conCursors, Function.update_self]
      rfl
    rw [Shows, hcur]
    refine hview.congr ?_
    intro i hi
    rw [c.cell_scroll tty hi, if_pos rfl]
    rfl
  · rw [if_neg hpast]
    exact h.stay (by decide) hlow hhigh hcursor (by omega)

/-- A character that only moves the cursor. -/
theorem putMove {cur : BitVec 16} {pos : Nat}
    (h : Shows tty c p)
    (hlow : 80 * (p.pos / 80) ≤ pos)
    (hhigh : pos ≤ 80 * (p.pos / 80 + 1))
    (hcursor : cur.toNat + p.pos = (c.conCursors tty).toNat + pos) :
    Shows tty ((c.moveCursor tty cur).scrollIfPast tty) (p.moveTo pos) := by
  refine scrollIfPast (c := c.moveCursor tty cur) h hlow hhigh ?_
  rw [Console.moveCursor_conCursors, Function.update_self]
  exact hcursor

/-- A character that is stored. -/
theorem putCell {cell : Cell}
    (h : Shows tty c p) :
    Shows tty
      (((c.store tty (c.conCursors tty).toNat cell).moveCursor tty
        (c.conCursors tty + 1)).scrollIfPast tty)
      ((p.write cell).moveTo (p.pos + 1)) := by
  have hlt := h.cursor_lt
  have hwritten := View.write h (by decide) cell
  have hview : View 80 25 0 (p.write cell)
      ((c.store tty (c.conCursors tty).toNat cell).cell tty) (c.conCursors tty).toNat := by
    refine hwritten.congr ?_
    intro i hi
    rw [Console.cell_store _ _ _ _ hlt hi, Function.update_apply]
    exact if_congr (by simp) rfl rfl
  have hnext := toNat_next hlt
  have hrow := Nat.div_add_mod p.pos 80
  have hcol := Nat.mod_lt p.pos (Nat.zero_lt_succ 79)
  refine scrollIfPast (c := (c.store tty _ cell).moveCursor tty _) hview ?_ ?_ ?_
  · simp only [Page.write]
    omega
  · simp only [Page.write]
    omega
  · rw [Console.moveCursor_conCursors, Function.update_self, hnext]
    simp only [Page.write]
    omega

/-- One character, on the screen and on the page. -/
theorem putChar
    (h : Shows tty c p)
    (hch : Plain ch) :
    Shows tty (c.putChar id tty ch) (layChar p ch) := by
  have hlt := h.cursor_lt
  obtain ⟨rows, hpos⟩ := h.exists_rows
  obtain ⟨hsigned, hback, hdown⟩ := hch
  unfold Console.putChar Console.putGlyph layChar
  by_cases hnewline : ch = 10
  · rw [if_pos hnewline, if_pos hnewline]
    have hcur := toNat_newline hlt
    exact h.putMove (by omega) (by omega) (by omega)
  rw [if_neg hnewline, if_neg hnewline]
  by_cases hreturn : ch = 13
  · rw [if_pos hreturn, if_pos hreturn]
    have hcur := toNat_carriageReturn hlt
    exact h.putMove (by omega) (by omega) (by omega)
  rw [if_neg hreturn, if_neg hreturn]
  by_cases htab : ch = 9
  · rw [if_pos htab, if_pos htab]
    have hcur := toNat_tab hlt
    exact h.putMove (by omega) (by omega) (by omega)
  rw [if_neg htab, if_neg htab, if_neg hdown, if_neg hback, glyph_of_lt ch hsigned]
  exact h.putCell

/-- A text, in one call. -/
theorem conPutstr {buf : List Byte}
    (h : Shows tty c p)
    (hbuf : ∀ ch ∈ buf, Plain ch) :
    Shows tty (c.conPutstr tty buf).1 (buf.foldl layChar p) := by
  change Shows tty (buf.foldl (Console.putChar id tty) c) _
  induction buf generalizing c p with
  | nil =>
      exact h
  | cons ch buf ih =>
      exact ih (h.putChar (hbuf ch (by simp))) (fun ch hch => hbuf ch (List.mem_cons_of_mem _ hch))

/-- A text, in several calls. -/
theorem calls {bufs : List (List Byte)}
    (h : Shows tty c p)
    (hbufs : ∀ buf ∈ bufs, ∀ ch ∈ buf, Plain ch) :
    Shows tty (bufs.foldl (fun c buf => (c.conPutstr tty buf).1) c)
      (bufs.flatten.foldl layChar p) := by
  induction bufs generalizing c p with
  | nil =>
      exact h
  | cons buf bufs ih =>
      rw [List.foldl_cons, List.flatten_cons, List.foldl_append]
      exact ih (h.conPutstr (hbufs buf (by simp)))
        (fun buf hbuf => hbufs buf (List.mem_cons_of_mem _ hbuf))

end Shows

/-- **A text written to a blank terminal is seen through the last 25 rows of the
page that holds it.** -/
theorem console_shows_last_rows (c : Console) (tty : Nat) (bufs : List (List Byte))
    (hblank : ∀ i, i < 80 * 25 → c.cell tty i = 0)
    (hcursor : c.conCursors tty = 0)
    (hbufs : ∀ buf ∈ bufs, ∀ ch ∈ buf, Plain ch) :
    (∀ i, i < 80 * 25 →
      (bufs.foldl (fun c buf => (c.conPutstr tty buf).1) c).cell tty i =
        (layout bufs.flatten).cells (80 * ((layout bufs.flatten).pos / 80 - 24) + i)) ∧
    ((bufs.foldl (fun c buf => (c.conPutstr tty buf).1) c).conCursors tty).toNat =
      (layout bufs.flatten).pos - 80 * ((layout bufs.flatten).pos / 80 - 24) := by
  have hstart : Shows tty c (Page.empty 0) := by
    rw [Shows, hcursor]
    exact View.empty (by decide) hblank
  have hend : Shows tty _ (layout bufs.flatten) := hstart.calls hbufs
  have htop : top 80 25 (layout bufs.flatten).pos = (layout bufs.flatten).pos / 80 - 24 := by
    unfold top
    omega
  have hcells := hend.cells
  have hpos := hend.cursor
  rw [htop] at hcells hpos
  exact ⟨hcells, by omega⟩

/-- Thirty lines, one a call, and a character with a tab in front: the first six rows of
the page have left the screen. -/
theorem console_shows_last_rows_sample :
    let bufs : List (List Byte) := List.replicate 30 [65, 10] ++ [[9, 66]]
    let c := bufs.foldl (fun c buf => (c.conPutstr 1 buf).1) Console.boot
    c.cell 1 (80 * 24 + 8) = 0x0F42 ∧ (c.conCursors 1).toNat = 80 * 24 + 9 := by
  intro bufs c
  have hshown := console_shows_last_rows Console.boot 1 bufs (fun _ _ => rfl) rfl
    (by decide +kernel)
  have hpos : (layout bufs.flatten).pos = 80 * 30 + 9 := by
    decide +kernel
  rw [hpos] at hshown
  have hcell := hshown.1 (80 * 24 + 8) (by omega)
  have hcursor := hshown.2
  constructor
  · exact hcell.trans (by decide +kernel)
  · omega

end Klyx
