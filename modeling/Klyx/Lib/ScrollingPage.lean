import Mathlib.Logic.Function.Basic
import Mathlib.Algebra.Order.Ring.Nat
import Mathlib.Tactic.SplitIfs

/-!
# A scrolling screen as a window on an unbounded page

A page has rows of `cols` cells and no last row; its position never goes back to
an earlier row.  A screen of `rows` rows shows the part of the page that ends
with the row of the position, or the first rows while these are enough.

**Abstraction.**  `View p screen cursor` relates a page to the cells of a screen
and to a cursor that counts from the first cell shown.

**Results.**
* `View.write`: a cell written at the position is written at the cursor.
* `View.stay`: moves that leave the cursor on the screen.
* `View.scroll`: moves that take it past the screen, answered by scrolling one
  row.
-/

namespace ScrollingPage

universe u

/-- The cells of a page and a position in it. -/
structure Page (α : Type u) where
  cells : Nat → α
  pos : Nat

section ScrollingPage

variable {α : Type u} (cols rows : Nat) (blank : α)

/-- The empty page. -/
def Page.empty : Page α where
  cells := fun _ => blank
  pos := 0

/-- Write a cell at the position. -/
def Page.write (p : Page α) (x : α) : Page α :=
  { p with cells := Function.update p.cells p.pos x }

/-- Move the position. -/
def Page.moveTo (p : Page α) (pos : Nat) : Page α :=
  { p with pos := pos }

/-- The first row that a screen shows. -/
def top (pos : Nat) : Nat :=
  pos / cols + 1 - rows

/-- Move the rows of a screen up by one. -/
def scrolled (screen : Nat → α) (i : Nat) : α :=
  if i < cols * (rows - 1) then screen (i + cols) else blank

/-- The screen shows its window of the page, and rows below the position are
blank. -/
structure View (p : Page α) (screen : Nat → α) (cursor : Nat) : Prop where
  cells : ∀ i, i < cols * rows → screen i = p.cells (cols * top cols rows p.pos + i)
  cursor : cursor + cols * top cols rows p.pos = p.pos
  fresh : ∀ k, cols * (p.pos / cols + 1) ≤ k → p.cells k = blank

namespace View

variable {cols rows : Nat} {blank : α} {p : Page α} {screen : Nat → α} {cursor : Nat}

/-- Only the cells on the screen matter. -/
theorem congr {screen' : Nat → α}
    (h : View cols rows blank p screen cursor)
    (hsame : ∀ i, i < cols * rows → screen' i = screen i) :
    View cols rows blank p screen' cursor :=
  ⟨fun i hi => (hsame i hi).trans (h.cells i hi), h.cursor, h.fresh⟩

/-- The last row shown is not above the row of the position. -/
theorem row_lt (cols rows pos : Nat) :
    pos / cols + 1 ≤ top cols rows pos + rows := by
  unfold top
  omega

theorem pos_lt
    (hcols : 0 < cols)
    (pos : Nat) :
    pos < cols * (pos / cols + 1) :=
  Nat.lt_mul_div_succ pos hcols

/-- The cursor is on the screen. -/
theorem cursor_lt
    (h : View cols rows blank p screen cursor)
    (hcols : 0 < cols) :
    cursor < cols * rows := by
  have hlast : cols * (p.pos / cols + 1) ≤ cols * (top cols rows p.pos + rows) :=
    Nat.mul_le_mul_left cols (row_lt cols rows p.pos)
  have hpos := pos_lt hcols p.pos
  have hcursor := h.cursor
  rw [Nat.mul_add cols (top cols rows p.pos) rows] at hlast
  omega

/-- Writing at the position is writing at the cursor. -/
theorem write
    (h : View cols rows blank p screen cursor)
    (hcols : 0 < cols)
    (x : α) :
    View cols rows blank (p.write x) (Function.update screen cursor x) cursor := by
  have hcursor := h.cursor
  refine ⟨?_, hcursor, ?_⟩
  · intro i hi
    have hiff : i = cursor ↔ cols * top cols rows p.pos + i = p.pos := by omega
    simp only [Page.write, Function.update_apply, h.cells i hi]
    exact if_congr hiff rfl rfl
  · intro k hk
    have hne : k ≠ p.pos := by
      have := pos_lt hcols p.pos
      simp only [Page.write] at hk
      omega
    simp only [Page.write, Function.update_of_ne hne]
    exact h.fresh k hk

/-- A position that stays in its row, or goes to the start of the next one. -/
theorem row_of_le {pos : Nat}
    (hcols : 0 < cols)
    (hlow : cols * (p.pos / cols) ≤ pos)
    (hhigh : pos ≤ cols * (p.pos / cols + 1)) :
    pos / cols = p.pos / cols ∨
    (pos = cols * (p.pos / cols + 1) ∧ pos / cols = p.pos / cols + 1) := by
  rcases Nat.lt_or_eq_of_le hhigh with hlt | heq
  · left
    rw [Nat.mul_comm] at hlow hlt
    exact Nat.div_eq_of_lt_le hlow hlt
  · right
    exact ⟨heq, by rw [heq, Nat.mul_div_cancel_left _ hcols]⟩

/-- A move that does not take the cursor past the screen. -/
theorem stay {pos cursor' : Nat}
    (h : View cols rows blank p screen cursor)
    (hcols : 0 < cols)
    (hlow : cols * (p.pos / cols) ≤ pos)
    (hhigh : pos ≤ cols * (p.pos / cols + 1))
    (hcursor : cursor' + p.pos = cursor + pos)
    (hin : cursor' < cols * rows) :
    View cols rows blank (p.moveTo pos) screen cursor' := by
  have hold := h.cursor
  have hnew : cursor' + cols * top cols rows p.pos = pos := by omega
  have htop : top cols rows pos = top cols rows p.pos := by
    rcases row_of_le hcols hlow hhigh with hsame | ⟨hstart, hdown⟩
    · unfold top
      rw [hsame]
    · -- the next row is still shown, so nothing was scrolled away
      have hrow : p.pos / cols + 1 < rows + top cols rows p.pos := by
        have hlt : cols * (p.pos / cols + 1) < cols * (rows + top cols rows p.pos) := by
          rw [Nat.mul_add cols rows]
          omega
        exact Nat.lt_of_mul_lt_mul_left hlt
      unfold top at hrow ⊢
      omega
  have hrow : p.pos / cols ≤ pos / cols := by
    rcases row_of_le hcols hlow hhigh with hsame | ⟨-, hdown⟩
    · omega
    · omega
  refine ⟨?_, ?_, ?_⟩
  · intro i hi
    simp only [Page.moveTo, htop]
    exact h.cells i hi
  · simp only [Page.moveTo, htop]
    exact hnew
  · intro k hk
    refine h.fresh k (Nat.le_trans (Nat.mul_le_mul_left cols ?_) hk)
    simp only [Page.moveTo]
    omega

/-- A move that takes the cursor past the screen: one row is scrolled away. -/
theorem scroll {pos cursor' : Nat}
    (h : View cols rows blank p screen cursor)
    (hcols : 0 < cols)
    (hrows : 0 < rows)
    (hhigh : pos ≤ cols * (p.pos / cols + 1))
    (hcursor : cursor' + p.pos = cursor + pos)
    (hpast : cols * rows ≤ cursor') :
    View cols rows blank (p.moveTo pos) (scrolled cols rows blank screen) (cols * (rows - 1)) := by
  have hold := h.cursor
  have hnew : cursor' + cols * top cols rows p.pos = pos := by omega
  have hbeyond : cols * (rows + top cols rows p.pos) ≤ pos := by
    rw [Nat.mul_add]
    omega
  -- the position goes to the start of the row below the last one shown
  have hrow : rows + top cols rows p.pos = p.pos / cols + 1 := by
    have hle : rows + top cols rows p.pos ≤ p.pos / cols + 1 :=
      Nat.le_of_mul_le_mul_left (Nat.le_trans hbeyond hhigh) hcols
    have hge := row_lt cols rows p.pos
    omega
  have hstart : pos = cols * (p.pos / cols + 1) := by
    rw [hrow] at hbeyond
    omega
  have hdown : pos / cols = p.pos / cols + 1 := by
    rw [hstart, Nat.mul_div_cancel_left _ hcols]
  have htop : top cols rows pos = top cols rows p.pos + 1 := by
    unfold top at hrow ⊢
    omega
  have hlast : cols * (rows - 1) + cols = cols * rows := by
    rw [← Nat.mul_succ, Nat.succ_eq_add_one, Nat.sub_add_cancel hrows]
  refine ⟨?_, ?_, ?_⟩
  · intro i hi
    simp only [Page.moveTo, htop, scrolled, Nat.mul_add, Nat.mul_one]
    split_ifs with hkept
    · rw [h.cells (i + cols) (by omega)]
      congr 1
      omega
    · refine (h.fresh _ ?_).symm
      rw [← hrow, Nat.mul_add]
      omega
  · simp only [Page.moveTo, htop]
    rw [hstart, ← hrow, Nat.mul_add, Nat.mul_add]
    omega
  · intro k hk
    refine h.fresh k (Nat.le_trans (Nat.mul_le_mul_left cols ?_) hk)
    simp only [Page.moveTo, hdown]
    omega

/-- A blank screen shows the empty page. -/
theorem empty
    (hrows : 0 < rows)
    (hblank : ∀ i, i < cols * rows → screen i = blank) :
    View cols rows blank (Page.empty blank) screen 0 := by
  have htop : top cols rows 0 = 0 := by
    unfold top
    rw [Nat.zero_div]
    omega
  refine ⟨hblank, ?_, fun _ _ => rfl⟩
  simp only [Page.empty, htop, Nat.mul_zero]

end View

end ScrollingPage

end ScrollingPage
