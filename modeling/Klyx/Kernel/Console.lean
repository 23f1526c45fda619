import Klyx.Kernel.Task
import Klyx.Lib.ForwardCopy

/-!
# The console: keyboard, screens and terminal calls

`kernel/console.c`, the terminal table of `kernel/tty.c`, `con_putstr_rev` of
`kernel/main.c` and the keyboard handler of `kernel/traps.c`.

`vga_copies` is one array in which the screen of terminal `t` starts at cell
`screen t`; VGA memory is another.  Both are counted in cells of two bytes, and
`memcpy` and `memset` move whole cells.  `kernel_start` fills the whole terminal
table, so no entry of it is missing.

**Runs.**  A `ConsoleEvent` is a keyboard interrupt or a call of one terminal
function, and `Console.run` executes a list of them.
-/

namespace Klyx

/-- A character cell of the text display. -/
abbrev Cell := BitVec 16

/-- `INPUT_BUF_CAP`. -/
def inputBufCap : Nat := 1024

/-- The first cell of a terminal in `vga_copies`. -/
def screen (tty : Nat) : Nat := tty * (80 * 25)

/-- The globals of the console. -/
structure Console where
  keysState : Nat → Bool
  /-- The four input queues: codes, heads and sizes. -/
  input : Nat → RingBuffer.Ring Byte
  currentTtyDispl : Nat
  errno : Errno
  conCursors : Nat → BitVec 16
  vgaCopies : Nat → Cell
  conAddr : Nat → Cell
  /-- Ghost record: the index inside the screen of every cell that was stored when
  text was written. -/
  stores : List Nat

/-- `TTY_CC_EOF`. -/
def ttyCcEof : Int := -1

/-- `scan_code_table_default`, a string literal padded with zeros. -/
def scanCodeTableDefault (sc : Byte) : Int :=
  -- the top row, then `q` to the brackets and Enter
  ([0, 27, 49, 50, 51, 52, 53, 54, 55, 56, 57, 48, 45, 61, 8, 9,
    113, 119, 101, 114, 116, 121, 117, 105, 111, 112, 91, 93, 10, 0,
    -- `a` to the backquote, then the lowest row and the space bar
    97, 115, 100, 102, 103, 104, 106, 107, 108, 59, 39, 96, 0, 92,
    122, 120, 99, 118, 98, 110, 109, 44, 46, 47, 0, 42, 0, 32, 0] ++
    List.replicate 12 0 ++
    -- the number pad
    [55, 56, 57, 52, 53, 54, 49, 50, 51, 48, 32, 46, 0, 0]).getD sc.toNat 0

/-- `scan_code_table_special`: Escape, F1 to F10 and the number pad. -/
def scanCodeTableSpecial (sc : Byte) : Int :=
  ([0, ttyCcEof] ++ List.replicate 57 0 ++
    [-12, -13, -14, -15, -16, -17, -18, -19, -20, -21, 0, 0,
      -24, -25, -26, 0, -27, -28, -29, 0, -30, -31, -32, -33]).getD sc.toNat 0

/-- The character or control code of a key. -/
def keyChar (sc : Byte) : Int :=
  if scanCodeTableSpecial sc ≠ 0 then scanCodeTableSpecial sc else scanCodeTableDefault sc

/-- `0x0F00 | ch`, where `ch` is a signed `char`. -/
def glyph (ch : Byte) : Cell :=
  0x0F00 ||| ch.signExtend 16

/-- `memcpy` inside one array, in cells. -/
def memcpy {α : Type} (mem : Nat → α) (s1 s2 n : Nat) : Nat → α :=
  ForwardCopy.copy mem s1 s2 n

/-- `memset`, in cells. -/
def memset {α : Type} (mem : Nat → α) (s : Nat) (x : α) (n : Nat) : Nat → α :=
  ForwardCopy.fill x mem s n

namespace Console

/-- A cell of the screen of a terminal in `vga_copies`. -/
def cell (c : Console) (tty i : Nat) : Cell :=
  c.vgaCopies (screen tty + i)

/-! ### Keyboard input -/

/-- The queue of the terminal that is shown. -/
def shownQueue (c : Console) : RingBuffer.Ring Byte :=
  c.input c.currentTtyDispl

/-- Assign the queue of the terminal that is shown. -/
def setShownQueue (c : Console) (ring : RingBuffer.Ring Byte) : Console :=
  { c with input := Function.update c.input c.currentTtyDispl ring }

/-- `pop_scancode`. -/
def popScancode (c : Console) : Console × Byte :=
  if c.shownQueue.size = 0 then ({ c with errno := .eagain }, 0)
  else
    (c.setShownQueue (RingBuffer.pop inputBufCap c.shownQueue),
      c.shownQueue.buf c.shownQueue.readHead)

/-- `push_scancode`. -/
def pushScancode (c : Console) (ch : Byte) : Console × Bool :=
  if c.shownQueue.size = inputBufCap - 1 then (c, false)
  else (c.setShownQueue (RingBuffer.push inputBufCap c.shownQueue ch), true)

/-- `con_read`. -/
def conRead (c : Console) (tty : Nat) : Console × Int :=
  if tty ≠ c.currentTtyDispl then (c, ttyCcEof)
  else (c.popScancode.1, keyChar c.popScancode.2)

/-- Assign an element of `keys_state`. -/
def setKey (c : Console) (key : Nat) (isDown : Bool) : Console :=
  { c with keysState := Function.update c.keysState key isDown }

/-- `con_handle_input`, where `status` is read from port 0x64 and `code` from
port 0x60. -/
def conHandleInput (c : Console) (status code : Byte) : Console × Int :=
  if status &&& 1 = 0 then (c, 0)
  else if code &&& 0x80 ≠ 0 then (c.setKey (code &&& 0x7F).toNat false, 0)
  else if c.keysState code.toNat then (c, 0)
  else if scanCodeTableSpecial code = 0 then
    (((c.setKey code.toNat true).pushScancode code).1, keyChar code)
  else (c.setKey code.toNat true, keyChar code)

/-- Show a terminal: one case of the switch in `int_keyboard_impl`. -/
def display (c : Console) (tty : Nat) : Console :=
  { c with
    currentTtyDispl := tty
    conAddr := ForwardCopy.copyInto c.vgaCopies c.conAddr 0 (screen tty) (80 * 25) }

/-- The switch in `int_keyboard_impl`: F1 to F4 show the terminals 0 to 3. -/
def keySwitch (c : Console) (ch : Int) : Console :=
  if ch = -12 then c.display 0
  else if ch = -13 then c.display 1
  else if ch = -14 then c.display 2
  else if ch = -15 then c.display 3
  else c

/-- `int_keyboard_impl`. -/
def intKeyboardImpl (c : Console) (status code : Byte) : Console :=
  (c.conHandleInput status code).1.keySwitch (c.conHandleInput status code).2

/-! ### Output -/

/-- Assign the cursor of a terminal. -/
def moveCursor (c : Console) (tty : Nat) (cur : BitVec 16) : Console :=
  { c with conCursors := Function.update c.conCursors tty cur }

/-- Store a character in `vga_copies` and, if the terminal is shown, in VGA
memory. -/
def store (c : Console) (tty i : Nat) (cell : Cell) : Console :=
  { c with
    vgaCopies := Function.update c.vgaCopies (screen tty + i) cell
    conAddr := if c.currentTtyDispl = tty then Function.update c.conAddr i cell else c.conAddr
    stores := i :: c.stores }

/-- Move the rows of a screen up by one and clear the last one. -/
def scrollRows (mem : Nat → Cell) (base : Nat) : Nat → Cell :=
  memset (memcpy mem base (base + 80) (80 * 24)) (base + 80 * 24) 0 80

/-- The cells that this stores: those of the `memcpy` and those of the `memset`. -/
def scrollStores : List Nat :=
  List.range (80 * 24) ++ (List.range 80).map (80 * 24 + ·)

/-- What happens when the cursor has left the screen. -/
def scroll (c : Console) (tty : Nat) : Console :=
  { c with
    conCursors := Function.update c.conCursors tty (80 * 24)
    vgaCopies := scrollRows c.vgaCopies (screen tty)
    conAddr := if c.currentTtyDispl = tty then scrollRows c.conAddr 0 else c.conAddr
    stores := scrollStores ++ c.stores }

/-- The switch in the loops of `con_putstr` and `con_putstr_rev`; `place` is the
cell that shows the character at a cursor. -/
def putGlyph (place : Nat → Nat) (c : Console) (tty : Nat) (ch : Byte) : Console :=
  let cur := c.conCursors tty
  -- newline, carriage return, tab, vertical tab, backspace
  if ch = 10 then c.moveCursor tty (cur + (80 - cur % 80))
  else if ch = 13 then c.moveCursor tty (cur - cur % 80)
  else if ch = 9 then c.moveCursor tty (cur + (8 - cur % 80 % 8))
  else if ch = 11 then c.moveCursor tty (cur + 80)
  else if ch = 8 then c.moveCursor tty (cur - 1)
  else (c.store tty (place cur.toNat) (glyph ch)).moveCursor tty (cur + 1)

/-- The check at the end of the loop body. -/
def scrollIfPast (c : Console) (tty : Nat) : Console :=
  if 80 * 25 ≤ (c.conCursors tty).toNat then c.scroll tty else c

/-- The body of the two loops. -/
def putChar (place : Nat → Nat) (tty : Nat) (c : Console) (ch : Byte) : Console :=
  (putGlyph place c tty ch).scrollIfPast tty

/-- Write a string; both routines return the number of characters. -/
def putStr (place : Nat → Nat) (c : Console) (tty : Nat) (buf : List Byte) : Console × Nat :=
  (buf.foldl (putChar place tty) c, buf.length)

/-- The cell that `con_putstr_rev` uses for a cursor. -/
def mirrored (cur : Nat) : Nat :=
  (79 - cur % 80) + cur / 80 * 80

/-- `con_putstr`. -/
def conPutstr (c : Console) (tty : Nat) (buf : List Byte) : Console × Nat :=
  putStr id c tty buf

/-- `con_putstr_rev`. -/
def conPutstrRev (c : Console) (tty : Nat) (buf : List Byte) : Console × Nat :=
  putStr mirrored c tty buf

/-- `con_setcur`, whose `cur` is an `int`. -/
def conSetcur (c : Console) (tty : Nat) (cur : Word) : Console :=
  if 80 * 25 ≤ cur.toInt then c else c.moveCursor tty (cur.setWidth 16)

/-- `tty_write`, through the table that `kernel_start` fills. -/
def ttyWrite (c : Console) (td : Nat) (buf : List Byte) : Console × Nat :=
  if td ≥ ttysCap then ({ c with errno := .efault }, 0)
  else
    let c := { c with errno := .eno }
    if td = 3 then c.conPutstrRev td buf else c.conPutstr td buf

/-- `tty_setcur`. -/
def ttySetcur (c : Console) (td : Nat) (cur : Word) : Console :=
  if td ≥ ttysCap then { c with errno := .efault } else c.conSetcur td cur

end Console

section Output

variable (c : Console) (tty i : Nat) (cur : BitVec 16) (cell : Cell)

@[simp] theorem Console.moveCursor_conCursors :
    (c.moveCursor tty cur).conCursors = Function.update c.conCursors tty cur := rfl

@[simp] theorem Console.moveCursor_vgaCopies :
    (c.moveCursor tty cur).vgaCopies = c.vgaCopies := rfl

@[simp] theorem Console.moveCursor_cell (t j : Nat) :
    (c.moveCursor tty cur).cell t j = c.cell t j := rfl

@[simp] theorem Console.moveCursor_conAddr : (c.moveCursor tty cur).conAddr = c.conAddr := rfl

@[simp] theorem Console.moveCursor_currentTtyDispl :
    (c.moveCursor tty cur).currentTtyDispl = c.currentTtyDispl := rfl

@[simp] theorem Console.moveCursor_stores : (c.moveCursor tty cur).stores = c.stores := rfl

@[simp] theorem Console.store_conCursors : (c.store tty i cell).conCursors = c.conCursors := rfl

@[simp] theorem Console.store_vgaCopies :
    (c.store tty i cell).vgaCopies = Function.update c.vgaCopies (screen tty + i) cell := rfl

@[simp] theorem Console.store_conAddr :
    (c.store tty i cell).conAddr =
      if c.currentTtyDispl = tty then Function.update c.conAddr i cell else c.conAddr := rfl

@[simp] theorem Console.store_currentTtyDispl :
    (c.store tty i cell).currentTtyDispl = c.currentTtyDispl := rfl

@[simp] theorem Console.store_stores : (c.store tty i cell).stores = i :: c.stores := rfl

@[simp] theorem Console.scroll_conCursors :
    (c.scroll tty).conCursors = Function.update c.conCursors tty (80 * 24) := rfl

@[simp] theorem Console.scroll_vgaCopies :
    (c.scroll tty).vgaCopies = scrollRows c.vgaCopies (screen tty) := rfl

@[simp] theorem Console.scroll_conAddr :
    (c.scroll tty).conAddr =
      if c.currentTtyDispl = tty then scrollRows c.conAddr 0 else c.conAddr := rfl

@[simp] theorem Console.scroll_currentTtyDispl :
    (c.scroll tty).currentTtyDispl = c.currentTtyDispl := rfl

@[simp] theorem Console.scroll_stores :
    (c.scroll tty).stores = scrollStores ++ c.stores := rfl

theorem Console.mem_scrollStores {i : Nat} :
    i ∈ scrollStores ↔ i < 80 * 25 := by
  unfold scrollStores
  rw [List.mem_append, List.mem_range, List.mem_map]
  constructor
  · rintro (hrows | ⟨j, hj, rfl⟩)
    · omega
    · rw [List.mem_range] at hj
      omega
  · intro hi
    by_cases hrows : i < 80 * 24
    · exact Or.inl hrows
    · exact Or.inr ⟨i - 80 * 24, List.mem_range.mpr (by omega), by omega⟩

/-- A character moves the cursor, and only a printed one is stored. -/
theorem Console.putGlyph_cases (place : Nat → Nat) (ch : Byte) :
    (∃ cur, putGlyph place c tty ch = c.moveCursor tty cur) ∨
    (∃ cur, putGlyph place c tty ch =
      (c.store tty (place (c.conCursors tty).toNat) (glyph ch)).moveCursor tty cur) := by
  unfold putGlyph
  split_ifs
  · exact Or.inl ⟨_, rfl⟩
  · exact Or.inl ⟨_, rfl⟩
  · exact Or.inl ⟨_, rfl⟩
  · exact Or.inl ⟨_, rfl⟩
  · exact Or.inl ⟨_, rfl⟩
  · exact Or.inr ⟨_, rfl⟩

/-- The screens do not overlap. -/
theorem screen_disjoint {t tty j : Nat}
    (ht : t ≠ tty)
    (hj : j < 80 * 25) :
    screen t + j < screen tty ∨ screen tty + 80 * 25 ≤ screen t + j := by
  unfold screen
  rcases Nat.lt_or_gt_of_ne ht with hlt | hgt
  · omega
  · omega

/-- Distinct cells of `vga_copies`. -/
theorem screen_add_inj {t tty i j : Nat}
    (hi : i < 80 * 25)
    (hj : j < 80 * 25) :
    screen t + j = screen tty + i ↔ t = tty ∧ j = i := by
  unfold screen
  omega

theorem Console.cell_store {t j : Nat}
    (hi : i < 80 * 25)
    (hj : j < 80 * 25) :
    (c.store tty i cell).cell t j = if t = tty ∧ j = i then cell else c.cell t j := by
  rw [Console.cell, store_vgaCopies, Function.update_apply]
  exact if_congr (screen_add_inj hi hj) rfl rfl

/-- The two ranges of the copy overlap, and nothing outside the screen changes. -/
theorem Console.scrollRows_apply (mem : Nat → Cell) (base k : Nat) :
    scrollRows mem base k =
      if base ≤ k ∧ k < base + 80 * 24 then mem (k + 80)
      else if base + 80 * 24 ≤ k ∧ k < base + 80 * 25 then 0
      else mem k := by
  rw [scrollRows, memset, memcpy, ForwardCopy.fill_apply, ForwardCopy.copy_apply (by omega)]
  by_cases hrows : base ≤ k ∧ k < base + 80 * 24
  · have hnotLast : ¬ (base + 80 * 24 ≤ k ∧ k < base + 80 * 24 + 80) := by omega
    have hsource : base + 80 + (k - base) = k + 80 := by omega
    rw [if_pos hrows, if_pos hrows, if_neg hnotLast, hsource]
  · rw [if_neg hrows, if_neg hrows]

/-- The cells of a screen after it scrolled. -/
theorem Console.scrollRows_screen {j : Nat}
    (mem : Nat → Cell)
    (base : Nat)
    (hj : j < 80 * 25) :
    scrollRows mem base (base + j) = if j < 80 * 24 then mem (base + (j + 80)) else 0 := by
  rw [scrollRows_apply]
  by_cases hrows : j < 80 * 24
  · have hin : base ≤ base + j ∧ base + j < base + 80 * 24 := by omega
    rw [if_pos hin, if_pos hrows, Nat.add_assoc]
  · have hout : ¬ (base ≤ base + j ∧ base + j < base + 80 * 24) := by omega
    have hlast : base + 80 * 24 ≤ base + j ∧ base + j < base + 80 * 25 := by omega
    rw [if_neg hout, if_pos hlast, if_neg hrows]

theorem Console.cell_scroll {t j : Nat}
    (hj : j < 80 * 25) :
    (c.scroll tty).cell t j =
      if t = tty then if j < 80 * 24 then c.cell t (j + 80) else 0 else c.cell t j := by
  rw [Console.cell, scroll_vgaCopies]
  by_cases ht : t = tty
  · rw [if_pos ht, ht, scrollRows_screen _ _ hj, Console.cell]
  · have hother := screen_disjoint ht hj
    have hout : ¬ (screen tty ≤ screen t + j ∧ screen t + j < screen tty + 80 * 24) := by omega
    have hlast : ¬ (screen tty + 80 * 24 ≤ screen t + j ∧
        screen t + j < screen tty + 80 * 25) := by
      omega
    rw [if_neg ht, scrollRows_apply, if_neg hout, if_neg hlast, Console.cell]

theorem Console.conAddr_scroll {j : Nat}
    (hj : j < 80 * 25) :
    (c.scroll tty).conAddr j =
      if c.currentTtyDispl = tty then if j < 80 * 24 then c.conAddr (j + 80) else 0
      else c.conAddr j := by
  rw [scroll_conAddr]
  by_cases hshown : c.currentTtyDispl = tty
  · have hrows := scrollRows_screen c.conAddr 0 hj
    simp only [Nat.zero_add] at hrows
    rw [if_pos hshown, if_pos hshown, hrows]
  · rw [if_neg hshown, if_neg hshown]

/-- What every character preserves holds after a string. -/
theorem Console.putStr_invariant {place : Nat → Nat} {c : Console} {tty : Nat}
    {buf : List Byte}
    (Inv : Console → Prop)
    (hinit : Inv c)
    (hstep : ∀ c ch, Inv c → Inv (putChar place tty c ch)) :
    Inv (c.putStr place tty buf).1 := by
  unfold putStr
  induction buf generalizing c with
  | nil =>
      exact hinit
  | cons ch buf ih =>
      exact ih (hstep c ch hinit)

/-- A character is shown in the row of its cursor. -/
theorem Console.mirrored_lt {cur : Nat}
    (h : cur < 80 * 25) :
    mirrored cur < 80 * 25 := by
  unfold mirrored
  omega

theorem Console.mirrored_inj {p q : Nat} :
    mirrored p = mirrored q ↔ p = q := by
  unfold mirrored
  omega

/-- Where the write routine of a terminal shows the character at a cursor. -/
def Console.placeOf (td : Nat) : Nat → Nat :=
  if td = 3 then mirrored else id

theorem Console.placeOf_lt {cur : Nat}
    (td : Nat)
    (h : cur < 80 * 25) :
    placeOf td cur < 80 * 25 := by
  unfold placeOf
  split_ifs
  · exact mirrored_lt h
  · exact h

/-- Two cursors show their characters in two cells. -/
theorem Console.placeOf_inj (td : Nat) {p q : Nat} :
    placeOf td p = placeOf td q ↔ p = q := by
  unfold placeOf
  split_ifs
  · exact mirrored_inj
  · exact Iff.rfl

/-- The terminals differ only in where they show a character. -/
theorem Console.ttyWrite_eq {td : Nat}
    (c : Console)
    (htd : td < ttysCap)
    (buf : List Byte) :
    c.ttyWrite td buf = { c with errno := .eno }.putStr (placeOf td) td buf := by
  unfold ttyWrite placeOf
  rw [if_neg (by omega)]
  dsimp only
  split_ifs <;> rfl

theorem Console.ttyWrite_efault {td : Nat}
    (c : Console)
    (htd : ¬ td < ttysCap)
    (buf : List Byte) :
    c.ttyWrite td buf = ({ c with errno := .efault }, 0) :=
  if_pos (by omega)

end Output

/-- Two states that differ at most in the keyboard and `errno`. -/
structure SameScreens (c c' : Console) : Prop where
  conCursors : c'.conCursors = c.conCursors
  vgaCopies : c'.vgaCopies = c.vgaCopies
  conAddr : c'.conAddr = c.conAddr
  currentTtyDispl : c'.currentTtyDispl = c.currentTtyDispl
  stores : c'.stores = c.stores

section Input

variable (c : Console)

theorem Console.conHandleInput_sameScreens (status code : Byte) :
    SameScreens c (c.conHandleInput status code).1 := by
  unfold conHandleInput pushScancode
  split_ifs <;> exact ⟨rfl, rfl, rfl, rfl, rfl⟩

theorem Console.conRead_sameScreens (tty : Nat) :
    SameScreens c (c.conRead tty).1 := by
  unfold conRead popScancode
  split_ifs <;> exact ⟨rfl, rfl, rfl, rfl, rfl⟩

/-- The switch in the keyboard handler shows a terminal or does nothing. -/
theorem Console.keySwitch_cases (ch : Int) :
    c.keySwitch ch = c ∨ ∃ tty < ttysCap, c.keySwitch ch = c.display tty := by
  unfold keySwitch
  split_ifs
  · exact Or.inr ⟨0, by decide, rfl⟩
  · exact Or.inr ⟨1, by decide, rfl⟩
  · exact Or.inr ⟨2, by decide, rfl⟩
  · exact Or.inr ⟨3, by decide, rfl⟩
  · exact Or.inl rfl

end Input

/-! ### Runs -/

/-- What can happen to the console. -/
inductive ConsoleEvent where
  /-- A keyboard interrupt, with the bytes on the ports 0x64 and 0x60. -/
  | keyboard (status code : Byte)
  /-- One turn of the loop of `tty_read`: clear `errno` and call `con_read`. -/
  | read (tty : Nat)
  | write (td : Nat) (buf : List Byte)
  | setcur (td : Nat) (cur : Word)
deriving DecidableEq

namespace Console

/-- Execute one event. -/
def step (c : Console) : ConsoleEvent → Console
  | .keyboard status code => c.intKeyboardImpl status code
  | .read tty => ({ c with errno := .eno }.conRead tty).1
  | .write td buf => (c.ttyWrite td buf).1
  | .setcur td cur => c.ttySetcur td cur

/-- Execute events from the left. -/
def run (c : Console) (es : List ConsoleEvent) : Console :=
  es.foldl step c

/-- The console when `kernel_start` has cleared VGA memory. -/
def boot : Console where
  keysState := fun _ => false
  input := fun _ => ⟨fun _ => 0, 0, 0, 0⟩
  currentTtyDispl := 0
  errno := .eno
  conCursors := fun _ => 0
  vgaCopies := fun _ => 0
  conAddr := fun _ => 0
  stores := []

theorem run_append (c : Console) (es₁ es₂ : List ConsoleEvent) :
    c.run (es₁ ++ es₂) = (c.run es₁).run es₂ :=
  List.foldl_append

/-- An invariant preserved by the events of a run holds at its end. -/
theorem run_invariant {Inv : Console → Prop} {c : Console} {es : List ConsoleEvent}
    (hinit : Inv c)
    (hstep : ∀ e ∈ es, ∀ c, Inv c → Inv (c.step e)) :
    Inv (c.run es) := by
  induction es generalizing c with
  | nil =>
      exact hinit
  | cons e es ih =>
      have hnext : Inv (c.step e) := hstep e (by simp) c hinit
      exact ih hnext (fun e he => hstep e (List.mem_cons_of_mem _ he))

end Console

end Klyx
