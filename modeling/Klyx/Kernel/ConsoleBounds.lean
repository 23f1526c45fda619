import Klyx.Kernel.Console

/-!
# When the console stays in bounds

Whatever a character does to a cursor, the check at the end of the loop body
brings it back below `80 * 25` before the next character is stored.  A call of
`tty_setcur` is the other way to move a cursor.  Its argument is compared as a
signed number and stored in 16 bits, so that a negative one passes the check.

The indices that `InBounds` speaks of are recorded by the routines that store;
`Recorded` says that no cell changes without such a record.

**Results.**
* `InBounds.putStr`: writing keeps the bounds.
* `Recorded.ttyWrite`: it changes recorded cells only.
* `console_in_bounds_iff`: a run stays in bounds at every moment exactly when
  each of its `tty_setcur` calls is ignored or leaves a cursor on the screen.
-/

namespace Klyx

/-- The cursors are on the screen, and so was every cell stored. -/
structure InBounds (c : Console) : Prop where
  cursor : ∀ tty, tty < ttysCap → (c.conCursors tty).toNat < 80 * 25
  stores : ∀ i ∈ c.stores, i < 80 * 25

/-- A `tty_setcur` call that is ignored, or whose low 16 bits are a cell of the
screen. -/
def ConsoleEvent.KeepsCursor : ConsoleEvent → Prop
  | .setcur td cur =>
      td < ttysCap → 80 * 25 ≤ cur.toInt ∨ (cur.setWidth 16).toNat < 80 * 25
  | .keyboard _ _ => True
  | .read _ => True
  | .write _ _ => True

/-- A call of `tty_write` or `tty_setcur`. -/
def ConsoleEvent.IsCall : ConsoleEvent → Prop
  | .write _ _ => True
  | .setcur _ _ => True
  | .keyboard _ _ => False
  | .read _ => False

instance : DecidablePred ConsoleEvent.KeepsCursor := fun e => by
  cases e <;> unfold ConsoleEvent.KeepsCursor <;> infer_instance

namespace InBounds

variable {c c' : Console} {place : Nat → Nat} {tty : Nat}

theorem transfer
    (h : InBounds c)
    (hcursor : c'.conCursors = c.conCursors)
    (hstores : c'.stores = c.stores) :
    InBounds c' := by
  refine ⟨?_, ?_⟩
  · rw [hcursor]
    exact h.cursor
  · rw [hstores]
    exact h.stores

theorem moveCursor {cur : BitVec 16}
    (h : InBounds c)
    (hcur : cur.toNat < 80 * 25) :
    InBounds (c.moveCursor tty cur) := by
  refine ⟨?_, h.stores⟩
  intro t ht
  rw [Console.moveCursor_conCursors, Function.update_apply]
  split_ifs
  · exact hcur
  · exact h.cursor t ht

/-- The check after the switch repairs any cursor. -/
theorem scrollIfPast
    (hother : ∀ t, t < ttysCap → t ≠ tty → (c.conCursors t).toNat < 80 * 25)
    (hstores : ∀ i ∈ c.stores, i < 80 * 25) :
    InBounds (c.scrollIfPast tty) := by
  unfold Console.scrollIfPast
  by_cases hpast : 80 * 25 ≤ (c.conCursors tty).toNat
  · rw [if_pos hpast]
    refine ⟨?_, ?_⟩
    · intro t ht
      rw [Console.scroll_conCursors, Function.update_apply]
      split_ifs with hhere
      · decide
      · exact hother t ht hhere
    · intro i hi
      rw [Console.scroll_stores] at hi
      rcases List.mem_append.mp hi with hscrolled | hold
      · exact Console.mem_scrollStores.mp hscrolled
      · exact hstores i hold
  · rw [if_neg hpast]
    refine ⟨?_, hstores⟩
    intro t ht
    by_cases hhere : t = tty
    · rw [hhere]
      omega
    · exact hother t ht hhere

/-- One character: it is stored under a cursor that is still on the screen. -/
theorem putChar
    (h : InBounds c)
    (hplace : ∀ cur, cur < 80 * 25 → place cur < 80 * 25)
    (htty : tty < ttysCap)
    (ch : Byte) :
    InBounds (c.putChar place tty ch) := by
  have hother : ∀ cur t, t < ttysCap → t ≠ tty →
      (Function.update c.conCursors tty cur t).toNat < 80 * 25 := by
    intro cur t ht hne
    rw [Function.update_of_ne hne]
    exact h.cursor t ht
  unfold Console.putChar
  rcases c.putGlyph_cases tty place ch with ⟨cur, heq⟩ | ⟨cur, heq⟩ <;> rw [heq]
  · exact scrollIfPast (hother cur) h.stores
  · refine scrollIfPast (hother cur) ?_
    intro i hi
    rcases List.mem_cons.mp hi with rfl | hold
    · exact hplace _ (h.cursor tty htty)
    · exact h.stores i hold

theorem putStr
    (h : InBounds c)
    (hplace : ∀ cur, cur < 80 * 25 → place cur < 80 * 25)
    (htty : tty < ttysCap)
    (buf : List Byte) :
    InBounds (c.putStr place tty buf).1 :=
  Console.putStr_invariant InBounds h (fun _ ch h => h.putChar hplace htty ch)

theorem ttyWrite
    (h : InBounds c)
    (td : Nat)
    (buf : List Byte) :
    InBounds (c.ttyWrite td buf).1 := by
  by_cases htd : td < ttysCap
  · rw [c.ttyWrite_eq htd]
    have hclear : InBounds { c with errno := .eno } := h.transfer rfl rfl
    exact hclear.putStr (fun _ => Console.placeOf_lt td) htd buf
  · rw [c.ttyWrite_efault htd]
    exact h.transfer rfl rfl

/-- A cursor set from outside, if the call is one of the harmless ones. -/
theorem ttySetcur {td : Nat} {cur : Word}
    (h : InBounds c)
    (hkeeps : ConsoleEvent.KeepsCursor (.setcur td cur)) :
    InBounds (c.ttySetcur td cur) := by
  unfold Console.ttySetcur Console.conSetcur
  split_ifs with htd hpast
  · exact h.transfer rfl rfl
  · exact h
  · exact h.moveCursor ((hkeeps (by omega)).resolve_left hpast)

theorem step {e : ConsoleEvent}
    (h : InBounds c)
    (hkeeps : e.KeepsCursor) :
    InBounds (c.step e) := by
  cases e with
  | keyboard status code =>
      have hsame := c.conHandleInput_sameScreens status code
      have hinput := h.transfer hsame.conCursors hsame.stores
      rcases (c.conHandleInput status code).1.keySwitch_cases (c.conHandleInput status code).2 with
        hnone | ⟨tty, -, hshow⟩
      · rw [Console.step, Console.intKeyboardImpl, hnone]
        exact hinput
      · rw [Console.step, Console.intKeyboardImpl, hshow]
        exact hinput.transfer rfl rfl
  | read tty =>
      have hsame := ({ c with errno := .eno } : Console).conRead_sameScreens tty
      exact h.transfer hsame.conCursors hsame.stores
  | write td buf =>
      exact h.ttyWrite td buf
  | setcur td cur =>
      exact h.ttySetcur hkeeps

theorem boot : InBounds Console.boot :=
  ⟨fun _ _ => Nat.zero_lt_succ _, fun _ hi => nomatch hi⟩

theorem run {es : List ConsoleEvent}
    (h : InBounds c)
    (hes : ∀ e ∈ es, e.KeepsCursor) :
    InBounds (c.run es) :=
  Console.run_invariant h (fun e he _ h => h.step (hes e he))

/-- A call that ends in bounds was a harmless one. -/
theorem keepsCursor_of_step {e : ConsoleEvent}
    (h : InBounds (c.step e)) :
    e.KeepsCursor := by
  cases e with
  | keyboard | read | write =>
      trivial
  | setcur td cur =>
      intro htd
      by_cases hpast : 80 * 25 ≤ cur.toInt
      · exact Or.inl hpast
      · right
        have hcursor := h.cursor td htd
        rw [Console.step, Console.ttySetcur, if_neg (by omega), Console.conSetcur, if_neg hpast,
          Console.moveCursor_conCursors, Function.update_self] at hcursor
        exact hcursor

end InBounds

/-- A routine has recorded each cell that it changed, in the screen of a terminal
and in VGA memory. -/
def Recorded (tty : Nat) (c c' : Console) : Prop :=
  ∃ new, c'.stores = new ++ c.stores ∧
    (∀ k, c'.vgaCopies k ≠ c.vgaCopies k → ∃ i ∈ new, k = screen tty + i) ∧
    ∀ k, c'.conAddr k ≠ c.conAddr k → k ∈ new

namespace Recorded

variable {c c' c'' : Console} {tty : Nat}

theorem of_same
    (hstores : c'.stores = c.stores)
    (hcopies : c'.vgaCopies = c.vgaCopies)
    (haddr : c'.conAddr = c.conAddr) :
    Recorded tty c c' :=
  ⟨[], hstores, fun _ hk => absurd (by rw [hcopies]) hk, fun _ hk => absurd (by rw [haddr]) hk⟩

theorem trans
    (h : Recorded tty c c')
    (h' : Recorded tty c' c'') :
    Recorded tty c c'' := by
  obtain ⟨new, hstores, hcopies, haddr⟩ := h
  obtain ⟨new', hstores', hcopies', haddr'⟩ := h'
  refine ⟨new' ++ new, by rw [hstores', hstores, List.append_assoc], ?_, ?_⟩
  · intro k hk
    by_cases hsame : c''.vgaCopies k = c'.vgaCopies k
    · obtain ⟨i, hi, heq⟩ := hcopies k (hsame ▸ hk)
      exact ⟨i, List.mem_append_right _ hi, heq⟩
    · obtain ⟨i, hi, heq⟩ := hcopies' k hsame
      exact ⟨i, List.mem_append_left _ hi, heq⟩
  · intro k hk
    by_cases hsame : c''.conAddr k = c'.conAddr k
    · exact List.mem_append_right _ (haddr k (hsame ▸ hk))
    · exact List.mem_append_left _ (haddr' k hsame)

theorem store (c : Console) (tty i : Nat) (cell : Cell) :
    Recorded tty c (c.store tty i cell) := by
  refine ⟨[i], rfl, ?_, ?_⟩
  · intro k hk
    rw [Console.store_vgaCopies, Function.update_apply] at hk
    exact ⟨i, List.mem_singleton_self i, (ite_ne_right_iff.mp hk).1⟩
  · intro k hk
    rw [Console.store_conAddr] at hk
    split_ifs at hk
    · rw [Function.update_apply] at hk
      exact List.mem_singleton.mpr (ite_ne_right_iff.mp hk).1
    · exact absurd rfl hk

/-- Scrolling changes cells of the screen only. -/
theorem scrollRows_changed {mem : Nat → Cell} {base k : Nat}
    (h : Console.scrollRows mem base k ≠ mem k) :
    ∃ i ∈ Console.scrollStores, k = base + i := by
  rw [Console.scrollRows_apply] at h
  by_cases hin : base ≤ k ∧ k < base + 80 * 25
  · exact ⟨k - base, Console.mem_scrollStores.mpr (by omega), by omega⟩
  · have hrows : ¬ (base ≤ k ∧ k < base + 80 * 24) := by omega
    have hlast : ¬ (base + 80 * 24 ≤ k ∧ k < base + 80 * 25) := by omega
    rw [if_neg hrows, if_neg hlast] at h
    exact absurd rfl h

theorem scroll (c : Console) (tty : Nat) :
    Recorded tty c (c.scroll tty) := by
  refine ⟨Console.scrollStores, rfl, fun k hk => scrollRows_changed hk, ?_⟩
  intro k hk
  rw [Console.scroll_conAddr] at hk
  split_ifs at hk
  · obtain ⟨i, hi, heq⟩ := scrollRows_changed hk
    rwa [heq, Nat.zero_add]
  · exact absurd rfl hk

theorem putChar (place : Nat → Nat) (c : Console) (tty : Nat) (ch : Byte) :
    Recorded tty c (c.putChar place tty ch) := by
  have hglyph : Recorded tty c (c.putGlyph place tty ch) := by
    rcases c.putGlyph_cases tty place ch with ⟨cur, heq⟩ | ⟨cur, heq⟩
    · rw [heq]
      exact of_same rfl rfl rfl
    · rw [heq]
      exact (store c tty _ _).trans (of_same rfl rfl rfl)
  unfold Console.putChar Console.scrollIfPast
  split_ifs
  · exact hglyph.trans (scroll _ tty)
  · exact hglyph

theorem putStr (place : Nat → Nat) (c : Console) (tty : Nat) (buf : List Byte) :
    Recorded tty c (c.putStr place tty buf).1 :=
  Console.putStr_invariant (Recorded tty c) (of_same rfl rfl rfl)
    (fun _ ch h => h.trans (putChar place _ tty ch))

theorem ttyWrite (c : Console) (td : Nat) (buf : List Byte) :
    Recorded td c (c.ttyWrite td buf).1 := by
  by_cases htd : td < ttysCap
  · rw [c.ttyWrite_eq htd]
    have hclear : Recorded td c { c with errno := .eno } := of_same rfl rfl rfl
    exact hclear.trans (putStr _ _ td buf)
  · rw [c.ttyWrite_efault htd]
    exact of_same rfl rfl rfl

theorem ttySetcur (c : Console) (td : Nat) (cur : Word) :
    Recorded td c (c.ttySetcur td cur) := by
  unfold Console.ttySetcur Console.conSetcur
  split_ifs
  · exact of_same rfl rfl rfl
  · exact of_same rfl rfl rfl
  · exact of_same rfl rfl rfl

end Recorded

/-- **A run stays in bounds exactly when every cursor that it sets is harmless.**
No call changes a cell without recording its index. -/
theorem console_in_bounds_iff (es : List ConsoleEvent) :
    ((∀ es₁ es₂, es = es₁ ++ es₂ → InBounds (Console.boot.run es₁)) ↔
      ∀ e ∈ es, e.KeepsCursor) ∧
    (∀ c td buf, Recorded td c (c.ttyWrite td buf).1) ∧
    ∀ c td cur, Recorded td c (c.ttySetcur td cur) := by
  refine ⟨?_, Recorded.ttyWrite, Recorded.ttySetcur⟩
  constructor
  · intro h e he
    obtain ⟨es₁, es₂, rfl⟩ := List.append_of_mem he
    have hafter : InBounds (Console.boot.run (es₁ ++ [e])) := h (es₁ ++ [e]) es₂ (by simp)
    rw [Console.run_append] at hafter
    exact InBounds.keepsCursor_of_step hafter
  · rintro h es₁ es₂ rfl
    exact InBounds.boot.run (fun e he => h e (List.mem_append_left _ he))

/-- The cursor -1 passes the check and becomes 65535; the next character is
stored there. -/
theorem cursor_leaves_screen :
    ¬ (∀ es : List ConsoleEvent, (∀ e ∈ es, e.IsCall) → InBounds (Console.boot.run es)) ∧
    (Console.boot.run [.setcur 0 0xFFFFFFFF]).conCursors 0 = 65535 ∧
    (Console.boot.run [.setcur 0 0xFFFFFFFF, .write 0 [65]]).stores = [65535] := by
  refine ⟨?_, by decide +kernel, by decide +kernel⟩
  intro h
  have hcalls : ∀ e ∈ [ConsoleEvent.setcur 0 0xFFFFFFFF], e.IsCall := by
    intro e he
    rw [List.mem_singleton.mp he]
    trivial
  have hcursor := (h [.setcur 0 0xFFFFFFFF] hcalls).cursor 0 (by decide)
  exact absurd hcursor (by decide +kernel)

end Klyx
