import Klyx.Kernel.Hardware
import Mathlib.Algebra.Group.Int.Defs
import Mathlib.Algebra.Group.Basic
import Mathlib.Data.List.GetD
import Mathlib.Logic.Function.Basic

/-!
# Reading a line from a terminal

`tty_read` of `kernel/tty.c`, as a function of the characters that the terminal
delivers, and the string comparison of `string.h`.  Calls that find no
character are repeated by the loop and leave no trace, so they are not in the
list.  A `tty_char` is a character or a negative control code.

`editLine` is what the loop does to the line as a list of characters.

**Results.**
* `ttyRead_typed`: after a line ended by Enter the buffer holds the edited line
  and zeros behind it.
* `tty_read_edits_line`: the same for every buffer and every sequence of
  characters with a newline in it.
* `strcmp_eq_zero_iff`: comparing a zeroed buffer with a string literal.
-/

namespace Klyx

/-- The variables of `tty_read`, and the strings that it has echoed. -/
structure LineBuf where
  buf : Nat → Byte
  textCur : Nat
  echo : List (List Byte)

/-- A buffer filled with zeros. -/
def LineBuf.zeroed : LineBuf where
  buf := fun _ => 0
  textCur := 0
  echo := []

/-- The switch of `tty_read` on a character that does not end the line. -/
def readKey (count : Nat) (l : LineBuf) (res : Int) : LineBuf :=
  if res = 0 then l
  else if res = 8 then
    if l.textCur ≠ 0 then
      { buf := Function.update l.buf (l.textCur - 1) 0
        textCur := l.textCur - 1
        echo := l.echo ++ [[8, 32, 8]] }
    else l
  else if l.textCur < count then
    { buf := Function.update l.buf l.textCur (BitVec.ofInt 8 res)
      textCur := l.textCur + 1
      echo := l.echo ++ [[BitVec.ofInt 8 res]] }
  else l

/-- The loop of `tty_read`, which waits for more when the characters run out.
Control codes are skipped, the end-of-file code among them. -/
def ttyRead (count : Nat) : LineBuf → List Int → Option (LineBuf × List Int)
  | _, [] => none
  | l, res :: rest =>
      if res < 0 then ttyRead count l rest
      else if res = 10 then some ({ l with echo := l.echo ++ [[10]] }, rest)
      else ttyRead count (readKey count l res) rest

/-- `strcmp`, with a string literal as the second argument. -/
def strcmpFrom (s : Nat → Byte) : Nat → List Byte → Int
  | i, [] => (s i).toInt
  | i, c :: cs =>
      if s i ≠ 0 ∧ s i = c then strcmpFrom s (i + 1) cs else (s i).toInt - c.toInt

def strcmp (s : Nat → Byte) (literal : List Byte) : Int :=
  strcmpFrom s 0 literal

/-- What a character does to the line. -/
def editKey (count : Nat) (line : List Byte) (res : Int) : List Byte :=
  if res ≤ 0 then line
  else if res = 8 then line.dropLast
  else if line.length < count then line ++ [BitVec.ofInt 8 res]
  else line

/-- The line that a sequence of characters makes. -/
def editLine (count : Nat) (keys : List Int) : List Byte :=
  keys.foldl (editKey count) []

/-- The buffer holds the line, and zeros behind it. -/
structure Holds (l : LineBuf) (line : List Byte) : Prop where
  textCur : l.textCur = line.length
  buf : ∀ i, l.buf i = line.getD i 0

/-- The same over a buffer that held `buf₀`: behind the line there may be
anything, and nothing from `count` on is written. -/
structure HoldsOver (buf₀ : Nat → Byte) (count : Nat) (l : LineBuf) (line : List Byte) :
    Prop where
  textCur : l.textCur = line.length
  room : line.length ≤ count
  kept : ∀ i, i < line.length → l.buf i = line.getD i 0
  beyond : ∀ i, count ≤ i → l.buf i = buf₀ i
  zeros : (∀ i, buf₀ i = 0) → ∀ i, line.length ≤ i → l.buf i = 0

section Editing

variable {count : Nat} {l : LineBuf} {line : List Byte}

/-- What every key keeps between the variables and the line holds when Enter is
read. -/
theorem ttyRead_invariant (count : Nat) {P : LineBuf → List Byte → Prop}
    (hstep : ∀ l line res, P l line → ¬ res < 0 → P (readKey count l res) (editKey count line res))
    (h : P l line)
    {keys : List Int}
    (hkeys : 10 ∉ keys)
    (rest : List Int) :
    ∃ l', ttyRead count l (keys ++ 10 :: rest) =
        some ({ l' with echo := l'.echo ++ [[10]] }, rest) ∧
      P l' (keys.foldl (editKey count) line) := by
  induction keys generalizing l line with
  | nil =>
      exact ⟨l, rfl, h⟩
  | cons res keys ih =>
      obtain ⟨hres, hrest⟩ := not_or.mp (List.mem_cons.not.mp hkeys)
      rw [List.cons_append, ttyRead]
      by_cases hneg : res < 0
      · have hskip : editKey count line res = line := if_pos (by omega)
        rw [if_pos hneg, List.foldl_cons, hskip]
        exact ih h hrest
      · rw [if_neg hneg, if_neg (Ne.symm hres)]
        exact ih (hstep l line res h hneg) hrest

/-- What the kept characters have in common is in the line. -/
theorem editLine_forall {P : Byte → Prop} {keys : List Int}
    (hkeys : ∀ res ∈ keys, 0 < res → P (BitVec.ofInt 8 res)) :
    ∀ c ∈ editLine count keys, P c := by
  have hstep : ∀ (line : List Byte), (∀ c ∈ line, P c) →
      ∀ c ∈ keys.foldl (editKey count) line, P c := by
    induction keys with
    | nil =>
        intro line hline
        exact hline
    | cons res keys ih =>
        intro line hline
        refine ih (fun r hr => hkeys r (List.mem_cons_of_mem _ hr)) _ ?_
        intro c hc
        unfold editKey at hc
        split at hc
        · exact hline c hc
        split at hc
        · exact hline c (List.dropLast_subset line hc)
        split at hc
        · rcases List.mem_append.mp hc with hold | hnew
          · exact hline c hold
          · rw [List.mem_singleton.mp hnew]
            exact hkeys res List.mem_cons_self (by omega)
        · exact hline c hc
  exact hstep [] (by simp)

end Editing

namespace HoldsOver

variable {buf₀ : Nat → Byte} {count : Nat} {l : LineBuf} {line : List Byte}

theorem start (buf₀ : Nat → Byte) (count : Nat) : HoldsOver buf₀ count ⟨buf₀, 0, []⟩ [] where
  textCur := rfl
  room := Nat.zero_le count
  kept := fun _ hi => absurd hi (Nat.not_lt_zero _)
  beyond := fun _ _ => rfl
  zeros := fun hzero i _ => hzero i

theorem append
    (h : HoldsOver buf₀ count l line)
    (hroom : l.textCur < count)
    (c : Byte)
    (echo : List (List Byte)) :
    HoldsOver buf₀ count ⟨Function.update l.buf l.textCur c, l.textCur + 1, echo⟩
      (line ++ [c]) := by
  rw [h.textCur] at hroom ⊢
  constructor
  · simp
  · simp only [List.length_append, List.length_singleton]
    omega
  · intro i hi
    rw [List.length_append, List.length_singleton] at hi
    by_cases heq : i = line.length
    · simp [heq]
    · have hlt : i < line.length := by omega
      dsimp only
      rw [Function.update_of_ne heq, h.kept i hlt, List.getD_append _ _ _ _ hlt]
  · intro i hi
    dsimp only
    rw [Function.update_of_ne (by omega), h.beyond i hi]
  · intro hzero i hi
    rw [List.length_append, List.length_singleton] at hi
    dsimp only
    rw [Function.update_of_ne (by omega), h.zeros hzero i (by omega)]

theorem dropLast
    (h : HoldsOver buf₀ count l line)
    (hcur : l.textCur ≠ 0)
    (echo : List (List Byte)) :
    HoldsOver buf₀ count ⟨Function.update l.buf (l.textCur - 1) 0, l.textCur - 1, echo⟩
      line.dropLast := by
  have hroom := h.room
  rw [h.textCur] at hcur ⊢
  constructor
  · simp
  · simp only [List.length_dropLast]
    omega
  · intro i hi
    rw [List.length_dropLast] at hi
    have hget : line.dropLast.getD i 0 = line.getD i 0 := by
      simp only [List.getD_eq_getElem?_getD, List.getElem?_dropLast, if_pos hi]
    dsimp only
    rw [Function.update_of_ne (by omega), h.kept i (by omega), hget]
  · intro i hi
    dsimp only
    rw [Function.update_of_ne (by omega), h.beyond i hi]
  · intro hzero i hi
    rw [List.length_dropLast] at hi
    dsimp only
    by_cases heq : i = line.length - 1
    · rw [heq, Function.update_self]
    · rw [Function.update_of_ne heq, h.zeros hzero i (by omega)]

/-- One character, in the buffer and in the line. -/
theorem readKey
    (h : HoldsOver buf₀ count l line)
    {res : Int}
    (hres : ¬ res < 0) :
    HoldsOver buf₀ count (Klyx.readKey count l res) (editKey count line res) := by
  unfold Klyx.readKey editKey
  by_cases hzero : res = 0
  · rw [if_pos hzero, if_pos (by omega)]
    exact h
  have hpos : ¬ res ≤ 0 := by omega
  rw [if_neg hzero, if_neg hpos]
  by_cases hback : res = 8
  · rw [if_pos hback, if_pos hback]
    by_cases hcur : l.textCur = 0
    · have hnil : line = [] := List.length_eq_zero_iff.mp (h.textCur.symm.trans hcur)
      rw [if_neg (not_not.mpr hcur)]
      subst hnil
      exact h
    · rw [if_pos hcur]
      exact h.dropLast hcur _
  · rw [if_neg hback, if_neg hback, ← h.textCur]
    by_cases hroom : l.textCur < count
    · rw [if_pos hroom, if_pos hroom]
      exact h.append hroom _ _
    · rw [if_neg hroom, if_neg hroom]
      exact h

theorem line_eq
    (h : HoldsOver buf₀ count l line) :
    (List.range l.textCur).map l.buf = line := by
  rw [h.textCur]
  refine List.ext_getElem (by simp) ?_
  intro i hi hi'
  rw [List.getElem_map, List.getElem_range, h.kept i hi', List.getD_eq_getElem _ _ hi']

/-- A zeroed buffer holds zeros behind the line. -/
theorem holds
    (h : HoldsOver (fun _ => 0) count l line) :
    Holds l line := by
  refine ⟨h.textCur, ?_⟩
  intro i
  by_cases hi : i < line.length
  · exact h.kept i hi
  · rw [List.getD_eq_default _ _ (Nat.le_of_not_lt hi)]
    exact h.zeros (fun _ => rfl) i (Nat.le_of_not_lt hi)

end HoldsOver

/-- **A typed line is read as its edited form.** -/
theorem ttyRead_typed (count : Nat) {keys : List Int}
    (hkeys : 10 ∉ keys)
    (rest : List Int) :
    ∃ l, ttyRead count LineBuf.zeroed (keys ++ 10 :: rest) = some (l, rest) ∧
      Holds l (editLine count keys) := by
  obtain ⟨l, hread, hholds⟩ := ttyRead_invariant count
    (P := HoldsOver (fun _ => 0) count) (fun _ _ _ h hres => h.readKey hres)
    (HoldsOver.start _ count) hkeys rest
  exact ⟨_, hread, hholds.holds.textCur, hholds.holds.buf⟩

/-- A line fits in the buffer. -/
theorem editLine_length_le (count : Nat) {keys : List Int}
    (hkeys : 10 ∉ keys) :
    (editLine count keys).length ≤ count := by
  obtain ⟨_, -, hholds⟩ := ttyRead_invariant count
    (P := HoldsOver (fun _ => 0) count) (fun _ _ _ h hres => h.readKey hres)
    (HoldsOver.start _ count) hkeys []
  exact hholds.room

/-- **The line editor.**  A call of `tty_read` consumes the characters up to the
first newline and returns the length of their edited form, which it leaves at
the start of the buffer, behind zeros if there were only zeros before. -/
theorem tty_read_edits_line (count : Nat) (buf : Nat → Byte) {chars : List Int}
    (hchars : 10 ∈ chars) :
    ∃ before rest l,
      chars = before ++ 10 :: rest ∧
      10 ∉ before ∧
      ttyRead count ⟨buf, 0, []⟩ chars = some (l, rest) ∧
      l.textCur = (editLine count before).length ∧
      l.textCur ≤ count ∧
      (List.range l.textCur).map l.buf = editLine count before ∧
      (∀ i, count ≤ i → l.buf i = buf i) ∧
      ((∀ i, buf i = 0) → ∀ i, l.textCur ≤ i → l.buf i = 0) := by
  obtain ⟨before, rest, rfl, hbefore⟩ := List.eq_append_cons_of_mem hchars
  obtain ⟨l, hread, hholds⟩ := ttyRead_invariant count
    (P := HoldsOver buf count) (fun _ _ _ h hres => h.readKey hres)
    (HoldsOver.start buf count) hbefore rest
  refine ⟨before, rest, _, rfl, hbefore, hread, hholds.textCur, ?_, hholds.line_eq, hholds.beyond,
    ?_⟩
  · rw [hholds.textCur]
    exact hholds.room
  · rw [hholds.textCur]
    exact hholds.zeros

/-- The theorem applies to `a`, Backspace twice, `b`, Enter. -/
theorem tty_read_edits_line_sample :
    ∃ before rest l,
      [97, 8, 8, 98, 10] = before ++ 10 :: rest ∧
      10 ∉ before ∧
      ttyRead 1 ⟨fun _ => 7, 0, []⟩ [97, 8, 8, 98, 10] = some (l, rest) ∧
      l.textCur = (editLine 1 before).length ∧
      l.textCur ≤ 1 ∧
      (List.range l.textCur).map l.buf = editLine 1 before ∧
      (∀ i, 1 ≤ i → l.buf i = 7) ∧
      ((∀ _ : Nat, (7 : Byte) = 0) → ∀ i, l.textCur ≤ i → l.buf i = 0) :=
  tty_read_edits_line 1 (fun _ => 7) (by decide)

section Comparison

variable {s : Nat → Byte}

theorem toInt_sub_eq_zero_iff {a b : Byte} :
    a.toInt - b.toInt = 0 ↔ a = b := by
  rw [sub_eq_zero]
  exact BitVec.toInt_inj

/-- Comparison with a literal, at a position where the strings still agree. -/
theorem strcmpFrom_eq_zero_iff {i : Nat} {literal : List Byte}
    (hliteral : ∀ c ∈ literal, c ≠ 0) :
    strcmpFrom s i literal = 0 ↔
      (∀ j, j < literal.length → s (i + j) = literal.getD j 0) ∧ s (i + literal.length) = 0 := by
  induction literal generalizing i with
  | nil =>
      have hzero := toInt_sub_eq_zero_iff (a := s i) (b := 0)
      simpa [strcmpFrom] using hzero
  | cons c cs ih =>
      have hc : c ≠ 0 := hliteral c List.mem_cons_self
      have hrest := ih (i := i + 1) (fun d hd => hliteral d (List.mem_cons_of_mem _ hd))
      rw [strcmpFrom]
      by_cases heq : s i = c
      · rw [if_pos ⟨by rwa [heq], heq⟩, hrest]
        constructor
        · rintro ⟨hsame, hend⟩
          refine ⟨?_, by rw [← hend, List.length_cons]; congr 1; omega⟩
          intro j hj
          cases j with
          | zero =>
              exact heq
          | succ j =>
              have hnext := hsame j (by simpa using hj)
              rw [Nat.add_right_comm] at hnext
              exact hnext
        · rintro ⟨hsame, hend⟩
          refine ⟨?_, by rw [← hend, List.length_cons]; congr 1; omega⟩
          intro j hj
          have hnext := hsame (j + 1) (by simpa using hj)
          rw [Nat.add_right_comm]
          exact hnext
      · rw [if_neg (fun hyes => heq hyes.2), toInt_sub_eq_zero_iff]
        refine iff_of_false heq ?_
        rintro ⟨hsame, -⟩
        exact heq (hsame 0 (Nat.zero_lt_succ _))

/-- A zeroed buffer that holds a line without zeros equals a literal exactly
when the line does. -/
theorem strcmp_eq_zero_iff {l : LineBuf} {line literal : List Byte}
    (h : Holds l line)
    (hline : ∀ c ∈ line, c ≠ 0)
    (hliteral : ∀ c ∈ literal, c ≠ 0) :
    strcmp l.buf literal = 0 ↔ line = literal := by
  rw [strcmp, strcmpFrom_eq_zero_iff hliteral]
  simp only [Nat.zero_add, h.buf]
  constructor
  · rintro ⟨hsame, hend⟩
    have hle : line.length ≤ literal.length := by
      by_contra hlt
      have hmem := List.getElem_mem (l := line) (n := literal.length) (by omega)
      rw [List.getD_eq_getElem _ _ (by omega)] at hend
      exact hline _ hmem hend
    have hge : literal.length ≤ line.length := by
      by_contra hlt
      have hlast := hsame line.length (by omega)
      rw [List.getD_eq_default _ _ (Nat.le_refl _), List.getD_eq_getElem _ _ (by omega)] at hlast
      exact hliteral _ (List.getElem_mem (by omega)) hlast.symm
    refine List.ext_getElem (by omega) ?_
    intro j hj hj'
    have hj'' := hsame j hj'
    rwa [List.getD_eq_getElem _ _ hj, List.getD_eq_getElem _ _ hj'] at hj''
  · rintro rfl
    exact ⟨fun _ _ => rfl, List.getD_eq_default _ _ (Nat.le_refl _)⟩

end Comparison

end Klyx
