import Klyx.Kernel.Crypt
import Klyx.Kernel.Login

/-!
# The command that compares passwords

`enc` of the shell in `kernel/test.c` asks for a password twice.  The first one
is kept in `encp` with its bits inverted, cut off behind its length.  The key
for the second one is what was kept, so `crypt` returns the first password,
repeated or cut off to the length of the second.  It is copied over `encp`
without a terminator.  The zero that the comparison needs is there only if the
two lengths are the same: a shorter line leaves the inverted rest of the
password behind it, and a longer one the key stream of the first copy.

The buffers keep what earlier runs left in them.

**Results.**
* `strcmpMem_eq_zero_iff`: a comparison with memory.
* `keepPassword_string`, `keepPassword_zero_iff`: what is kept of the password.
* `enc_compares_passwords`: what the command prints.
-/

namespace Klyx

open CString

/-- `strcmp`, with a string as the first argument and memory as the second. -/
def strcmpMem (s2 : Nat → Byte) : List Byte → Nat → Int
  | [], i => (0 : Byte).toInt - (s2 i).toInt
  | c :: cs, i => if c = s2 i then strcmpMem s2 cs (i + 1) else c.toInt - (s2 i).toInt

/-- The line in `buf`, which was filled with zeros before `tty_read`. -/
def lineIn (line : TypedLine) : List Byte :=
  stringIn line.buf 512 0

/-- The static buffers: `enc` of `crypt`, and `encp`. -/
structure EncStatics where
  enc : Nat → Byte
  encp : Nat → Byte

/-- The buffers before the first run. -/
def EncStatics.zero : EncStatics where
  enc := fun _ => 0
  encp := fun _ => 0

/-- Copy the result of `crypt`, and end it behind the length of the password. -/
def keepPassword (encp enc : Nat → Byte) (buf : List Byte) : Nat → Byte :=
  Function.update (strcpy encp 0 (stringIn enc 8193 0)) buf.length 0

/-- The command, with the two lines that are typed: what it leaves in the
buffers, and what it prints. -/
def encCommand (passSaver : List Byte) (encpAddr : Word) (s : EncStatics)
    (line₁ line₂ : TypedLine) : EncStatics × List String :=
  let buf := lineIn line₁
  let out := ["Enter a password: "]
  if buf = [] then (s, out)
  else
    let out := out ++ ["crypt() work. please wait...\n"]
    match crypt s.enc (some passSaver) (some buf) with
    | none => (s, out)
    | some enc =>
        let encp := keepPassword s.encp enc buf
        let out := out ++ [hexPadded 8 encpAddr ++ "\n", "Enter the same password: "]
        let buf := lineIn line₂
        if buf = [] then (⟨enc, encp⟩, out)
        else
          match crypt enc (some buf) (some (stringIn encp 8192 0)) with
          | none => (⟨enc, encp⟩, out)
          | some enc =>
              let encp := strcpy encp 0 (stringIn enc 8193 0)
              let plen := buf.length
              let same := if strcmpMem encp buf 0 ≠ 0 then "not " else ""
              (⟨enc, encp⟩, out ++ ["crypt() work. please wait...\n", toString plen ++ ".\n",
                "Passwords are " ++ same ++ "the same.\n"])

/-- The buffers after some runs. -/
def encStaticsAfter (passSaver : List Byte) (encpAddr : Word)
    (earlier : List (TypedLine × TypedLine)) : EncStatics :=
  earlier.foldl (fun s lines => (encCommand passSaver encpAddr s lines.1 lines.2).1) EncStatics.zero

/-- A comparison with memory is one with the string that lies there. -/
theorem strcmpMem_eq_zero_iff {s2 : Nat → Byte} {s : List Byte} {i : Nat}
    (hs : ∀ c ∈ s, c ≠ 0) :
    strcmpMem s2 s i = 0 ↔ IsString s2 i s := by
  induction s generalizing i with
  | nil =>
      rw [strcmpMem, toInt_sub_eq_zero_iff]
      constructor
      · intro h
        exact ⟨hs, fun j hj => absurd hj (Nat.not_lt_zero _), h.symm⟩
      · intro h
        exact h.nul.symm
  | cons c s ih =>
      rw [strcmpMem]
      by_cases heq : c = s2 i
      · rw [if_pos heq, ih (fun d hd => hs d (List.mem_cons_of_mem _ hd))]
        constructor
        · intro h
          exact h.cons heq.symm (hs c List.mem_cons_self)
        · intro h
          exact h.tail.2.2
      · rw [if_neg heq, toInt_sub_eq_zero_iff]
        exact iff_of_false heq (fun h => heq h.tail.1.symm)

section Lines

/-- The line is the edited form of what is typed. -/
theorem lineIn_eq (line : TypedLine) :
    lineIn line = editLine 511 line.keys := by
  have hlength := editLine_length_le 511 line.enter_free
  have hstring := typed_buf_isString line 0
  rw [List.drop_zero] at hstring
  exact stringIn_eq hstring (by omega)

/-- No typed character is inverted to a zero. -/
theorem typed_complement_ne_zero (line : TypedLine) :
    ∀ c ∈ complement (editLine 511 line.keys), c ≠ 0 := by
  intro c hc hzero
  obtain ⟨d, hd, rfl⟩ := List.mem_map.mp hc
  have hascii := (typed_ascii line d hd).2
  have hnat := congrArg BitVec.toNat hzero
  rw [BitVec.toNat_not] at hnat
  simp at hnat
  omega

end Lines

/-- The string that `crypt` returns, read from its buffer. -/
theorem crypt_stringIn (enc : Nat → Byte) {a b : List Byte}
    (ha : a ≠ [])
    (hroom : a.length ≤ 8192)
    (hb : 2 ≤ b.length)
    (hkey : ∀ c ∈ complement b, c ≠ 0) :
    ∃ out, crypt enc (some a) (some b) = some out ∧
      stringIn out 8193 0 = keyStream (complement b) a.length := by
  obtain ⟨out, hcrypt, hout⟩ := Option.bind_eq_some_iff.mp (crypted_eq enc ha hroom hb hkey)
  refine ⟨out, hcrypt, ?_⟩
  rw [stringIn, Nat.sub_zero, hout]
  rfl

section Password

variable {encp enc : Nat → Byte} {p q : List Byte} {L i : Nat}

/-- Within the length of the first copy there is one zero. -/
theorem keepPassword_zero_iff
    (henc : stringIn enc 8193 0 = keyStream (complement p) L)
    (hkey : ∀ c ∈ complement p, c ≠ 0)
    (hne : p ≠ [])
    (hi : i < L) :
    keepPassword encp enc p i = 0 ↔ i = p.length := by
  have hi' : i < (keyStream (complement p) L).length := by rwa [keyStream_length]
  rw [keepPassword, henc]
  by_cases heq : i = p.length
  · rw [heq, Function.update_self]
    exact iff_of_true rfl rfl
  · have hmem : (keyStream (complement p) L).getD i 0 ∈ keyStream (complement p) L := by
      rw [List.getD_eq_getElem _ _ hi']
      exact List.getElem_mem _
    have hnonzero := keyStream_forall (fun hnil => hne (List.map_eq_nil_iff.mp hnil)) hkey _ hmem
    rw [Function.update_of_ne heq, strcpy_start_inside encp hi']
    exact iff_of_false hnonzero heq

/-- The password is kept with its bits inverted. -/
theorem keepPassword_string
    (henc : stringIn enc 8193 0 = keyStream (complement p) L)
    (hkey : ∀ c ∈ complement p, c ≠ 0)
    (hlength : p.length ≤ L) :
    IsString (keepPassword encp enc p) 0 (complement p) := by
  refine ⟨hkey, ?_, ?_⟩
  · intro i hi
    have hlt : i < p.length := by rwa [complement_length] at hi
    have hi' : i < (keyStream (complement p) L).length := by
      rw [keyStream_length]
      omega
    rw [Nat.zero_add, keepPassword, Function.update_of_ne (Nat.ne_of_lt hlt), henc,
      strcpy_start_inside encp hi', keyStream_getD (by omega), Nat.mod_eq_of_lt hi]
  · rw [Nat.zero_add, complement_length, keepPassword]
    exact Function.update_self _ _ _

/-- The second copy reads as the second line exactly if that is the password. -/
theorem copyBack_string_iff
    (henc : stringIn enc 8193 0 = keyStream (complement p) L)
    (hkey : ∀ c ∈ complement p, c ≠ 0)
    (hp : ∀ c ∈ p, c ≠ 0)
    (hne : p ≠ [])
    (hlength : q.length < L) :
    IsString (strcpy (keepPassword encp enc p) 0 (keyStream p q.length)) 0 q ↔ p = q := by
  have hcopy : IsString (strcpy (keepPassword encp enc p) 0 (keyStream p q.length)) 0
      (keyStream p q.length) ↔ q.length = p.length := by
    rw [strcpy, isString_copy_iff (keyStream_forall hne hp), keyStream_length, Nat.zero_add]
    exact keepPassword_zero_iff henc hkey hne hlength
  constructor
  · intro h
    -- the zero behind the second line was there before it was copied
    have hend : q.length = p.length := by
      have hnul := h.nul
      rw [strcpy, copy_outside (Or.inr (by rw [keyStream_length])), Nat.zero_add] at hnul
      exact (keepPassword_zero_iff henc hkey hne hlength).mp hnul
    have hstring := hcopy.mpr hend
    rw [hend, keyStream_self] at hstring h
    exact hstring.unique h
  · rintro rfl
    have hstring := hcopy.mpr rfl
    rwa [keyStream_self] at hstring ⊢

end Password

/-- One run, whatever is in the buffers. -/
theorem encCommand_out (encpAddr : Word) (s : EncStatics) {passSaver : List Byte}
    {line₁ line₂ : TypedLine}
    (hmin : 512 ≤ passSaver.length)
    (hmax : passSaver.length ≤ 8191)
    (h₁ : 2 ≤ (editLine 511 line₁.keys).length)
    (h₂ : editLine 511 line₂.keys ≠ []) :
    (encCommand passSaver encpAddr s line₁ line₂).2 =
      ["Enter a password: ", "crypt() work. please wait...\n", hexPadded 8 encpAddr ++ "\n",
        "Enter the same password: ", "crypt() work. please wait...\n",
        toString (editLine 511 line₂.keys).length ++ ".\n",
        if editLine 511 line₁.keys = editLine 511 line₂.keys then "Passwords are the same.\n"
        else "Passwords are not the same.\n"] := by
  have hlength₁ := editLine_length_le 511 line₁.enter_free
  have hlength₂ := editLine_length_le 511 line₂.enter_free
  have hchars₁ := typed_ne_zero line₁
  have hchars₂ := typed_ne_zero line₂
  have hkey := typed_complement_ne_zero line₁
  unfold encCommand
  rw [lineIn_eq, lineIn_eq]
  generalize editLine 511 line₁.keys = p at *
  generalize editLine 511 line₂.keys = q at *
  have hp : p ≠ [] := List.ne_nil_of_length_pos (by omega)
  have hsaver : passSaver ≠ [] := List.ne_nil_of_length_pos (by omega)
  obtain ⟨enc, hcrypt, henc⟩ := crypt_stringIn s.enc hsaver (by omega) h₁ hkey
  have hkept : stringIn (keepPassword s.encp enc p) 8192 0 = complement p :=
    stringIn_eq (keepPassword_string henc hkey (by omega)) (by rw [complement_length]; omega)
  obtain ⟨enc', hcrypt', henc'⟩ := crypt_stringIn enc h₂ (b := complement p) (by omega)
    (by rwa [complement_length]) (by rwa [complement_complement])
  rw [complement_complement] at henc'
  have hverdict : strcmpMem (strcpy (keepPassword s.encp enc p) 0 (stringIn enc' 8193 0)) q 0 = 0 ↔
      p = q := by
    rw [strcmpMem_eq_zero_iff hchars₂, henc']
    exact copyBack_string_iff henc hkey hchars₁ hp (by omega)
  simp only [if_neg hp, if_neg h₂, hcrypt, hkept, hcrypt', ne_eq, hverdict]
  by_cases hsame : p = q
  · simp [hsame]
  · simp [hsame]

/-- **The passwords are compared.**  After any runs with any lines, the command
prints that two typed lines are the same exactly if they are. -/
theorem enc_compares_passwords (encpAddr : Word) (earlier : List (TypedLine × TypedLine))
    {passSaver : List Byte} {line₁ line₂ : TypedLine}
    (hmin : 512 ≤ passSaver.length)
    (hmax : passSaver.length ≤ 8191)
    (h₁ : 2 ≤ (editLine 511 line₁.keys).length)
    (h₂ : 2 ≤ (editLine 511 line₂.keys).length) :
    let s := encStaticsAfter passSaver encpAddr earlier
    (encCommand passSaver encpAddr s line₁ line₂).2 =
      ["Enter a password: ", "crypt() work. please wait...\n", hexPadded 8 encpAddr ++ "\n",
        "Enter the same password: ", "crypt() work. please wait...\n",
        toString (editLine 511 line₂.keys).length ++ ".\n",
        if editLine 511 line₁.keys = editLine 511 line₂.keys then "Passwords are the same.\n"
        else "Passwords are not the same.\n"] :=
  encCommand_out encpAddr _ hmin hmax h₁ (List.ne_nil_of_length_pos (by omega))

/-- The theorem applies to `ab` and the longer `aba`, after a run with `xyz`
twice. -/
theorem enc_compares_passwords_sample :
    let xyz : TypedLine := ⟨[120, 121, 122], by decide, by decide⟩
    let ab : TypedLine := ⟨[97, 98], by decide, by decide⟩
    let aba : TypedLine := ⟨[97, 98, 97], by decide, by decide⟩
    let passSaver : List Byte := List.replicate 512 65
    let s := encStaticsAfter passSaver 4096 [(xyz, xyz)]
    (encCommand passSaver 4096 s ab aba).2 =
      ["Enter a password: ", "crypt() work. please wait...\n", hexPadded 8 4096 ++ "\n",
        "Enter the same password: ", "crypt() work. please wait...\n",
        toString (editLine 511 aba.keys).length ++ ".\n",
        if editLine 511 ab.keys = editLine 511 aba.keys then "Passwords are the same.\n"
        else "Passwords are not the same.\n"] :=
  enc_compares_passwords 4096 [_] (by rw [List.length_replicate])
    (by rw [List.length_replicate]; decide) (by decide) (by decide)

end Klyx
