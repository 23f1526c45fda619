import Klyx.Kernel.StringFunctions

/-!
# The shell's cipher

`crypt` of `kernel/test.c` combines each character of `a` with a character of
the key `b`, which repeats.  The combination is the complement of the key
character, whatever the other one is, so the result holds nothing of `a` but its
length.

**Results.**
* `cryptByte_eq`: the combination of two characters.
* `crypt_spec`: the buffer that `crypt` returns.
* `crypt_ignores_text`: two texts of one length have one result.
-/

namespace Klyx

open CString

/-- What is stored for the characters `*a` and `*bi`. -/
def cryptByte (a bi : Byte) : Byte :=
  ~~~(a ||| bi) ||| (a &&& ~~~bi)

/-- The loop of `crypt`, on the rest of `a` and the rest `bi` of the key. -/
def cryptLoop (b : List Byte) : List Byte → List Byte → Nat → (Nat → Byte) → Nat → Byte
  | [], _, i, enc => Function.update enc i 0
  | c :: a, bi, i, enc =>
      let enc := Function.update enc i (cryptByte c (bi.headD 0))
      let bi := bi.tail
      let bi := if bi = [] then b else bi
      cryptLoop b a bi (i + 1) enc

/-- `crypt`, on the contents of the static buffer `enc`.  No string is a null
pointer. -/
def crypt (enc : Nat → Byte) : Option (List Byte) → Option (List Byte) → Option (Nat → Byte)
  | some (a₀ :: a), some (b₀ :: b₁ :: b) =>
      some (cryptLoop (b₀ :: b₁ :: b) (a₀ :: a) (b₀ :: b₁ :: b) 0 enc)
  | _, _ => none

/-- The string that `crypt` returns, in a buffer of 8193 characters. -/
def crypted (enc : Nat → Byte) (a b : Option (List Byte)) : Option (List Byte) :=
  (crypt enc a b).bind (fun out => stringAt out 8193 0)

/-- The first `n` characters of a key that repeats. -/
def keyStream (b : List Byte) (n : Nat) : List Byte :=
  (List.range n).map (fun i => b.getD (i % b.length) 0)

/-- All bits of a key inverted. -/
def complement (b : List Byte) : List Byte :=
  b.map (fun c => ~~~c)

section Complement

variable {b : List Byte} {i : Nat}

@[simp] theorem complement_length (b : List Byte) :
    (complement b).length = b.length :=
  List.length_map _

@[simp] theorem complement_complement (b : List Byte) :
    complement (complement b) = b := by
  rw [complement, complement, List.map_map]
  exact List.map_id'' (fun c => BitVec.not_not) b

theorem complement_getD (h : i < b.length) :
    (complement b).getD i 0 = ~~~(b.getD i 0) := by
  simp [complement, List.getD_eq_getElem?_getD, h]

end Complement

section KeyStream

variable {b : List Byte} {n i : Nat}

@[simp] theorem keyStream_length (b : List Byte) (n : Nat) :
    (keyStream b n).length = n := by
  simp [keyStream]

theorem keyStream_getD (h : i < n) :
    (keyStream b n).getD i 0 = b.getD (i % b.length) 0 := by
  simp [keyStream, List.getD_eq_getElem?_getD, h]

/-- The characters are those of the key. -/
theorem keyStream_forall {P : Byte → Prop}
    (hb : b ≠ [])
    (h : ∀ c ∈ b, P c) :
    ∀ c ∈ keyStream b n, P c := by
  intro c hc
  obtain ⟨i, -, rfl⟩ := List.mem_map.mp hc
  have hi : i % b.length < b.length := Nat.mod_lt _ (List.length_pos_iff.mpr hb)
  rw [List.getD_eq_getElem _ _ hi]
  exact h _ (List.getElem_mem hi)

/-- One round of the key. -/
theorem keyStream_self (b : List Byte) :
    keyStream b b.length = b := by
  refine List.ext_getElem (keyStream_length b b.length) ?_
  intro i hi hi'
  have hchar := keyStream_getD (b := b) hi'
  rwa [Nat.mod_eq_of_lt hi', List.getD_eq_getElem _ _ hi, List.getD_eq_getElem _ _ hi'] at hchar

end KeyStream

/-- The character of the text does not matter. -/
theorem cryptByte_eq (a bi : Byte) :
    cryptByte a bi = ~~~bi := by
  unfold cryptByte
  ext i hi
  simp only [BitVec.getElem_or, BitVec.getElem_and, BitVec.getElem_not]
  cases a[i] <;> cases bi[i] <;> rfl

section Loop

variable {b a : List Byte} {enc : Nat → Byte} {i j k : Nat}

/-- The key is begun again behind its end. -/
theorem nextKey_eq
    (hk : k < b.length) :
    (if (b.drop k).tail = [] then b else (b.drop k).tail) = b.drop ((k + 1) % b.length) := by
  rw [List.tail_drop]
  by_cases hlast : k + 1 = b.length
  · rw [hlast, if_pos (List.drop_length), Nat.mod_self, List.drop_zero]
  · have hne : b.drop (k + 1) ≠ [] := by
      rw [ne_eq, List.drop_eq_nil_iff]
      omega
    rw [if_neg hne, Nat.mod_eq_of_lt (by omega)]

theorem cryptLoop_before {bi : List Byte}
    (h : j < i) :
    cryptLoop b a bi i enc j = enc j := by
  induction a generalizing bi i enc with
  | nil =>
      exact Function.update_of_ne (by omega) _ _
  | cons c a ih =>
      rw [cryptLoop, ih (by omega)]
      exact Function.update_of_ne (by omega) _ _

/-- Before each turn `bi` is the key from some index on. -/
theorem cryptLoop_inside (enc : Nat → Byte)
    (hk : k < b.length)
    (hj : j < a.length) :
    cryptLoop b a (b.drop k) i enc (i + j) = ~~~(b.getD ((k + j) % b.length) 0) := by
  induction a generalizing i j k enc with
  | nil =>
      exact absurd hj (Nat.not_lt_zero _)
  | cons c a ih =>
      have hpos : 0 < b.length := Nat.zero_lt_of_lt hk
      rw [cryptLoop, nextKey_eq hk]
      cases j with
      | zero =>
          have hhead : (b.drop k).headD 0 = b.getD k 0 := by
            rw [List.headD_eq_head?_getD, List.head?_drop, List.getD_eq_getElem?_getD]
          rw [cryptLoop_before (by omega), Nat.add_zero, Nat.add_zero, Function.update_self,
            cryptByte_eq, hhead, Nat.mod_eq_of_lt hk]
      | succ j =>
          have hshift : i + (j + 1) = i + 1 + j := by omega
          have hkey : ((k + 1) % b.length + j) % b.length = (k + (j + 1)) % b.length := by
            rw [Nat.mod_add_mod]
            congr 1
            omega
          rw [hshift, ih _ (Nat.mod_lt (k + 1) hpos) (Nat.lt_of_succ_lt_succ hj), hkey]

theorem cryptLoop_end (bi : List Byte) (enc : Nat → Byte) :
    cryptLoop b a bi i enc (i + a.length) = 0 := by
  induction a generalizing bi i enc with
  | nil =>
      exact Function.update_self _ _ _
  | cons c a ih =>
      have hshift : i + (c :: a).length = i + 1 + a.length := by
        rw [List.length_cons]
        omega
      rw [cryptLoop, hshift]
      exact ih _ _

end Loop

section Result

variable {a b : List Byte}

/-- The buffer: the inverted key, repeated to the length of the text, and a zero. -/
theorem crypt_spec (enc : Nat → Byte)
    (ha : a ≠ [])
    (hb : 2 ≤ b.length) :
    ∃ out, crypt enc (some a) (some b) = some out ∧
      (∀ i, i < a.length → out i = (keyStream (complement b) a.length).getD i 0) ∧
      out a.length = 0 := by
  obtain ⟨a₀, a, rfl⟩ := List.exists_cons_of_ne_nil ha
  obtain ⟨b₀, b₁, b, rfl⟩ : ∃ b₀ b₁ b', b = b₀ :: b₁ :: b' := by
    match b, hb with
    | b₀ :: b₁ :: b, _ => exact ⟨b₀, b₁, b, rfl⟩
  refine ⟨_, rfl, ?_, ?_⟩
  · intro i hi
    have hchar := cryptLoop_inside (b := b₀ :: b₁ :: b) (k := 0) (i := 0) enc (Nat.succ_pos _) hi
    simp only [Nat.zero_add, List.drop_zero] at hchar
    have hlt : i % (b₀ :: b₁ :: b).length < (b₀ :: b₁ :: b).length := Nat.mod_lt _ (Nat.succ_pos _)
    rw [keyStream_getD hi, complement_length, complement_getD hlt]
    exact hchar
  · have hend := cryptLoop_end (b := b₀ :: b₁ :: b) (a := a₀ :: a) (i := 0) (b₀ :: b₁ :: b) enc
    simp only [Nat.zero_add] at hend
    exact hend

/-- The result, for a key without the character 255. -/
theorem crypted_eq (enc : Nat → Byte)
    (ha : a ≠ [])
    (hroom : a.length ≤ 8192)
    (hb : 2 ≤ b.length)
    (hkey : ∀ c ∈ complement b, c ≠ 0) :
    crypted enc (some a) (some b) = some (keyStream (complement b) a.length) := by
  obtain ⟨out, hcrypt, hinside, hend⟩ := crypt_spec enc ha hb
  have hne : complement b ≠ [] := List.ne_nil_of_length_pos (by rw [complement_length]; omega)
  have hstring : IsString out 0 (keyStream (complement b) a.length) := by
    constructor
    · exact keyStream_forall hne hkey
    · intro i hi
      rw [keyStream_length] at hi
      rw [Nat.zero_add, hinside i hi]
    · rwa [Nat.zero_add, keyStream_length]
  rw [crypted, hcrypt]
  exact stringAt_eq_some hstring (by rw [keyStream_length]; omega)

end Result

/-- **The result is the same for every text**: `crypt` under a key of at least two
characters returns one string for all texts of one length, whatever was in its
buffer. -/
theorem crypt_ignores_text (enc enc' : Nat → Byte) {a a' b : List Byte}
    (hb : 2 ≤ b.length)
    (ha : a ≠ [])
    (hlength : a'.length = a.length)
    (hroom : a.length ≤ 8192) :
    ∃ s, crypted enc (some a) (some b) = some s ∧ crypted enc' (some a') (some b) = some s := by
  have ha' : a' ≠ [] := by
    intro hnil
    rw [hnil] at hlength
    exact ha (List.length_eq_zero_iff.mp hlength.symm)
  obtain ⟨out, hcrypt, hinside, hend⟩ := crypt_spec enc ha hb
  obtain ⟨out', hcrypt', hinside', hend'⟩ := crypt_spec enc' ha' hb
  rw [hlength] at hinside' hend'
  have hagree : ∀ i ≤ a.length, out' (0 + i) = out (0 + i) := by
    intro i hi
    rw [Nat.zero_add]
    rcases Nat.lt_or_eq_of_le hi with hlt | rfl
    · rw [hinside i hlt, hinside' i hlt]
    · rw [hend, hend']
  have hend₀ : out (0 + a.length) = 0 := by rwa [Nat.zero_add]
  obtain ⟨s, hs, hs'⟩ := stringAt_congr (n := 8193) hend₀ hagree (by omega)
  refine ⟨s, ?_, ?_⟩
  · rw [crypted, hcrypt]
    exact hs
  · rw [crypted, hcrypt']
    exact hs'

/-- Two texts under the key `zw`. -/
theorem crypt_ignores_text_sample :
    ∃ s, crypted (fun _ => 0) (some [97, 98, 99]) (some [122, 119]) = some s ∧
      crypted (fun _ => 0) (some [120, 121, 122]) (some [122, 119]) = some s :=
  crypt_ignores_text (fun _ => 0) (fun _ => 0) (by decide) (by decide) rfl (by decide)

/-- The texts `a` and `b` have one result. -/
theorem crypt_collides :
    ([97] : List Byte) ≠ [98] ∧
    crypted (fun _ => 0) (some [97]) (some [122, 119]) = some [133] ∧
    crypted (fun _ => 0) (some [98]) (some [122, 119]) = some [133] := by
  decide

end Klyx
