import Klyx.Kernel.Printf

/-!
# The text of a format

What `_vsnprintf` hands to its output function is a text that depends on the
format, the arguments and the memory, but not on the output function, the buffer
or its size.

**Results.**
* `vsnprintfLoop_eq`: the output function receives the text, character by
  character.
* `text_append`: a format behind a complete one takes up with the next argument.
* `supported_iff`: which formats have a text.
* `text_plain`: characters other than `%` stand for themselves.
-/

namespace Klyx

open OutputStream

namespace Printf

/-! ### Conversions -/

def spaces (n : Nat) : List Byte := List.replicate n (ascii ' ')

/-- The text of `_out_rev`. -/
def revText (buf : List Byte) (width : Word) (flags : Flags) : List Byte :=
  (if !flags.left && !flags.zeropad then spaces (width.toNat - buf.length) else []) ++ buf ++
    (if flags.left then spaces (width.toNat - buf.length) else [])

/-- The text of `_ntoa_long`. -/
def ntoaText (value : Word) (negative : Bool) (base prec width : Word) (flags : Flags) :
    List Byte :=
  let flags := if value = 0 then { flags with hash := false } else flags
  revText (formatted (digitsOf value base flags) negative base prec width flags)
    (zeropadWidth negative width flags) flags

/-- A text in a field, with the spaces on one side. -/
def fieldText (s : List Byte) (pad : Nat) (flags : Flags) : List Byte :=
  (if !flags.left then spaces pad else []) ++ s ++ (if flags.left then spaces pad else [])

/-- At most so many characters of the string at an address. -/
def stringText (mem : AddressSpace) : Nat → Word → List Byte
  | 0, _ => []
  | n + 1, p => if mem.byte p = 0 then [] else mem.byte p :: stringText mem n (p + 1)

variable (va : Nat → Word) (mem : AddressSpace)

/-- The text of a conversion, and the number of arguments it takes. -/
def conversionText (s : Scan) (c : Byte) : List Byte × Nat :=
  if isInteger c then
    let flags := integerFlags c s.flags
    let value := signedValue flags (va s.args)
    (if isSigned c then
        ntoaText (if 0 < value.toInt then value else 0 - value) (value.toInt < 0)
          (baseOf c) s.prec s.width flags
      else ntoaText (unsignedValue flags (va s.args)) false (baseOf c) s.prec s.width flags, 1)
  else if c = ascii 'c' then
    (fieldText [(va s.args).setWidth 8] (s.width.toNat - 1) s.flags, 1)
  else if c = ascii 's' then
    let l := strnlenS mem (if s.prec ≠ 0 then s.prec.toNat else 2 ^ 32 - 1) (va s.args)
    let l := if s.flags.precision then min l s.prec.toNat else l
    let shown := stringText mem (if s.flags.precision then s.prec.toNat else 2 ^ 32) (va s.args)
    (fieldText shown (s.width.toNat - l) s.flags, 1)
  else if c = ascii 'p' then
    (ntoaText (va s.args) false 16 s.prec 8
      { s.flags with zeropad := true, uppercase := true }, 1)
  else ([c], 0)

/-- The text of a directive, the rest of the format and the number of arguments
taken. -/
def specifierText (s : Scan) : Except Stop (List Byte × List Byte × Nat) :=
  match s.format with
  | [] => .error .pastFormat
  | c :: format =>
      if isInteger c && s.flags.longLong then .error .longLong
      else .ok ((conversionText va mem s c).1, format, s.args + (conversionText va mem s c).2)

/-- The text of a format, in so many rounds, and the number of arguments taken so
far. -/
def textLoop : Nat → List Byte → Nat → Except Stop (List Byte × Nat)
  | _, [], args => .ok ([], args)
  | 0, _ :: _, args => .ok ([], args)
  | n + 1, c :: format, args =>
      if c ≠ ascii '%' then (textLoop n format args).map fun r => (c :: r.1, r.2)
      else
        match specifierText va mem (evalFields va format args) with
        | .error e => .error e
        | .ok (s, format, args) => (textLoop n format args).map fun r => (s ++ r.1, r.2)

/-- The text of a format whose first argument has the number `args`. -/
def text (format : List Byte) (args : Nat) : Except Stop (List Byte × Nat) :=
  textLoop va mem format.length format args

section Output

variable {β : Type} (out : OutFct β) (maxlen : Word) (o : Output β 32)

/-- Hand a text to an output function. -/
def write (s : List Byte) : Output β 32 :=
  emit (fun c b i => out c b i maxlen) o s

variable {out maxlen o}

theorem write_append (s t : List Byte) :
    write out maxlen o (s ++ t) = write out maxlen (write out maxlen o s) t :=
  emit_append

theorem outSpaces_eq (n : Nat) :
    outSpaces out maxlen n o = write out maxlen o (spaces n) := by
  induction n generalizing o with
  | zero =>
      rfl
  | succ n ih =>
      exact ih

/-- What a conditional loop of spaces writes. -/
theorem outSpaces_if (p : Prop) [Decidable p] (n : Nat) :
    (if p then outSpaces out maxlen n o else o) =
      write out maxlen o (if p then spaces n else []) := by
  split
  · exact outSpaces_eq n
  · rfl

theorem outRev_eq {buf : List Byte} (width : Word) {flags : Flags}
    (h : buf.length < 2 ^ 32) :
    outRev out maxlen o buf width flags = write out maxlen o (revText buf width flags) := by
  unfold outRev revText
  dsimp only
  cases hleft : flags.left with
  | false =>
      simp only [Bool.false_eq_true, if_false, List.append_nil]
      rw [outSpaces_if, write_append]
      rfl
  | true =>
      -- nothing is padded on the left, so the index has moved by the characters
      have hidx : (write out maxlen o buf).idx = o.idx + BitVec.ofNat 32 buf.length :=
        emit_idx
      have hlength : (BitVec.ofNat 32 buf.length).toNat = buf.length := by
        rw [BitVec.toNat_ofNat, Nat.mod_eq_of_lt h]
      have hmoved : ((write out maxlen o buf).idx - o.idx).toNat = buf.length := by
        rw [hidx, BitVec.add_comm, BitVec.add_sub_cancel, hlength]
      change outSpaces out maxlen (width.toNat - ((write out maxlen o buf).idx - o.idx).toNat)
        (write out maxlen o buf) = _
      rw [hmoved, outSpaces_eq]
      exact (write_append _ _).symm

/-! The digits and the padding fit in the buffer. -/

theorem pushZeros_eq (n : Nat) (buf : List Byte) :
    pushZeros n buf = List.replicate n (ascii '0') ++ buf := by
  induction n generalizing buf with
  | zero =>
      rfl
  | succ n ih =>
      rw [pushZeros, ih, List.replicate_succ', List.append_assoc]
      rfl

theorem pushIfRoom_length {ch : Byte} {buf : List Byte}
    (h : buf.length ≤ ntoaBufferSize) :
    (pushIfRoom ch buf).length ≤ ntoaBufferSize := by
  unfold pushIfRoom
  split
  · assumption
  · exact h

theorem padLeadingZeros_length {buf : List Byte} {prec width : Word} {flags : Flags}
    (h : buf.length ≤ ntoaBufferSize) :
    (padLeadingZeros buf prec width flags).length ≤ ntoaBufferSize := by
  unfold padLeadingZeros
  simp only [pushZeros_eq]
  split
  · exact h
  · split <;> simp only [List.length_append, List.length_replicate] <;> omega

theorem dropForHash_length (buf : List Byte) (base prec width : Word) (flags : Flags) :
    (dropForHash buf base prec width flags).length ≤ buf.length := by
  unfold dropForHash
  dsimp only
  split
  · split <;> simp only [List.length_tail] <;> omega
  · exact Nat.le_refl _

theorem handleHash_length {buf : List Byte} {base prec width : Word} {flags : Flags}
    (h : buf.length ≤ ntoaBufferSize) :
    (handleHash buf base prec width flags).length ≤ ntoaBufferSize := by
  unfold handleHash
  have hdrop := Nat.le_trans (dropForHash_length buf base prec width flags) h
  split
  · apply pushIfRoom_length
    split
    · exact pushIfRoom_length hdrop
    · split
      · exact pushIfRoom_length hdrop
      · exact hdrop
  · exact h

theorem pushSign_length {buf : List Byte} {negative : Bool} {flags : Flags}
    (h : buf.length ≤ ntoaBufferSize) :
    (pushSign buf negative flags).length ≤ ntoaBufferSize := by
  unfold pushSign
  split
  · exact pushIfRoom_length h
  split
  · exact pushIfRoom_length h
  split
  · exact pushIfRoom_length h
  · exact h

theorem ntoaDigits_length (uppercase : Bool) (base : Word) (room : Nat) (value : Word)
    (buf : List Byte) :
    (ntoaDigits uppercase base room value buf).length ≤ buf.length + room := by
  induction room generalizing value buf with
  | zero =>
      exact Nat.le_refl _
  | succ room ih =>
      rw [ntoaDigits]
      split
      · rw [List.length_cons]
        omega
      · refine Nat.le_trans (ih _ _) ?_
        rw [List.length_cons]
        omega

theorem digitsOf_length (value base : Word) (flags : Flags) :
    (digitsOf value base flags).length ≤ ntoaBufferSize := by
  unfold digitsOf
  split
  · have hroom := ntoaDigits_length flags.uppercase base ntoaBufferSize value []
    rwa [List.length_nil, Nat.zero_add] at hroom
  · exact Nat.zero_le _

theorem formatted_length {buf : List Byte} {negative : Bool} {base prec width : Word}
    {flags : Flags}
    (h : buf.length ≤ ntoaBufferSize) :
    (formatted buf negative base prec width flags).length ≤ ntoaBufferSize :=
  pushSign_length (handleHash_length (padLeadingZeros_length h))

theorem ntoaLong_eq (value : Word) (negative : Bool) (base prec width : Word) (flags : Flags) :
    ntoaLong out maxlen o value negative base prec width flags =
      write out maxlen o (ntoaText value negative base prec width flags) := by
  have hsmall : ntoaBufferSize < 2 ^ 32 := by decide
  exact outRev_eq _ (Nat.lt_of_le_of_lt (formatted_length (digitsOf_length _ _ _)) hsmall)

/-! ### The other conversions -/

/-- Spaces on one side of what is written between them. -/
theorem field_eq {s : List Byte} {pad : Nat} {flags : Flags} :
    (let o := if !flags.left then outSpaces out maxlen pad o else o
     let o := write out maxlen o s
     if flags.left then outSpaces out maxlen pad o else o) =
      write out maxlen o (fieldText s pad flags) := by
  dsimp only
  rw [outSpaces_if, outSpaces_if, fieldText, write_append, write_append]

theorem outString_eq (n : Nat) (p : Word) :
    outString mem out maxlen n p o = write out maxlen o (stringText mem n p) := by
  induction n generalizing p o with
  | zero =>
      rfl
  | succ n ih =>
      rw [outString, stringText]
      split
      · rfl
      · exact ih (p + 1)

theorem convertInteger_eq (s : Scan) {c : Byte}
    (hc : isInteger c) :
    convertInteger va out maxlen s c o = write out maxlen o (conversionText va mem s c).1 := by
  unfold convertInteger conversionText
  rw [if_pos hc]
  dsimp only
  split <;> exact ntoaLong_eq _ _ _ _ _ _

theorem convertChar_eq (s : Scan) :
    convertChar va out maxlen s o =
      write out maxlen o (conversionText va mem s (ascii 'c')).1 :=
  @field_eq β out maxlen o [(va s.args).setWidth 8] (s.width.toNat - 1) s.flags

theorem convertString_eq (s : Scan) :
    convertString va mem out maxlen s o =
      write out maxlen o (conversionText va mem s (ascii 's')).1 := by
  unfold convertString
  simp only [outString_eq]
  exact field_eq

/-- A specifier hands on the text of its conversion. -/
theorem evalSpecifier_eq (s : Scan) :
    evalSpecifier va mem out maxlen s o =
      (specifierText va mem s).map fun r => (write out maxlen o r.1, r.2) := by
  unfold evalSpecifier specifierText
  cases hformat : s.format with
  | nil =>
      rfl
  | cons c format =>
      dsimp only
      by_cases hint : isInteger c
      · have hargs : (conversionText va mem s c).2 = 1 := by
          rw [conversionText, if_pos hint]
        rw [if_pos hint, hint, Bool.true_and, hargs, convertInteger_eq va mem s hint]
        split <;> rfl
      · rw [if_neg hint, Bool.eq_false_of_not_eq_true hint, Bool.false_and]
        by_cases hchar : c = ascii 'c'
        · subst hchar
          exact congrArg (fun o' => Except.ok (o', format, s.args + 1))
            (convertChar_eq va mem s)
        by_cases hstring : c = ascii 's'
        · subst hstring
          exact congrArg (fun o' => Except.ok (o', format, s.args + 1))
            (convertString_eq va mem s)
        by_cases hpointer : c = ascii 'p'
        · subst hpointer
          exact congrArg (fun o' => Except.ok (o', format, s.args + 1)) (ntoaLong_eq _ _ _ _ _ _)
        · rw [if_neg hchar, if_neg hstring, if_neg hpointer, conversionText, if_neg hint,
            if_neg hchar, if_neg hstring, if_neg hpointer]
          rfl

/-- **The output function receives the text.** -/
theorem vsnprintfLoop_eq (n : Nat) (format : List Byte) (args : Nat) :
    vsnprintfLoop va mem out maxlen n format args o =
      (textLoop va mem n format args).map fun r => write out maxlen o r.1 := by
  induction n generalizing format args o with
  | zero =>
      cases format <;> rfl
  | succ n ih =>
      cases format with
      | nil =>
          rfl
      | cons c format =>
          rw [vsnprintfLoop, textLoop]
          split
          · rw [ih]
            cases textLoop va mem n format args <;> rfl
          · rw [evalSpecifier_eq]
            cases specifierText va mem (evalFields va format args) with
            | error e =>
                rfl
            | ok r =>
                change vsnprintfLoop va mem out maxlen n r.2.1 r.2.2 (write out maxlen o r.1) = _
                rw [ih]
                dsimp only
                cases textLoop va mem n r.2.1 r.2.2 with
                | error e => rfl
                | ok t => exact congrArg Except.ok (write_append _ _).symm

end Output

/-! ### Formats one after the other -/

/-- A scan with more of the format behind. -/
def Scan.append (s : Scan) (g : List Byte) : Scan :=
  { s with format := s.format ++ g }

/-- A part of the scan of a directive.  It takes characters from the front, and does
not look behind a character that it leaves. -/
structure IsStage (f : Scan → Scan) : Prop where
  shorter : ∀ s, (f s).format.length ≤ s.format.length
  extends_ : ∀ s g, (f s).format ≠ [] → f (s.append g) = (f s).append g

theorem IsStage.comp {f f' : Scan → Scan}
    (hf : IsStage f) (hf' : IsStage f') :
    IsStage fun s => f' (f s) := by
  refine ⟨fun s => Nat.le_trans (hf'.shorter _) (hf.shorter s), ?_⟩
  intro s g hne
  have hbefore : (f s).format ≠ [] := by
    intro hnil
    have hlength := hf'.shorter (f s)
    rw [hnil] at hlength
    exact hne (List.eq_nil_of_length_eq_zero (Nat.le_zero.mp hlength))
  rw [hf.extends_ s g hbefore, hf'.extends_ _ g hne]

theorem atoi_stage (i : Word) (f g : List Byte) :
    (atoi i f).2.length ≤ f.length ∧
      ((atoi i f).2 ≠ [] → atoi i (f ++ g) = ((atoi i f).1, (atoi i f).2 ++ g)) := by
  induction f generalizing i with
  | nil =>
      exact ⟨Nat.le_refl _, fun h => absurd rfl h⟩
  | cons c f ih =>
      rw [List.cons_append, atoi, atoi]
      split
      · exact ⟨Nat.le_succ_of_le (ih _).1, (ih _).2⟩
      · exact ⟨Nat.le_refl _, fun _ => rfl⟩

theorem evalFlags_stage (flags : Flags) (f g : List Byte) :
    (evalFlags flags f).2.length ≤ f.length ∧
      ((evalFlags flags f).2 ≠ [] →
        evalFlags flags (f ++ g) = ((evalFlags flags f).1, (evalFlags flags f).2 ++ g)) := by
  induction f generalizing flags with
  | nil =>
      exact ⟨Nat.le_refl _, fun h => absurd rfl h⟩
  | cons c f ih =>
      rw [List.cons_append, evalFlags, evalFlags]
      by_cases hzero : c = ascii '0'
      · simp only [hzero, if_true]
        exact ⟨Nat.le_succ_of_le (ih _).1, (ih _).2⟩
      by_cases hminus : c = ascii '-'
      · simp only [hminus]
        exact ⟨Nat.le_succ_of_le (ih _).1, (ih _).2⟩
      by_cases hplus : c = ascii '+'
      · simp only [hplus]
        exact ⟨Nat.le_succ_of_le (ih _).1, (ih _).2⟩
      by_cases hspace : c = ascii ' '
      · simp only [hspace]
        exact ⟨Nat.le_succ_of_le (ih _).1, (ih _).2⟩
      by_cases hhash : c = ascii '#'
      · simp only [hhash]
        exact ⟨Nat.le_succ_of_le (ih _).1, (ih _).2⟩
      · simp only [hzero, hminus, hplus, hspace, hhash, if_false]
        exact ⟨Nat.le_refl _, fun _ => rfl⟩

theorem evalWidth_isStage :
    IsStage (evalWidth va) := by
  constructor
  · rintro ⟨flags, width, prec, _ | ⟨c, rest⟩, args⟩
    · exact Nat.le_refl _
    · unfold evalWidth
      dsimp only
      split
      · exact (atoi_stage 0 (c :: rest) []).1
      split
      · split <;> exact Nat.le_succ _
      · exact Nat.le_refl _
  · rintro ⟨flags, width, prec, _ | ⟨c, rest⟩, args⟩ g hne
    · exact absurd rfl hne
    · unfold evalWidth Scan.append at *
      dsimp only [List.cons_append] at *
      by_cases hdigit : isDigit c
      · simp only [hdigit, if_true] at *
        rw [← List.cons_append, (atoi_stage 0 (c :: rest) g).2 hne]
      · simp only [hdigit, if_false, Bool.false_eq_true] at *
        split
        · split <;> rfl
        · rfl

theorem evalPrecision_isStage :
    IsStage (evalPrecision va) := by
  constructor
  · rintro ⟨flags, width, prec, _ | ⟨c, _ | ⟨d, rest⟩⟩, args⟩
    · exact Nat.le_refl _
    · unfold evalPrecision
      dsimp only
      split
      · exact Nat.le_succ _
      · exact Nat.le_refl _
    · unfold evalPrecision
      dsimp only
      split
      · split
        · exact Nat.le_succ_of_le (atoi_stage 0 (d :: rest) []).1
        split
        · exact Nat.le_succ_of_le (Nat.le_succ _)
        · exact Nat.le_succ _
      · exact Nat.le_refl _
  · rintro ⟨flags, width, prec, _ | ⟨c, _ | ⟨d, rest⟩⟩, args⟩ g hne
    · exact absurd rfl hne
    · -- only a character other than the point is left at the end
      unfold evalPrecision Scan.append at *
      dsimp only [List.cons_append, List.nil_append] at *
      by_cases hpoint : c = ascii '.'
      · simp only [hpoint, if_true] at hne
        exact absurd rfl hne
      · simp only [hpoint, if_false]
        rfl
    · unfold evalPrecision Scan.append at *
      dsimp only [List.cons_append] at *
      by_cases hpoint : c = ascii '.'
      · by_cases hdigit : isDigit d
        · simp only [hpoint, hdigit, if_true] at *
          rw [← List.cons_append, (atoi_stage 0 (d :: rest) g).2 hne]
        · simp only [hpoint, hdigit, if_true, if_false, Bool.false_eq_true] at *
          split <;> rfl
      · simp only [hpoint, if_false]
        rfl

theorem evalLength_isStage :
    IsStage evalLength := by
  constructor
  · rintro ⟨flags, width, prec, _ | ⟨c, _ | ⟨d, rest⟩⟩, args⟩
    · exact Nat.le_refl _
    · unfold evalLength
      dsimp only
      repeat' split
      all_goals simp
    · unfold evalLength
      dsimp only
      repeat' split
      all_goals simp only [List.length_cons]; omega
  · have hother : ascii 'h' ≠ ascii 'l' := by decide
    rintro ⟨flags, width, prec, _ | ⟨c, rest⟩, args⟩ g hne
    · exact absurd rfl hne
    unfold evalLength Scan.append at *
    dsimp only [List.cons_append] at *
    by_cases hl : c = ascii 'l'
    · subst hl
      cases rest with
      | nil => exact absurd rfl hne
      | cons d rest =>
          simp only [if_true, List.cons_append]
          split <;> rfl
    by_cases hh : c = ascii 'h'
    · subst hh
      cases rest with
      | nil =>
          rw [if_neg hother] at hne
          exact absurd rfl hne
      | cons d rest =>
          simp only [hother, if_true, if_false, List.cons_append]
          split <;> rfl
    · simp only [hl, hh, if_false]
      split
      · rfl
      split
      · rfl
      split <;> rfl

/-- The fields of a directive that is complete do not depend on what follows. -/
theorem evalFields_stage (f g : List Byte) (args : Nat) :
    (evalFields va f args).format.length ≤ f.length ∧
      ((evalFields va f args).format ≠ [] →
        evalFields va (f ++ g) args = (evalFields va f args).append g) := by
  have hstage := (evalWidth_isStage va).comp ((evalPrecision_isStage va).comp evalLength_isStage)
  have hflags := evalFlags_stage .none f g
  have hshorter := hstage.shorter ⟨(evalFlags .none f).1, 0, 0, (evalFlags .none f).2, args⟩
  refine ⟨Nat.le_trans hshorter hflags.1, ?_⟩
  intro hne
  have hleft : (evalFlags .none f).2 ≠ [] := by
    intro hnil
    have hnone := Nat.le_trans hshorter (Nat.le_of_eq (congrArg List.length hnil))
    exact hne (List.eq_nil_of_length_eq_zero (Nat.le_zero.mp hnone))
  have hextends := hstage.extends_ _ g hne
  unfold evalFields
  rw [hflags.2 hleft]
  exact hextends

/-- A complete directive takes characters. -/
theorem specifierText_shorter {s : Scan} {t : List Byte} {rest : List Byte} {args : Nat}
    (h : specifierText va mem s = .ok (t, rest, args)) :
    rest.length < s.format.length := by
  unfold specifierText at h
  cases hformat : s.format with
  | nil =>
      rw [hformat] at h
      cases h
  | cons c format =>
      rw [hformat] at h
      dsimp only at h
      split at h
      · cases h
      · cases h
        exact Nat.lt_succ_self _

theorem specifierText_append {s : Scan} {r : List Byte × List Byte × Nat} (g : List Byte)
    (h : specifierText va mem s = .ok r) :
    s.format ≠ [] ∧ specifierText va mem (s.append g) = .ok (r.1, r.2.1 ++ g, r.2.2) := by
  unfold specifierText Scan.append at *
  cases hformat : s.format with
  | nil =>
      rw [hformat] at h
      cases h
  | cons c format =>
      rw [hformat] at h
      refine ⟨List.cons_ne_nil _ _, ?_⟩
      dsimp only [List.cons_append] at *
      split at h
      · cases h
      · next hok =>
          rw [if_neg hok]
          cases h
          rfl

/-- More rounds than characters make no difference. -/
theorem textLoop_rounds {n : Nat} {format : List Byte} (args : Nat)
    (h : format.length ≤ n) :
    textLoop va mem n format args = text va mem format args := by
  suffices hboth : ∀ n m : Nat, format.length ≤ n → format.length ≤ m →
      textLoop va mem n format args = textLoop va mem m format args from
    hboth n format.length h (Nat.le_refl _)
  clear h n
  intro n
  induction n generalizing format args with
  | zero =>
      intro m hn hm
      have hnil : format = [] := List.eq_nil_of_length_eq_zero (Nat.le_zero.mp hn)
      subst hnil
      cases m <;> rfl
  | succ n ih =>
      intro m hn hm
      cases format with
      | nil =>
          cases m <;> rfl
      | cons c format =>
          rw [List.length_cons] at hn hm
          cases m with
          | zero => omega
          | succ m =>
              rw [textLoop, textLoop]
              split
              · rw [ih args m (by omega) (by omega)]
              · cases hspec : specifierText va mem (evalFields va format args) with
                | error e => rfl
                | ok r =>
                    have hlt := specifierText_shorter va mem hspec
                    have hle := (evalFields_stage va format [] args).1
                    dsimp only
                    rw [ih r.2.2 m (by omega) (by omega)]

/-! ### The directives of a format -/

/-- Whether a specifier takes an argument. -/
def takesArg (c : Byte) : Bool :=
  isInteger c || c = ascii 'c' || c = ascii 's' || c = ascii 'p'

/-- A directive that is complete, and no integer of 64 bits (`ll` or `j`). -/
def Scan.supported (s : Scan) : Bool :=
  match s.format with
  | [] => false
  | c :: _ => !(isInteger c && s.flags.longLong)

/-- The directives that the loop reads in so many rounds, from the argument with the
number `args` on. -/
def directives : Nat → List Byte → Nat → List Scan
  | _, [], _ => []
  | 0, _ :: _, _ => []
  | n + 1, c :: format, args =>
      if c ≠ ascii '%' then directives n format args
      else
        let s := evalFields va format args
        match s.format with
        | [] => [s]
        | c :: rest => s :: directives n rest (s.args + if takesArg c then 1 else 0)

/-- A format without directives for integers of 64 bits, and without one that the end of
the format cuts off. -/
def Supported (format : List Byte) : Prop :=
  ∀ s ∈ directives va format.length format 0, s.supported = true

instance (format : List Byte) : Decidable (Supported va format) :=
  inferInstanceAs (Decidable (∀ s ∈ directives va format.length format 0, s.supported = true))

theorem conversionText_args (s : Scan) (c : Byte) :
    (conversionText va mem s c).2 = if takesArg c then 1 else 0 := by
  unfold conversionText takesArg
  split_ifs <;> simp_all

theorem specifierText_of_supported {s : Scan}
    (h : s.supported = true) :
    ∃ c rest, s.format = c :: rest ∧ specifierText va mem s =
      .ok ((conversionText va mem s c).1, rest, s.args + if takesArg c then 1 else 0) := by
  unfold Scan.supported at h
  cases hformat : s.format with
  | nil =>
      rw [hformat] at h
      cases h
  | cons c rest =>
      rw [hformat] at h
      have hint : (isInteger c && s.flags.longLong) = false := Bool.not_eq_true' _ ▸ h
      refine ⟨c, rest, rfl, ?_⟩
      unfold specifierText
      rw [hformat, ← conversionText_args va mem s c]
      exact if_neg (by simp [hint])

theorem specifierText_of_not_supported {s : Scan}
    (h : s.supported = false) :
    ∃ e, specifierText va mem s = .error e := by
  unfold Scan.supported at h
  unfold specifierText
  cases hformat : s.format with
  | nil =>
      exact ⟨_, rfl⟩
  | cons c rest =>
      rw [hformat] at h
      have hint : (isInteger c && s.flags.longLong) = true := by simpa using h
      exact ⟨_, if_pos hint⟩

theorem textLoop_ok_iff (n : Nat) (format : List Byte) (args : Nat) :
    (∃ r, textLoop va mem n format args = .ok r) ↔
      ∀ s ∈ directives va n format args, s.supported = true := by
  induction n generalizing format args with
  | zero =>
      cases format <;> simp [textLoop, directives]
  | succ n ih =>
      cases format with
      | nil => simp [textLoop, directives]
      | cons c format =>
          have hmap : ∀ (x : Except Stop (List Byte × Nat)) (f : List Byte × Nat → List Byte × Nat),
              (∃ r, x.map f = .ok r) ↔ ∃ r, x = .ok r := by
            intro x f
            cases x <;> simp [Except.map]
          rw [textLoop, directives]
          split
          · rw [hmap, ih]
          · dsimp only
            cases hs : (evalFields va format args).supported with
            | false =>
                rcases specifierText_of_not_supported va mem hs with ⟨e, herror⟩
                rw [herror]
                constructor
                · rintro ⟨r, hr⟩
                  cases hr
                · intro hall
                  have hself := hall (evalFields va format args) (by
                    cases (evalFields va format args).format <;> simp)
                  rw [hs] at hself
                  cases hself
            | true =>
                rcases specifierText_of_supported va mem hs with ⟨c, rest, hformat, hspec⟩
                rw [hspec, hformat]
                dsimp only
                rw [hmap, ih, List.forall_mem_cons]
                exact (and_iff_right hs).symm

/-- **A format has a text exactly if all its directives are supported.** -/
theorem supported_iff (format : List Byte) :
    Supported va format ↔ ∃ r, text va mem format 0 = .ok r :=
  (textLoop_ok_iff va mem _ _ _).symm

section Append

variable {va mem}

theorem text_nil (args : Nat) :
    text va mem [] args = .ok ([], args) := rfl

/-- A character that begins no directive. -/
theorem text_cons {c : Byte} (format : List Byte) (args : Nat)
    (hc : c ≠ ascii '%') :
    text va mem (c :: format) args =
      (text va mem format args).map fun r => (c :: r.1, r.2) := by
  rw [text, List.length_cons, textLoop, if_pos hc]
  rfl

/-- A directive. -/
theorem text_directive (format : List Byte) (args : Nat) :
    text va mem (ascii '%' :: format) args =
      match specifierText va mem (evalFields va format args) with
      | .error e => .error e
      | .ok (s, rest, args) => (text va mem rest args).map fun r => (s ++ r.1, r.2) := by
  rw [text, List.length_cons, textLoop, if_neg (by simp)]
  cases hspec : specifierText va mem (evalFields va format args) with
  | error e => rfl
  | ok r =>
      obtain ⟨s, rest, args'⟩ := r
      have hlt := specifierText_shorter va mem hspec
      have hle := (evalFields_stage va format [] args).1
      have hrounds : rest.length ≤ format.length := by omega
      dsimp only
      rw [textLoop_rounds va mem args' hrounds]

/-- **Formats one after the other**: a format behind a complete one takes up with the
next argument. -/
theorem text_append {f : List Byte} {args : Nat} {r : List Byte × Nat} (g : List Byte)
    (h : text va mem f args = .ok r) :
    text va mem (f ++ g) args = (text va mem g r.2).map fun r' => (r.1 ++ r'.1, r'.2) := by
  suffices hbound : ∀ n : Nat, f.length ≤ n → _ from hbound f.length (Nat.le_refl _)
  intro n
  induction n generalizing f args r with
  | zero =>
      intro hn
      have hnil : f = [] := List.eq_nil_of_length_eq_zero (Nat.le_zero.mp hn)
      subst hnil
      cases h
      rw [List.nil_append]
      cases text va mem g args <;> rfl
  | succ n ih =>
      intro hn
      cases f with
      | nil =>
          cases h
          rw [List.nil_append]
          cases text va mem g args <;> rfl
      | cons c f =>
          rw [List.length_cons] at hn
          rw [List.cons_append]
          by_cases hc : c = ascii '%'
          · subst hc
            rw [text_directive] at h ⊢
            cases hspec : specifierText va mem (evalFields va f args) with
            | error e =>
                rw [hspec] at h
                cases h
            | ok s =>
                obtain ⟨s, rest, args'⟩ := s
                rw [hspec] at h
                dsimp only at h
                have happend := specifierText_append va mem g hspec
                have hlt := specifierText_shorter va mem hspec
                have hle := (evalFields_stage va f g args).1
                rw [(evalFields_stage va f g args).2 happend.1, happend.2]
                dsimp only
                cases hrest : text va mem rest args' with
                | error e =>
                    rw [hrest] at h
                    cases h
                | ok t =>
                    rw [hrest] at h
                    cases h
                    rw [ih hrest (by omega)]
                    cases text va mem g t.2 with
                    | error e => rfl
                    | ok t' =>
                        exact congrArg (fun s' => Except.ok (s', t'.2))
                          (List.append_assoc _ _ _).symm
          · rw [text_cons _ _ hc] at h ⊢
            cases hrest : text va mem f args with
            | error e =>
                rw [hrest] at h
                cases h
            | ok t =>
                rw [hrest] at h
                cases h
                rw [ih hrest (by omega)]
                cases text va mem g t.2 <;> rfl

/-- Characters other than `%` stand for themselves. -/
theorem text_plain {f : List Byte} (args : Nat)
    (h : ∀ c ∈ f, c ≠ ascii '%') :
    text va mem f args = .ok (f, args) := by
  induction f with
  | nil =>
      rfl
  | cons c f ih =>
      rw [text_cons _ _ (h c List.mem_cons_self),
        ih fun d hd => h d (List.mem_cons_of_mem _ hd)]
      rfl

end Append

end Printf

end Klyx
