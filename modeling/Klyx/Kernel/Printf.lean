import Klyx.Kernel.Hardware
import Klyx.Lib.OutputStream

/-!
# Formatted output

`_vsnprintf` of `thirdparty/printf.c`, which all text of the kernel goes through,
without floating point, which the kernel does not compile.

An output function takes a character, its buffer, the character's index and the
size of the buffer.  Arguments are words on the stack: one behind the last is
whatever lies there.  The 64-bit conversions divide by routines that this file
declares with 32-bit operands, and a directive that the terminator cuts off lets
the scan run on behind the format; both are outside the model and stop it.
-/

namespace Klyx

open OutputStream

/-- A character constant. -/
abbrev ascii (c : Char) : Byte := BitVec.ofNat 8 c.toNat

/-- The characters of a string literal. -/
def asciiOf (s : String) : List Byte := s.toList.map ascii

/-- The bytes of the address space.  Some byte is zero, so that a scan for the end of
a string comes to one. -/
structure AddressSpace where
  byte : Word → Byte
  hasZero : ∃ a, byte a = 0

namespace Printf

/-- `PRINTF_NTOA_BUFFER_SIZE`. -/
def ntoaBufferSize : Nat := 32

/-- The bits of `flags`. -/
structure Flags where
  zeropad : Bool
  left : Bool
  plus : Bool
  space : Bool
  hash : Bool
  uppercase : Bool
  char : Bool
  short : Bool
  long : Bool
  longLong : Bool
  precision : Bool
deriving DecidableEq

/-- `flags = 0U`. -/
def Flags.none : Flags :=
  ⟨false, false, false, false, false, false, false, false, false, false, false⟩

/-- `out_fct_type`: the character, the buffer, the index and the size. -/
abbrev OutFct (β : Type) := Byte → β → Word → Word → β

/-- `_out_buffer`. -/
def outBuffer : OutFct (Nat → Byte) :=
  fun ch buffer idx maxlen => store maxlen ch buffer idx

/-- `_out_null`. -/
def outNull {β : Type} : OutFct β :=
  fun _ buffer _ _ => buffer

/-- `_out_fct`, whose `fct` acts on what lies behind its argument. -/
def outFct {β : Type} (fct : Byte → β → β) : OutFct β :=
  fun ch buffer _ _ => if ch ≠ 0 then fct ch buffer else buffer

/-! ### Integers -/

section Integers

variable {β : Type} (out : OutFct β) (maxlen : Word)

/-- `out(ch, buffer, idx++, maxlen)`. -/
def outChar (o : Output β 32) (ch : Byte) : Output β 32 :=
  put (fun c b i => out c b i maxlen) o ch

/-- `out` of a number of spaces. -/
def outSpaces : Nat → Output β 32 → Output β 32
  | 0, o => o
  | n + 1, o => outSpaces n (outChar out maxlen o (ascii ' '))

/-- `_out_rev`.  The buffer is a list with the character stored last in front, the
order in which the loop reads it. -/
def outRev (o : Output β 32) (buf : List Byte) (width : Word) (flags : Flags) :
    Output β 32 :=
  let startIdx := o.idx
  let o := if !flags.left && !flags.zeropad then
      outSpaces out maxlen (width.toNat - buf.length) o else o
  let o := buf.foldl (outChar out maxlen) o
  -- the loop condition is `idx - start_idx < width`
  if flags.left then outSpaces out maxlen (width.toNat - (o.idx - startIdx).toNat) o else o

/-- `buf[len++] = '0'` a number of times. -/
def pushZeros : Nat → List Byte → List Byte
  | 0, buf => buf
  | n + 1, buf => pushZeros n (ascii '0' :: buf)

/-- The width that is left for digits when they are padded with zeros and a sign
comes in front. -/
def zeropadWidth (negative : Bool) (width : Word) (flags : Flags) : Word :=
  if !flags.left && width ≠ 0 && flags.zeropad && (negative || flags.plus || flags.space)
  then width - 1 else width

/-- "pad leading zeros". -/
def padLeadingZeros (buf : List Byte) (prec width : Word) (flags : Flags) : List Byte :=
  if flags.left then buf
  else
    let buf := pushZeros (min prec.toNat ntoaBufferSize - buf.length) buf
    if flags.zeropad then pushZeros (min width.toNat ntoaBufferSize - buf.length) buf else buf

/-- `if (len < PRINTF_NTOA_BUFFER_SIZE) buf[len++] = ch`. -/
def pushIfRoom (ch : Byte) (buf : List Byte) : List Byte :=
  if buf.length < ntoaBufferSize then ch :: buf else buf

/-- The first half of "handle hash": make room for the prefix among the zeros. -/
def dropForHash (buf : List Byte) (base prec width : Word) (flags : Flags) : List Byte :=
  if !flags.precision && !buf.isEmpty && (buf.length = prec.toNat || buf.length = width.toNat) then
    let buf := buf.tail
    if !buf.isEmpty && base = 16 then buf.tail else buf
  else buf

/-- "handle hash". -/
def handleHash (buf : List Byte) (base prec width : Word) (flags : Flags) : List Byte :=
  if flags.hash then
    let buf := dropForHash buf base prec width flags
    let buf :=
      if base = 16 then pushIfRoom (if flags.uppercase then ascii 'X' else ascii 'x') buf
      else if base = 2 then pushIfRoom (ascii 'b') buf
      else buf
    pushIfRoom (ascii '0') buf
  else buf

/-- The sign. -/
def pushSign (buf : List Byte) (negative : Bool) (flags : Flags) : List Byte :=
  if negative then pushIfRoom (ascii '-') buf
  else if flags.plus then pushIfRoom (ascii '+') buf
  else if flags.space then pushIfRoom (ascii ' ') buf
  else buf

/-- What `_ntoa_format` leaves in `buf`. -/
def formatted (buf : List Byte) (negative : Bool) (base prec width : Word) (flags : Flags) :
    List Byte :=
  let width := zeropadWidth negative width flags
  pushSign (handleHash (padLeadingZeros buf prec width flags) base prec width flags)
    negative flags

/-- `_ntoa_format`. -/
def ntoaFormat (o : Output β 32) (buf : List Byte) (negative : Bool)
    (base prec width : Word) (flags : Flags) : Output β 32 :=
  outRev out maxlen o (formatted buf negative base prec width flags)
    (zeropadWidth negative width flags) flags

/-- The character of a digit. -/
def digitChar (uppercase : Bool) (digit : Byte) : Byte :=
  if digit.toNat < 10 then ascii '0' + digit
  else (if uppercase then ascii 'A' else ascii 'a') + digit - 10

/-- The loop of `_ntoa_long`, with the room that is left in `buf`. -/
def ntoaDigits (uppercase : Bool) (base : Word) : Nat → Word → List Byte → List Byte
  | 0, _, buf => buf
  | room + 1, value, buf =>
      let buf := digitChar uppercase ((value % base).setWidth 8) :: buf
      if value / base = 0 then buf else ntoaDigits uppercase base room (value / base) buf

/-- The digits that `_ntoa_long` stores, none for 0 under a precision. -/
def digitsOf (value base : Word) (flags : Flags) : List Byte :=
  if !flags.precision || value ≠ 0 then
    ntoaDigits flags.uppercase base ntoaBufferSize value []
  else []

/-- `_ntoa_long`. -/
def ntoaLong (o : Output β 32) (value : Word) (negative : Bool)
    (base prec width : Word) (flags : Flags) : Output β 32 :=
  let flags := if value = 0 then { flags with hash := false } else flags
  ntoaFormat out maxlen o (digitsOf value base flags) negative base prec width flags

end Integers

/-! ### The fields of a directive -/

/-- `_is_digit`. -/
def isDigit (ch : Byte) : Bool :=
  48 ≤ ch.toNat && ch.toNat ≤ 57

/-- `_atoi`, from the number read so far. -/
def atoi (i : Word) : List Byte → Word × List Byte
  | [] => (i, [])
  | c :: str => if isDigit c then atoi (i * 10 + (c - 48).setWidth 32) str else (i, c :: str)

/-- "evaluate flags". -/
def evalFlags (flags : Flags) : List Byte → Flags × List Byte
  | [] => (flags, [])
  | c :: format =>
      if c = ascii '0' then evalFlags { flags with zeropad := true } format
      else if c = ascii '-' then evalFlags { flags with left := true } format
      else if c = ascii '+' then evalFlags { flags with plus := true } format
      else if c = ascii ' ' then evalFlags { flags with space := true } format
      else if c = ascii '#' then evalFlags { flags with hash := true } format
      else (flags, c :: format)

/-- Where the scan of a directive is: the fields so far, the rest of the format, and
the number of arguments taken. -/
structure Scan where
  flags : Flags
  width : Word
  prec : Word
  format : List Byte
  args : Nat
deriving DecidableEq

variable (va : Nat → Word)

/-- "evaluate width field". -/
def evalWidth (s : Scan) : Scan :=
  match s.format with
  | [] => s
  | c :: rest =>
      if isDigit c then
        { s with width := (atoi 0 s.format).1, format := (atoi 0 s.format).2 }
      else if c = ascii '*' then
        let w := va s.args
        if w.toInt < 0 then
          { s with
            flags := { s.flags with left := true }
            width := -w
            format := rest
            args := s.args + 1 }
        else { s with width := w, format := rest, args := s.args + 1 }
      else s

/-- "evaluate precision field". -/
def evalPrecision (s : Scan) : Scan :=
  match s.format with
  | [] => s
  | c :: rest =>
      if c = ascii '.' then
        let s := { s with flags := { s.flags with precision := true }, format := rest }
        match rest with
        | [] => s
        | d :: rest' =>
            if isDigit d then { s with prec := (atoi 0 rest).1, format := (atoi 0 rest).2 }
            else if d = ascii '*' then
              let prec := va s.args
              { s with
                prec := if 0 < prec.toInt then prec else 0
                format := rest'
                args := s.args + 1 }
            else s
      else s

/-- "evaluate length field".  `ptrdiff_t` and `size_t` are as long as `long`,
`intmax_t` is not. -/
def evalLength (s : Scan) : Scan :=
  match s.format with
  | [] => s
  | c :: rest =>
      if c = ascii 'l' then
        let s := { s with flags := { s.flags with long := true }, format := rest }
        match rest with
        | [] => s
        | d :: rest' =>
            if d = ascii 'l' then
              { s with flags := { s.flags with longLong := true }, format := rest' }
            else s
      else if c = ascii 'h' then
        let s := { s with flags := { s.flags with short := true }, format := rest }
        match rest with
        | [] => s
        | d :: rest' =>
            if d = ascii 'h' then { s with flags := { s.flags with char := true }, format := rest' }
            else s
      else if c = ascii 't' then
        { s with flags := { s.flags with long := true }, format := rest }
      else if c = ascii 'j' then
        { s with flags := { s.flags with longLong := true }, format := rest }
      else if c = ascii 'z' then
        { s with flags := { s.flags with long := true }, format := rest }
      else s

/-- The fields in front of the specifier, behind `%`. -/
def evalFields (format : List Byte) (args : Nat) : Scan :=
  let (flags, format) := evalFlags .none format
  evalLength (evalPrecision va (evalWidth va ⟨flags, 0, 0, format, args⟩))

/-! ### Conversions -/

/-- Why a format is outside the model. -/
inductive Stop where
  | pastFormat
  | longLong
deriving DecidableEq

/-- `_strnlen_s`. -/
def strnlenS (mem : AddressSpace) : Nat → Word → Nat
  | 0, _ => 0
  | maxsize + 1, s => if mem.byte s = 0 then 0 else strnlenS mem maxsize (s + 1) + 1

section Conversions

variable (mem : AddressSpace) {β : Type} (out : OutFct β) (maxlen : Word)

/-- The specifiers of integers. -/
def isInteger (c : Byte) : Bool :=
  c = ascii 'd' || c = ascii 'i' || c = ascii 'u' || c = ascii 'x' || c = ascii 'X' ||
    c = ascii 'o' || c = ascii 'b'

/-- The specifiers of signed integers. -/
def isSigned (c : Byte) : Bool :=
  c = ascii 'i' || c = ascii 'd'

/-- "set the base". -/
def baseOf (c : Byte) : Word :=
  if c = ascii 'x' || c = ascii 'X' then 16
  else if c = ascii 'o' then 8
  else if c = ascii 'b' then 2
  else 10

/-- The flags of an integer conversion. -/
def integerFlags (c : Byte) (flags : Flags) : Flags :=
  let flags := if baseOf c = 10 then { flags with hash := false } else flags
  let flags := if c = ascii 'X' then { flags with uppercase := true } else flags
  let flags := if !isSigned c then { flags with plus := false, space := false } else flags
  if flags.precision then { flags with zeropad := false } else flags

/-- A signed argument, after its conversion to `char` or `short`. -/
def signedValue (flags : Flags) (arg : Word) : Word :=
  if flags.long then arg
  else if flags.char then (arg.setWidth 8).signExtend 32
  else if flags.short then (arg.setWidth 16).signExtend 32
  else arg

/-- An unsigned argument. -/
def unsignedValue (flags : Flags) (arg : Word) : Word :=
  if flags.long then arg
  else if flags.char then (arg.setWidth 8).setWidth 32
  else if flags.short then (arg.setWidth 16).setWidth 32
  else arg

/-- "convert the integer". -/
def convertInteger (s : Scan) (c : Byte) (o : Output β 32) : Output β 32 :=
  let flags := integerFlags c s.flags
  if isSigned c then
    let value := signedValue flags (va s.args)
    ntoaLong out maxlen o (if 0 < value.toInt then value else 0 - value) (value.toInt < 0)
      (baseOf c) s.prec s.width flags
  else
    ntoaLong out maxlen o (unsignedValue flags (va s.args)) false (baseOf c) s.prec s.width flags

/-- The conversion `c`; the counter `l` of its loops starts at 1. -/
def convertChar (s : Scan) (o : Output β 32) : Output β 32 :=
  let o := if !s.flags.left then outSpaces out maxlen (s.width.toNat - 1) o else o
  let o := outChar out maxlen o ((va s.args).setWidth 8)
  if s.flags.left then outSpaces out maxlen (s.width.toNat - 1) o else o

/-- The loop "string output", which makes at most so many steps. -/
def outString : Nat → Word → Output β 32 → Output β 32
  | 0, _, o => o
  | n + 1, p, o =>
      if mem.byte p = 0 then o else outString n (p + 1) (outChar out maxlen o (mem.byte p))

/-- The conversion `s`.  Without a precision the string ends at a zero, which lies
among the `2 ^ 32` bytes from its start on. -/
def convertString (s : Scan) (o : Output β 32) : Output β 32 :=
  let p := va s.args
  let l := strnlenS mem (if s.prec ≠ 0 then s.prec.toNat else 2 ^ 32 - 1) p
  let l := if s.flags.precision then min l s.prec.toNat else l
  let o := if !s.flags.left then outSpaces out maxlen (s.width.toNat - l) o else o
  let o := outString mem out maxlen (if s.flags.precision then s.prec.toNat else 2 ^ 32) p o
  if s.flags.left then outSpaces out maxlen (s.width.toNat - l) o else o

/-- The conversion `p`: `sizeof(void *) * 2` digits. -/
def convertPointer (s : Scan) (o : Output β 32) : Output β 32 :=
  ntoaLong out maxlen o (va s.args) false 16 s.prec 8
    { s.flags with zeropad := true, uppercase := true }

/-- "evaluate specifier": the output, the rest of the format and the number of
arguments taken. -/
def evalSpecifier (s : Scan) (o : Output β 32) : Except Stop (Output β 32 × List Byte × Nat) :=
  match s.format with
  | [] => .error .pastFormat
  | c :: format =>
      if isInteger c then
        if s.flags.longLong then .error .longLong
        else .ok (convertInteger va out maxlen s c o, format, s.args + 1)
      else if c = ascii 'c' then .ok (convertChar va out maxlen s o, format, s.args + 1)
      else if c = ascii 's' then .ok (convertString va mem out maxlen s o, format, s.args + 1)
      else if c = ascii 'p' then .ok (convertPointer va out maxlen s o, format, s.args + 1)
      -- `%` and unknown specifiers stand for themselves
      else .ok (outChar out maxlen o c, format, s.args)

/-- The loop of `_vsnprintf`.  Each round takes a character of the format, so there
are no more rounds than characters. -/
def vsnprintfLoop : Nat → List Byte → Nat → Output β 32 → Except Stop (Output β 32)
  | _, [], _, o => .ok o
  | 0, _ :: _, _, o => .ok o
  | n + 1, c :: format, args, o =>
      if c ≠ ascii '%' then vsnprintfLoop n format args (outChar out maxlen o c)
      else
        match evalSpecifier va mem out maxlen (evalFields va format args) o with
        | .error e => .error e
        | .ok (o, format, args) => vsnprintfLoop n format args o

/-- `_vsnprintf`: what is in the buffer afterwards, and the number of characters. -/
def vsnprintf (buffer : β) (format : List Byte) : Except Stop (β × Int) :=
  match vsnprintfLoop va mem out maxlen format.length format 0 ⟨buffer, 0⟩ with
  | .error e => .error e
  | .ok o =>
      let last := if o.idx.toNat < maxlen.toNat then o.idx else maxlen - 1
      .ok (out 0 o.buffer last maxlen, o.idx.toInt)

end Conversions

end Printf

end Klyx
