import Mathlib.Tactic.Common
import UpsFirmware.Lib.Numerals

/-!
# `UpsFirmware.Stm32.Printf`: the formatter of the battery monitor's MCU

`_vsnprintf` and the functions it calls (`stm32-app/printf.c`), on the Cortex-M0: `int`,
`long`, pointers and `size_t` have 32 bits, `long long` and `intmax_t` have 64, and `char`
is unsigned.

Every character goes through an output function, which is given the character, the
buffer, an index and a limit (`OutFct`). The state of the formatter is the buffer and the
next index. A format is the memory from its address on, so that a conversion may read
behind the terminator; the formatter is `none` when it reads behind the memory, or when an
argument is not there or has another type than its conversion.

The conversions of a `double` need floating point. What they write is a parameter.
-/

set_option autoImplicit false

namespace UpsFirmware.Stm32.Printf

open Lib

/-! ### Output functions -/

/-- `out_fct_type`: a character, the buffer, the index and the limit. -/
abbrev OutFct (β : Type) := UInt8 → β → UInt32 → UInt32 → β

/-- `_out_buffer`, on the memory from the buffer's address on. `none` is a write behind
its end. -/
def outBuffer : OutFct (Option (List UInt8)) := fun character buffer idx maxlen =>
  buffer.bind fun mem =>
    if idx < maxlen then
      if idx.toNat < mem.length then some (mem.set idx.toNat character) else none
    else some mem

/-- `_out_null`. -/
def outNull {β : Type} : OutFct β := fun _ buffer _ _ => buffer

/-- `_out_char`: the call of `_putchar` is commented out. -/
def outChar {β : Type} : OutFct β := fun _ buffer _ _ => buffer

/-- `_out_fct`, on the state of the function that the wrapper holds. -/
def outFct {σ : Type} (fct : UInt8 → σ → σ) : OutFct σ := fun character arg _ _ =>
  if character ≠ 0 then fct character arg else arg

section

variable {β : Type} (out : OutFct β) (maxlen : UInt32)

/-- `out(character, buffer, idx++, maxlen)`. -/
def emit (st : β × UInt32) (character : UInt8) : β × UInt32 :=
  (out character st.1 st.2 maxlen, st.2 + 1)

/-- A loop that puts out some characters. -/
def feed (st : β × UInt32) (text : List UInt8) : β × UInt32 := text.foldl (emit out maxlen) st

end

/-! ### Flags, arguments, conversions -/

/-- The bits `FLAGS_ZEROPAD` to `FLAGS_PRECISION`. -/
structure Flags where
  zeropad : Bool
  left : Bool
  plus : Bool
  space : Bool
  hash : Bool
  uppercase : Bool
  char : Bool
  short : Bool
  long : Bool
  longLong : Bool
  precision : Bool
deriving DecidableEq

/-- `flags = 0U`. -/
def Flags.none : Flags :=
  ⟨false, false, false, false, false, false, false, false, false, false, false⟩

/-- An argument: an `int` or `long`, a `long long`, a `double`, or a pointer with the
memory it points to. -/
inductive VaArg where
  | word (value : UInt32)
  | longLong (value : UInt64)
  | double (bits : UInt64)
  | ptr (addr : UInt32) (mem : List UInt8)
deriving DecidableEq

/-- `va_arg`: the next argument, if it has the type. -/
def vaArg {α : Type} (get : VaArg → Option α) : List VaArg → Option (α × List VaArg)
  | [] => none
  | arg :: va => (get arg).map fun value => (value, va)

def VaArg.getWord : VaArg → Option UInt32
  | .word value => some value
  | _ => none

def VaArg.getLongLong : VaArg → Option UInt64
  | .longLong value => some value
  | _ => none

def VaArg.getDouble : VaArg → Option UInt64
  | .double bits => some bits
  | _ => none

def VaArg.getMem : VaArg → Option (List UInt8)
  | .ptr _ mem => some mem
  | _ => none

def VaArg.getAddr : VaArg → Option UInt32
  | .ptr addr _ => some addr
  | _ => none

/-- `va_arg(va, int)`, and `va_arg` for the other types of this size. -/
def vaWord (va : List VaArg) : Option (UInt32 × List VaArg) := vaArg VaArg.getWord va

/-- `va_arg(va, long long)`. -/
def vaLongLong (va : List VaArg) : Option (UInt64 × List VaArg) := vaArg VaArg.getLongLong va

/-- `va_arg(va, double)`. -/
def vaDouble (va : List VaArg) : Option (UInt64 × List VaArg) := vaArg VaArg.getDouble va

/-- `va_arg(va, char *)`: the memory from the address on. -/
def vaString (va : List VaArg) : Option (List UInt8 × List VaArg) := vaArg VaArg.getMem va

/-- `va_arg(va, void *)`: the address. -/
def vaPointer (va : List VaArg) : Option (UInt32 × List VaArg) := vaArg VaArg.getAddr va

/-- What the format says about one conversion. -/
structure Conversion where
  flags : Flags
  width : UInt32
  precision : UInt32
  specifier : UInt8
deriving DecidableEq

/-! ### Reading a conversion -/

/-- `_is_digit`. -/
def isDigit (ch : UInt8) : Bool := '0'.toUInt8 ≤ ch && ch ≤ '9'.toUInt8

/-- The loop of `_atoi`, with the value `i` so far. -/
def atoiLoop (i : UInt32) : List UInt8 → UInt32 × List UInt8
  | [] => (i, [])
  | ch :: str =>
    if isDigit ch then atoiLoop (i * 10 + (ch - '0'.toUInt8).toUInt32) str else (i, ch :: str)

/-- `_atoi`, with the place it leaves `*str` at. -/
def atoi (str : List UInt8) : UInt32 × List UInt8 := atoiLoop 0 str

/-- `// evaluate flags`. -/
def evaluateFlags (flags : Flags) : List UInt8 → Flags × List UInt8
  | [] => (flags, [])
  | ch :: format =>
    if ch = '0'.toUInt8 then evaluateFlags { flags with zeropad := true } format
    else if ch = '-'.toUInt8 then evaluateFlags { flags with left := true } format
    else if ch = '+'.toUInt8 then evaluateFlags { flags with plus := true } format
    else if ch = ' '.toUInt8 then evaluateFlags { flags with space := true } format
    else if ch = '#'.toUInt8 then evaluateFlags { flags with hash := true } format
    else (flags, ch :: format)

/-- `// evaluate width field`. -/
def evaluateWidth (flags : Flags) (format : List UInt8) (va : List VaArg) :
    Option (Flags × UInt32 × List UInt8 × List VaArg) :=
  match format with
  | [] => none
  | ch :: rest =>
    if isDigit ch then
      let width := atoi format
      some (flags, width.1, width.2, va)
    else if ch = '*'.toUInt8 then
      (vaWord va).map fun w =>
        if w.1.toInt32 < 0 then
          ({ flags with left := true }, 0 - w.1, rest, w.2) -- reverse padding
        else (flags, w.1, rest, w.2)
    else some (flags, 0, format, va)

/-- `// evaluate precision field`. -/
def evaluatePrecision (flags : Flags) (format : List UInt8) (va : List VaArg) :
    Option (Flags × UInt32 × List UInt8 × List VaArg) :=
  match format with
  | [] => none
  | ch :: rest =>
    if ch = '.'.toUInt8 then
      let flags := { flags with precision := true }
      match rest with
      | [] => none
      | ch :: rest' =>
        if isDigit ch then
          let precision := atoi rest
          some (flags, precision.1, precision.2, va)
        else if ch = '*'.toUInt8 then
          (vaWord va).map fun prec =>
            (flags, if 0 < prec.1.toInt32 then prec.1 else 0, rest', prec.2)
        else some (flags, 0, rest, va)
    else some (flags, 0, format, va)

/-- `// evaluate length field`. -/
def evaluateLength (flags : Flags) : List UInt8 → Option (Flags × List UInt8)
  | [] => none
  | ch :: format =>
    if ch = 'l'.toUInt8 then
      match format with
      | [] => none
      | ch :: format' =>
        if ch = 'l'.toUInt8 then some ({ flags with long := true, longLong := true }, format')
        else some ({ flags with long := true }, format)
    else if ch = 'h'.toUInt8 then
      match format with
      | [] => none
      | ch :: format' =>
        if ch = 'h'.toUInt8 then some ({ flags with short := true, char := true }, format')
        else some ({ flags with short := true }, format)
    else if ch = 't'.toUInt8 then some ({ flags with long := true }, format)
    else if ch = 'j'.toUInt8 then some ({ flags with longLong := true }, format)
    else if ch = 'z'.toUInt8 then some ({ flags with long := true }, format)
    else some (flags, ch :: format)

/-- From behind the `%` to behind the specifier. -/
def evaluate (format : List UInt8) (va : List VaArg) :
    Option (Conversion × List UInt8 × List VaArg) :=
  let flags := evaluateFlags Flags.none format
  (evaluateWidth flags.1 flags.2 va).bind fun width =>
    (evaluatePrecision width.1 width.2.2.1 width.2.2.2).bind fun precision =>
      (evaluateLength precision.1 precision.2.2.1).bind fun length =>
        match length.2 with
        | [] => none
        | ch :: format =>
          some (⟨length.1, width.2.1, precision.2.1, ch⟩, format, precision.2.2.2)

/-! ### Numbers -/

/-- `PRINTF_NTOA_BUFFER_SIZE`. -/
def PRINTF_NTOA_BUFFER_SIZE : Nat := 32

/-- The character of a digit. -/
def digitChar (uppercase : Bool) (digit : Nat) : UInt8 :=
  if digit < 10 then '0'.toUInt8 + digit.toUInt8
  else (if uppercase then 'A'.toUInt8 else 'a'.toUInt8) + digit.toUInt8 - 10

/-- `if (len < PRINTF_NTOA_BUFFER_SIZE) buf[len++] = character`. -/
def push (buf : List UInt8) (character : UInt8) : List UInt8 :=
  if buf.length < PRINTF_NTOA_BUFFER_SIZE then buf ++ [character] else buf

/-- `while ((len < count) && (len < PRINTF_NTOA_BUFFER_SIZE)) buf[len++] = '0'`. -/
def padZeros (buf : List UInt8) (count : UInt32) : List UInt8 :=
  buf ++ List.replicate (min count.toNat PRINTF_NTOA_BUFFER_SIZE - buf.length) '0'.toUInt8

/-- `// pad leading zeros`: the width that is left for them. -/
def zeroWidth (negative : Bool) (width : UInt32) (flags : Flags) : UInt32 :=
  if !flags.left && (width ≠ 0 && flags.zeropad && (negative || (flags.plus || flags.space))) then
    width - 1
  else width

/-- `// pad leading zeros`. -/
def padLeadingZeros (buf : List UInt8) (prec width : UInt32) (flags : Flags) : List UInt8 :=
  if flags.left then buf
  else
    if flags.zeropad then padZeros (padZeros buf prec) width else padZeros buf prec

/-- `// handle hash`: one or two characters are taken back when the buffer is as long as
the precision or the width. -/
def takeBack (buf : List UInt8) (base : Nat) (prec width : UInt32) (flags : Flags) : List UInt8 :=
  if !flags.precision &&
      (buf.length ≠ 0 && (buf.length = prec.toNat || buf.length = width.toNat)) then
    if buf.dropLast.length ≠ 0 && base = 16 then buf.dropLast.dropLast else buf.dropLast
  else buf

/-- The letter of a base. -/
def pushLetter (buf : List UInt8) (base : Nat) (flags : Flags) : List UInt8 :=
  if base = 16 && !flags.uppercase then push buf 'x'.toUInt8
  else if base = 16 && flags.uppercase then push buf 'X'.toUInt8
  else if base = 2 then push buf 'b'.toUInt8
  else buf

/-- `// handle hash`. -/
def handleHash (buf : List UInt8) (base : Nat) (prec width : UInt32) (flags : Flags) :
    List UInt8 :=
  if flags.hash then push (pushLetter (takeBack buf base prec width flags) base flags) '0'.toUInt8
  else buf

/-- The sign of a number. -/
def pushSign (buf : List UInt8) (negative : Bool) (flags : Flags) : List UInt8 :=
  if negative then push buf '-'.toUInt8
  else if flags.plus then push buf '+'.toUInt8 -- ignore the space if the '+' exists
  else if flags.space then push buf ' '.toUInt8
  else buf

/-- The local `buf` of `_ntoa_format` before it is put out, last character first. -/
def formatNumber (buf : List UInt8) (negative : Bool) (base : Nat) (prec width : UInt32)
    (flags : Flags) : List UInt8 :=
  let width := zeroWidth negative width flags
  pushSign (handleHash (padLeadingZeros buf prec width flags) base prec width flags)
    negative flags

/-- The digits of a number in the buffer of `_ntoa_long`, last digit first. They are
written if the precision is not zero or the value is not. -/
def digitsOf (value base : Nat) (flags : Flags) : List UInt8 :=
  if !flags.precision || value ≠ 0 then
    (lowDigits base PRINTF_NTOA_BUFFER_SIZE value).map (digitChar flags.uppercase)
  else []

/-- No hash for 0 values. -/
def hashFlags (value : Nat) (flags : Flags) : Flags :=
  if value = 0 then { flags with hash := false } else flags

section

variable {β : Type} (out : OutFct β) (maxlen : UInt32)

/-- `while (idx - start_idx < width) out(' ', buffer, idx++, maxlen)`, at most `fuel`
times. -/
def padUntil (startIdx width : UInt32) : Nat → β × UInt32 → β × UInt32
  | 0, st => st
  | fuel + 1, st =>
    if st.2 - startIdx < width then
      padUntil startIdx width fuel (emit out maxlen st ' '.toUInt8)
    else st

/-- `_out_rev`. -/
def outRev (st : β × UInt32) (buf : List UInt8) (width : UInt32) (flags : Flags) : β × UInt32 :=
  let startIdx := st.2
  -- pad spaces up to given width
  let st :=
    if !flags.left && !flags.zeropad then
      feed out maxlen st (List.replicate (width.toNat - buf.length) ' '.toUInt8)
    else st
  -- reverse string
  let st := feed out maxlen st buf.reverse
  -- append pad spaces up to given width
  if flags.left then padUntil out maxlen startIdx width width.toNat st else st

/-- `_ntoa_format`. -/
def ntoaFormat (st : β × UInt32) (buf : List UInt8) (negative : Bool) (base : Nat)
    (prec width : UInt32) (flags : Flags) : β × UInt32 :=
  outRev out maxlen st (formatNumber buf negative base prec width flags)
    (zeroWidth negative width flags) flags

/-- `_ntoa_long` and `_ntoa_long_long`, on the value as a number. -/
def ntoa (st : β × UInt32) (value : Nat) (negative : Bool) (base : Nat)
    (prec width : UInt32) (flags : Flags) : β × UInt32 :=
  let flags := hashFlags value flags
  ntoaFormat out maxlen st (digitsOf value base flags) negative base prec width flags

/-- `_ntoa_long`. -/
def ntoaLong (st : β × UInt32) (value : UInt32) (negative : Bool) (base : Nat)
    (prec width : UInt32) (flags : Flags) : β × UInt32 :=
  ntoa out maxlen st value.toNat negative base prec width flags

/-- `_ntoa_long_long`. -/
def ntoaLongLong (st : β × UInt32) (value : UInt64) (negative : Bool) (base : Nat)
    (prec width : UInt32) (flags : Flags) : β × UInt32 :=
  ntoa out maxlen st value.toNat negative base prec width flags

end

/-! ### Strings -/

/-- `_strnlen_s`: the loop tests the character before the limit. -/
def strnlenS : List UInt8 → UInt32 → Option UInt32
  | [], _ => none
  | ch :: str, maxsize =>
    if ch = 0 then some 0
    else if maxsize = 0 then some 0
    else (strnlenS str (maxsize - 1)).map (· + 1)

/-- The characters of the string output loop. -/
def stringChars (bounded : Bool) : List UInt8 → UInt32 → Option (List UInt8)
  | [], _ => none
  | ch :: p, precision =>
    if ch = 0 then some []
    else if bounded && precision = 0 then some []
    else (stringChars bounded p (precision - 1)).map (ch :: ·)

/-! ### The specifiers -/

/-- Behind `case 'd'` to `case 'b'`. -/
def isInteger (specifier : UInt8) : Bool :=
  specifier = 'd'.toUInt8 || specifier = 'i'.toUInt8 || specifier = 'u'.toUInt8 ||
    specifier = 'x'.toUInt8 || specifier = 'X'.toUInt8 || specifier = 'o'.toUInt8 ||
    specifier = 'b'.toUInt8

/-- `case 'i'` and `case 'd'`. -/
def isSigned (specifier : UInt8) : Bool :=
  specifier = 'i'.toUInt8 || specifier = 'd'.toUInt8

/-- The base of an integer conversion. -/
def baseOf (specifier : UInt8) : Nat :=
  if specifier = 'x'.toUInt8 || specifier = 'X'.toUInt8 then 16
  else if specifier = 'o'.toUInt8 then 8
  else if specifier = 'b'.toUInt8 then 2
  else 10

/-- The flags of an integer conversion. -/
def integerFlags (specifier : UInt8) (flags : Flags) : Flags :=
  -- no hash for dec format
  let flags := if baseOf specifier = 10 then { flags with hash := false } else flags
  let flags := if specifier = 'X'.toUInt8 then { flags with uppercase := true } else flags
  -- no plus or space flag for u, x, X, o, b
  let flags := if isSigned specifier then flags else { flags with plus := false, space := false }
  -- ignore '0' flag when precision is given
  if flags.precision then { flags with zeropad := false } else flags

/-- The `int` of a signed conversion without `l`. A `char` is unsigned. -/
def narrowSigned (flags : Flags) (value : UInt32) : Int32 :=
  if flags.char then value.toUInt8.toUInt32.toInt32
  else if flags.short then value.toUInt16.toInt16.toInt32
  else value.toInt32

/-- The `unsigned int` of an unsigned conversion without `l`. -/
def narrowUnsigned (flags : Flags) (value : UInt32) : UInt32 :=
  if flags.char then value.toUInt8.toUInt32
  else if flags.short then value.toUInt16.toUInt32
  else value

section

variable {β : Type} (out : OutFct β) (maxlen : UInt32)
  (floatText : Conversion → UInt64 → List UInt8)

/-- `// convert the integer`. -/
def convertInteger (conv : Conversion) (st : β × UInt32) (va : List VaArg) :
    Option ((β × UInt32) × List VaArg) :=
  let base := baseOf conv.specifier
  let flags := integerFlags conv.specifier conv.flags
  if isSigned conv.specifier then
    if flags.longLong then
      (vaLongLong va).map fun arg =>
        let value := arg.1.toInt64
        (ntoaLongLong out maxlen st (if 0 < value then value else 0 - value).toUInt64
          (value < 0) base conv.precision conv.width flags, arg.2)
    else if flags.long then
      (vaWord va).map fun arg =>
        let value := arg.1.toInt32
        (ntoaLong out maxlen st (if 0 < value then value else 0 - value).toUInt32
          (value < 0) base conv.precision conv.width flags, arg.2)
    else
      (vaWord va).map fun arg =>
        let value := narrowSigned flags arg.1
        (ntoaLong out maxlen st (if 0 < value then value else 0 - value).toUInt32
          (value < 0) base conv.precision conv.width flags, arg.2)
  else
    if flags.longLong then
      (vaLongLong va).map fun arg =>
        (ntoaLongLong out maxlen st arg.1 false base conv.precision conv.width flags, arg.2)
    else if flags.long then
      (vaWord va).map fun arg =>
        (ntoaLong out maxlen st arg.1 false base conv.precision conv.width flags, arg.2)
    else
      (vaWord va).map fun arg =>
        (ntoaLong out maxlen st (narrowUnsigned flags arg.1) false base conv.precision
          conv.width flags, arg.2)

/-- `case 'f'` to `case 'G'`: what `_ftoa` and `_etoa` put out. -/
def convertFloat (conv : Conversion) (st : β × UInt32) (va : List VaArg) :
    Option ((β × UInt32) × List VaArg) :=
  (vaDouble va).map fun arg => (feed out maxlen st (floatText conv arg.1), arg.2)

/-- `case 'c'`. The count `l` starts at 1 and its loop ends at the width. -/
def convertChar (conv : Conversion) (st : β × UInt32) (va : List VaArg) :
    Option ((β × UInt32) × List VaArg) :=
  (vaWord va).map fun arg =>
    let pad := List.replicate (conv.width.toNat - 1) ' '.toUInt8
    -- pre padding
    let st := if conv.flags.left then st else feed out maxlen st pad
    -- char output
    let st := emit out maxlen st arg.1.toUInt8
    -- post padding
    (if conv.flags.left then feed out maxlen st pad else st, arg.2)

/-- `case 's'`. -/
def convertString (conv : Conversion) (st : β × UInt32) (va : List VaArg) :
    Option ((β × UInt32) × List VaArg) :=
  (vaString va).bind fun arg =>
    (strnlenS arg.1 (if conv.precision ≠ 0 then conv.precision else 0 - 1)).bind fun l =>
      let l :=
        if conv.flags.precision then (if l < conv.precision then l else conv.precision) else l
      let pad := List.replicate (conv.width.toNat - l.toNat) ' '.toUInt8
      -- pre padding
      let st := if conv.flags.left then st else feed out maxlen st pad
      -- string output
      (stringChars conv.flags.precision arg.1 conv.precision).map fun chars =>
        let st := feed out maxlen st chars
        -- post padding
        (if conv.flags.left then feed out maxlen st pad else st, arg.2)

/-- `case 'p'`. -/
def convertPointer (conv : Conversion) (st : β × UInt32) (va : List VaArg) :
    Option ((β × UInt32) × List VaArg) :=
  (vaPointer va).map fun arg =>
    (ntoaLong out maxlen st arg.1 false 16 conv.precision 8
      { conv.flags with zeropad := true, uppercase := true }, arg.2)

/-- `// evaluate specifier`. -/
def convert (conv : Conversion) (st : β × UInt32) (va : List VaArg) :
    Option ((β × UInt32) × List VaArg) :=
  if isInteger conv.specifier then convertInteger out maxlen conv st va
  else if conv.specifier = 'f'.toUInt8 || conv.specifier = 'F'.toUInt8 ||
      conv.specifier = 'e'.toUInt8 || conv.specifier = 'E'.toUInt8 ||
      conv.specifier = 'g'.toUInt8 || conv.specifier = 'G'.toUInt8 then
    convertFloat out maxlen floatText conv st va
  else if conv.specifier = 'c'.toUInt8 then convertChar out maxlen conv st va
  else if conv.specifier = 's'.toUInt8 then convertString out maxlen conv st va
  else if conv.specifier = 'p'.toUInt8 then convertPointer out maxlen conv st va
  else some (emit out maxlen st conv.specifier, va) -- `%` and every other character

/-! ### The formatter -/

/-- A string literal, with its terminator. -/
def cLiteral (s : String) : List UInt8 := s.toList.map Char.toUInt8 ++ [0]

/-- `while (*format)`, at most `fuel` times. -/
def formatLoop : Nat → List UInt8 → List VaArg → β × UInt32 → Option (β × UInt32)
  | 0, _, _, _ => none
  | _ + 1, [], _, _ => none
  | fuel + 1, ch :: format, va, st =>
    if ch = 0 then some st
    else if ch ≠ '%'.toUInt8 then formatLoop fuel format va (emit out maxlen st ch)
    else
      (evaluate format va).bind fun item =>
        (convert out maxlen floatText item.1 st item.2.2).bind fun next =>
          formatLoop fuel item.2.1 next.2 next.1

/-- `_vsnprintf` behind the test for a null buffer. An iteration takes at least one
character of the format. -/
def format (buffer : β) (fmt : List UInt8) (va : List VaArg) : Option (β × Int32) :=
  (formatLoop out maxlen floatText fmt.length fmt va (buffer, 0)).map fun st =>
    -- termination
    (out 0 st.1 (if st.2 < maxlen then st.2 else maxlen - 1) maxlen, st.2.toInt32)

/-- `_vsnprintf`. -/
def vsnprintf (buffer : Option β) (fmt : List UInt8) (va : List VaArg) :
    Option (Option β × Int32) :=
  match buffer with
  | some buffer => (format out maxlen floatText buffer fmt va).map fun r => (some r.1, r.2)
  | none => (format outNull maxlen floatText () fmt va).map fun r => (none, r.2)

end

section

variable (floatText : Conversion → UInt64 → List UInt8) (fmt : List UInt8) (va : List VaArg)

/-- `sprintf_`, with the memory from `buffer` on. -/
def sprintf (mem : List UInt8) : Option (Option (List UInt8) × Int32) :=
  format outBuffer (0 - 1) floatText (some mem) fmt va

/-- `snprintf_` and `vsnprintf_`. The buffer may be null. -/
def snprintf (buffer : Option (List UInt8)) (count : UInt32) :
    Option (Option (Option (List UInt8)) × Int32) :=
  vsnprintf outBuffer count floatText (buffer.map some) fmt va

/-- `printf_` and `vprintf_`. -/
def printf : Option (Unit × Int32) := format outChar (0 - 1) floatText () fmt va

/-- `fctprintf`, with the state of the function `out`. -/
def fctprintf {σ : Type} (out : UInt8 → σ → σ) (arg : σ) : Option (σ × Int32) :=
  format (outFct out) (0 - 1) floatText arg fmt va

end

end UpsFirmware.Stm32.Printf
