import UpsFirmware.Lib.BoundedBuffer
import UpsFirmware.Stm32.Printf

/-!
# `UpsFirmware.Stm32.PrintfText`: the text of a format

`text` is what a format and its arguments say, without an output function, a buffer, an
index or a limit. `format_eq` connects it to the formatter: whatever the output function
does, the formatter hands it the characters of `text` in their order, at successive
indices, and one terminator. So the buffer, its size and the return value are matters of
the output function alone.

The rest follows from that. `entryPoints_agree` gives the buffer of `snprintf_` and what the
other entry points do, and `sprintf_inBounds_iff` says when `sprintf_`, which has no limit,
stays inside its buffer.
-/

set_option autoImplicit false

namespace UpsFirmware.Stm32.Printf

open Lib

/-! ### The texts of the conversions -/

/-- Spaces. -/
def spaces (n : Nat) : List UInt8 := List.replicate n ' '.toUInt8

@[simp] theorem length_spaces (n : Nat) : (spaces n).length = n := List.length_replicate

/-- What `_out_rev` puts out. -/
def outRevText (buf : List UInt8) (width : UInt32) (flags : Flags) : List UInt8 :=
  (if !flags.left && !flags.zeropad then spaces (width.toNat - buf.length) else []) ++
    buf.reverse ++ if flags.left then spaces (width.toNat - buf.length) else []

/-- What `_ntoa_long` and `_ntoa_long_long` put out. -/
def ntoaText (value : Nat) (negative : Bool) (base : Nat) (prec width : UInt32)
    (flags : Flags) : List UInt8 :=
  let flags := hashFlags value flags
  outRevText (formatNumber (digitsOf value base flags) negative base prec width flags)
    (zeroWidth negative width flags) flags

/-- The number in an argument of an integer conversion. -/
def integerArg (conv : Conversion) (arg : VaArg) : Option Int :=
  let flags := integerFlags conv.specifier conv.flags
  if isSigned conv.specifier then
    if flags.longLong then arg.getLongLong.map fun value => value.toInt64.toInt
    else if flags.long then arg.getWord.map fun value => value.toInt32.toInt
    else arg.getWord.map fun value => (narrowSigned flags value).toInt
  else
    if flags.longLong then arg.getLongLong.map fun value => value.toNat
    else if flags.long then arg.getWord.map fun value => value.toNat
    else arg.getWord.map fun value => (narrowUnsigned flags value).toNat

/-- The text of a number. -/
def integerText (conv : Conversion) (value : Int) : List UInt8 :=
  ntoaText value.natAbs (decide (value < 0)) (baseOf conv.specifier) conv.precision conv.width
    (integerFlags conv.specifier conv.flags)

/-- A text of length `l` in its width. -/
def padded (conv : Conversion) (l : Nat) (text : List UInt8) : List UInt8 :=
  if conv.flags.left then text ++ spaces (conv.width.toNat - l)
  else spaces (conv.width.toNat - l) ++ text

/-- The number of characters of a string that count for its width. -/
def stringLength (conv : Conversion) (mem : List UInt8) : Option UInt32 :=
  (strnlenS mem (if conv.precision ≠ 0 then conv.precision else 0 - 1)).map fun l =>
    if conv.flags.precision then (if l < conv.precision then l else conv.precision) else l

/-- The text of a string. -/
def stringText (conv : Conversion) (mem : List UInt8) : Option (List UInt8) :=
  (stringLength conv mem).bind fun l =>
    (stringChars conv.flags.precision mem conv.precision).map fun chars =>
      padded conv l.toNat chars

section

variable (floatText : Conversion → UInt64 → List UInt8)

/-- The text of a conversion, and the arguments that are left. -/
def convertText (conv : Conversion) (va : List VaArg) : Option (List UInt8 × List VaArg) :=
  if isInteger conv.specifier then
    (vaArg (integerArg conv) va).map fun arg => (integerText conv arg.1, arg.2)
  else if conv.specifier = 'f'.toUInt8 || conv.specifier = 'F'.toUInt8 ||
      conv.specifier = 'e'.toUInt8 || conv.specifier = 'E'.toUInt8 ||
      conv.specifier = 'g'.toUInt8 || conv.specifier = 'G'.toUInt8 then
    (vaDouble va).map fun arg => (floatText conv arg.1, arg.2)
  else if conv.specifier = 'c'.toUInt8 then
    (vaWord va).map fun arg => (padded conv 1 [arg.1.toUInt8], arg.2)
  else if conv.specifier = 's'.toUInt8 then
    (vaString va).bind fun arg => (stringText conv arg.1).map fun text => (text, arg.2)
  else if conv.specifier = 'p'.toUInt8 then
    (vaPointer va).map fun arg =>
      (ntoaText arg.1.toNat false 16 conv.precision 8
        { conv.flags with zeropad := true, uppercase := true }, arg.2)
  else some ([conv.specifier], va)

/-- The text of a format, at most `fuel` iterations of it. -/
def textLoop : Nat → List UInt8 → List VaArg → Option (List UInt8)
  | 0, _, _ => none
  | _ + 1, [], _ => none
  | fuel + 1, ch :: fmt, va =>
    if ch = 0 then some []
    else if ch ≠ '%'.toUInt8 then (textLoop fuel fmt va).map (ch :: ·)
    else
      (evaluate fmt va).bind fun item =>
        (convertText floatText item.1 item.2.2).bind fun next =>
          (textLoop fuel item.2.1 next.2).map (next.1 ++ ·)

/-- The text of a format. -/
def text (fmt : List UInt8) (va : List VaArg) : Option (List UInt8) :=
  textLoop floatText fmt.length fmt va

end

/-! ### Feeding a text -/

section

variable {β : Type} (out : OutFct β) (maxlen : UInt32)

@[simp] theorem feed_nil (st : β × UInt32) : feed out maxlen st [] = st := rfl

theorem feed_cons (st : β × UInt32) (ch : UInt8) (text : List UInt8) :
    feed out maxlen st (ch :: text) = feed out maxlen (emit out maxlen st ch) text := rfl

@[simp] theorem feed_append (st : β × UInt32) (front back : List UInt8) :
    feed out maxlen st (front ++ back) = feed out maxlen (feed out maxlen st front) back :=
  List.foldl_append

/-- Every character takes one index. -/
theorem feed_snd (st : β × UInt32) (text : List UInt8) :
    (feed out maxlen st text).2 = st.2 + UInt32.ofNat text.length := by
  induction text generalizing st with
  | nil => simp
  | cons ch text ih =>
    rw [feed_cons, ih, List.length_cons, UInt32.ofNat_add, UInt32.add_comm (UInt32.ofNat _),
      ← UInt32.add_assoc]
    rfl

/-- The loop that pads up to the width puts out what is missing. -/
theorem padUntil_eq (startIdx width : UInt32) (fuel : Nat) (st : β × UInt32) :
    padUntil out maxlen startIdx width fuel st
      = feed out maxlen st (spaces (min fuel (width.toNat - (st.2 - startIdx).toNat))) := by
  induction fuel generalizing st with
  | zero =>
    rw [Nat.zero_min]
    rfl
  | succ fuel ih =>
    rw [padUntil]
    by_cases hlt : st.2 - startIdx < width
    · have hwidth := UInt32.lt_iff_toNat_lt.mp hlt
      have hbound := width.toNat_lt
      have hnext : (emit out maxlen st ' '.toUInt8).2 - startIdx = st.2 - startIdx + 1 := by
        show st.2 + 1 - startIdx = _
        rw [UInt32.sub_eq_add_neg, UInt32.sub_eq_add_neg, UInt32.add_assoc, UInt32.add_assoc,
          UInt32.add_comm 1]
      have hone : (1 : UInt32).toNat = 1 := rfl
      have htoNat : (st.2 - startIdx + 1).toNat = (st.2 - startIdx).toNat + 1 := by
        rw [UInt32.toNat_add, hone]
        omega
      have hcount : min (fuel + 1) (width.toNat - (st.2 - startIdx).toNat)
          = min fuel (width.toNat - ((st.2 - startIdx).toNat + 1)) + 1 := by omega
      rw [if_pos hlt, ih, hnext, htoNat, hcount]
      rfl
    · have hwidth : ¬ (st.2 - startIdx).toNat < width.toNat :=
        fun h => hlt (UInt32.lt_iff_toNat_lt.mpr h)
      have hcount : min (fuel + 1) (width.toNat - (st.2 - startIdx).toNat) = 0 := by omega
      rw [if_neg hlt, hcount]
      rfl

/-- `_out_rev` puts out its text. -/
theorem outRev_eq (st : β × UInt32) {buf : List UInt8} (hbuf : buf.length < 2 ^ 32)
    (width : UInt32) (flags : Flags) :
    outRev out maxlen st buf width flags
      = feed out maxlen st (outRevText buf width flags) := by
  rw [outRev, outRevText]
  cases hleft : flags.left with
  | false =>
    cases hzero : flags.zeropad with
    | false =>
      simp only [Bool.not_false, Bool.and_self, if_true, Bool.false_eq_true, if_false,
        feed_append, feed_nil]
      rfl
    | true => simp
  | true =>
    have hidx : (feed out maxlen st buf.reverse).2 - st.2 = UInt32.ofNat buf.length := by
      rw [feed_snd, List.length_reverse, UInt32.add_comm, UInt32.add_sub_cancel]
    have hlen : (UInt32.ofNat buf.length).toNat = buf.length := UInt32.toNat_ofNat_of_lt' hbuf
    have hcount : min width.toNat (width.toNat - buf.length) = width.toNat - buf.length := by
      omega
    simp only [Bool.not_true, Bool.false_and, if_true, Bool.false_eq_true, if_false,
      feed_append, feed_nil]
    show padUntil out maxlen st.2 width width.toNat (feed out maxlen st buf.reverse) = _
    rw [padUntil_eq, hidx, hlen, hcount]

end

/-! ### The buffer of `_ntoa_format` -/

theorem length_push_le {buf : List UInt8} (h : buf.length ≤ PRINTF_NTOA_BUFFER_SIZE)
    (ch : UInt8) :
    (push buf ch).length ≤ PRINTF_NTOA_BUFFER_SIZE := by
  rw [push]
  split
  · rw [List.length_append, List.length_singleton]
    omega
  · exact h

theorem length_padZeros_le {buf : List UInt8} (h : buf.length ≤ PRINTF_NTOA_BUFFER_SIZE)
    (count : UInt32) : (padZeros buf count).length ≤ PRINTF_NTOA_BUFFER_SIZE := by
  rw [padZeros, List.length_append, List.length_replicate]
  omega

theorem length_digitsOf_le (value base : Nat) (flags : Flags) :
    (digitsOf value base flags).length ≤ PRINTF_NTOA_BUFFER_SIZE := by
  rw [digitsOf]
  split
  · rw [List.length_map]
    exact length_lowDigits_le _ _ _
  · exact Nat.zero_le _

theorem length_padLeadingZeros_le {buf : List UInt8}
    (h : buf.length ≤ PRINTF_NTOA_BUFFER_SIZE) (prec width : UInt32) (flags : Flags) :
    (padLeadingZeros buf prec width flags).length ≤ PRINTF_NTOA_BUFFER_SIZE := by
  have hprec := length_padZeros_le h prec
  rw [padLeadingZeros]
  split
  · exact h
  · split
    · exact length_padZeros_le hprec width
    · exact hprec

theorem length_takeBack_le (buf : List UInt8) (base : Nat) (prec width : UInt32)
    (flags : Flags) : (takeBack buf base prec width flags).length ≤ buf.length := by
  rw [takeBack]
  split
  · split
    · rw [List.length_dropLast, List.length_dropLast]
      omega
    · rw [List.length_dropLast]
      omega
  · exact Nat.le_refl _

theorem length_pushLetter_le {buf : List UInt8} (h : buf.length ≤ PRINTF_NTOA_BUFFER_SIZE)
    (base : Nat) (flags : Flags) :
    (pushLetter buf base flags).length ≤ PRINTF_NTOA_BUFFER_SIZE := by
  rw [pushLetter]
  split
  · exact length_push_le h _
  · split
    · exact length_push_le h _
    · split
      · exact length_push_le h _
      · exact h

theorem length_handleHash_le {buf : List UInt8} (h : buf.length ≤ PRINTF_NTOA_BUFFER_SIZE)
    (base : Nat) (prec width : UInt32) (flags : Flags) :
    (handleHash buf base prec width flags).length ≤ PRINTF_NTOA_BUFFER_SIZE := by
  have hback := Nat.le_trans (length_takeBack_le buf base prec width flags) h
  rw [handleHash]
  split
  · exact length_push_le (length_pushLetter_le hback base flags) _
  · exact h

theorem length_pushSign_le {buf : List UInt8} (h : buf.length ≤ PRINTF_NTOA_BUFFER_SIZE)
    (negative : Bool) (flags : Flags) :
    (pushSign buf negative flags).length ≤ PRINTF_NTOA_BUFFER_SIZE := by
  rw [pushSign]
  split
  · exact length_push_le h _
  · split
    · exact length_push_le h _
    · split
      · exact length_push_le h _
      · exact h

/-- The number stays inside its buffer. -/
theorem length_formatNumber_le {buf : List UInt8} (h : buf.length ≤ PRINTF_NTOA_BUFFER_SIZE)
    (negative : Bool) (base : Nat) (prec width : UInt32) (flags : Flags) :
    (formatNumber buf negative base prec width flags).length ≤ PRINTF_NTOA_BUFFER_SIZE := by
  exact length_pushSign_le (length_handleHash_le (length_padLeadingZeros_le h _ _ _) _ _ _ _) _ _

/-! ### The conversions put out their texts -/

/-- The magnitude of a signed argument. The one of the lowest number wraps to itself. -/
theorem toNat_magnitude (v : Int32) :
    (if 0 < v then v else 0 - v).toUInt32.toNat = v.toInt.natAbs := by
  have hsigned := BitVec.toInt_eq_toNat_cond v.toBitVec
  have hbound := v.toBitVec.isLt
  have hpos : 0 < v ↔ 0 < v.toInt := Int32.lt_iff_toInt_lt
  rw [← Int32.toInt_toBitVec]
  by_cases h : 0 < v
  · rw [if_pos h]
    rw [hpos, ← Int32.toInt_toBitVec] at h
    show v.toBitVec.toNat = _
    omega
  · rw [if_neg h]
    rw [hpos, ← Int32.toInt_toBitVec] at h
    show (0 - v).toBitVec.toNat = _
    rw [Int32.toBitVec_sub, BitVec.toNat_sub]
    show (2 ^ 32 - v.toBitVec.toNat + 0) % 2 ^ 32 = _
    omega

theorem toNat_magnitude64 (v : Int64) :
    (if 0 < v then v else 0 - v).toUInt64.toNat = v.toInt.natAbs := by
  have hsigned := BitVec.toInt_eq_toNat_cond v.toBitVec
  have hbound := v.toBitVec.isLt
  have hpos : 0 < v ↔ 0 < v.toInt := Int64.lt_iff_toInt_lt
  rw [← Int64.toInt_toBitVec]
  by_cases h : 0 < v
  · rw [if_pos h]
    rw [hpos, ← Int64.toInt_toBitVec] at h
    show v.toBitVec.toNat = _
    omega
  · rw [if_neg h]
    rw [hpos, ← Int64.toInt_toBitVec] at h
    show (0 - v).toBitVec.toNat = _
    rw [Int64.toBitVec_sub, BitVec.toNat_sub]
    show (2 ^ 64 - v.toBitVec.toNat + 0) % 2 ^ 64 = _
    omega

section

variable {β : Type} (out : OutFct β) (maxlen : UInt32)
  (floatText : Conversion → UInt64 → List UInt8)

/-- `_ntoa_long` and `_ntoa_long_long` put out the text of their number. -/
theorem ntoa_eq (st : β × UInt32) (value : Nat) (negative : Bool) (base : Nat)
    (prec width : UInt32) (flags : Flags) :
    ntoa out maxlen st value negative base prec width flags
      = feed out maxlen st (ntoaText value negative base prec width flags) := by
  have hbuf := length_formatNumber_le
    (length_digitsOf_le value base (hashFlags value flags)) negative base prec width
    (hashFlags value flags)
  rw [PRINTF_NTOA_BUFFER_SIZE] at hbuf
  exact outRev_eq out maxlen st (by omega) _ _

/-- Converting what is taken is taking what is converted. -/
theorem map_vaArg {α γ δ : Type} (get : VaArg → Option α) (f : α → γ) (g : γ → δ)
    (va : List VaArg) :
    (vaArg (fun arg => (get arg).map f) va).map (fun r => (g r.1, r.2))
      = (vaArg get va).map fun r => (g (f r.1), r.2) := by
  cases va with
  | nil => rfl
  | cons arg va =>
    rw [vaArg, vaArg, Option.map_map, Option.map_map, Option.map_map]
    rfl

/-- An integer conversion puts out the text of its argument. -/
theorem convertInteger_eq (conv : Conversion) (st : β × UInt32) (va : List VaArg) :
    convertInteger out maxlen conv st va
      = (vaArg (integerArg conv) va).map fun arg =>
          (feed out maxlen st (integerText conv arg.1), arg.2) := by
  have hneg : ∀ v : Int32, decide (v < 0) = decide (v.toInt < 0) :=
    fun v => decide_eq_decide.mpr Int32.lt_iff_toInt_lt
  have hneg64 : ∀ v : Int64, decide (v < 0) = decide (v.toInt < 0) :=
    fun v => decide_eq_decide.mpr Int64.lt_iff_toInt_lt
  have hnat : ∀ n : Nat, decide ((n : Int) < 0) = false :=
    fun n => decide_eq_false (by omega)
  have htake := fun {α : Type} (get : VaArg → Option α) (f : α → Int) =>
    map_vaArg get f (fun v => feed out maxlen st (integerText conv v)) va
  rw [convertInteger]
  simp only [ntoaLong, ntoaLongLong, ntoa_eq, toNat_magnitude, toNat_magnitude64, hneg, hneg64]
  -- The cases are the same on both sides, signed or not and by the length of the argument.
  have hcase : ∀ {get : VaArg → Option Int}, (∀ arg, integerArg conv arg = get arg) →
      integerArg conv = get := fun h => funext h
  cases hsigned : isSigned conv.specifier with
  | true =>
    cases hll : (integerFlags conv.specifier conv.flags).longLong with
    | true =>
      rw [hcase fun arg => by rw [integerArg, if_pos hsigned, if_pos hll], htake]
      simp [integerText, vaLongLong]
    | false =>
      cases hl : (integerFlags conv.specifier conv.flags).long with
      | true =>
        rw [hcase fun arg => by rw [integerArg, if_pos hsigned, hll, if_neg Bool.false_ne_true,
          if_pos hl], htake]
        simp [integerText, vaWord]
      | false =>
        rw [hcase fun arg => by rw [integerArg, if_pos hsigned, hll, if_neg Bool.false_ne_true,
          hl, if_neg Bool.false_ne_true], htake]
        simp [integerText, vaWord]
  | false =>
    cases hll : (integerFlags conv.specifier conv.flags).longLong with
    | true =>
      rw [hcase fun arg => by rw [integerArg, hsigned, if_neg Bool.false_ne_true, if_pos hll],
        htake]
      simp [integerText, vaLongLong, hnat]
    | false =>
      cases hl : (integerFlags conv.specifier conv.flags).long with
      | true =>
        rw [hcase fun arg => by rw [integerArg, hsigned, if_neg Bool.false_ne_true, hll,
          if_neg Bool.false_ne_true, if_pos hl], htake]
        simp [integerText, vaWord, hnat]
      | false =>
        rw [hcase fun arg => by rw [integerArg, hsigned, if_neg Bool.false_ne_true, hll,
          if_neg Bool.false_ne_true, hl, if_neg Bool.false_ne_true], htake]
        simp [integerText, vaWord, hnat]

/-- A character and a string are put out in their width. -/
theorem feed_padded (conv : Conversion) (l : Nat) (chars : List UInt8) (st : β × UInt32) :
    (if conv.flags.left then
        feed out maxlen (feed out maxlen st chars) (spaces (conv.width.toNat - l))
      else feed out maxlen (feed out maxlen st (spaces (conv.width.toNat - l))) chars)
      = feed out maxlen st (padded conv l chars) := by
  rw [padded]
  split
  · rw [feed_append]
  · rw [feed_append]

theorem convertString_eq (conv : Conversion) (st : β × UInt32) (va : List VaArg) :
    convertString out maxlen conv st va
      = (vaString va).bind fun arg => (stringText conv arg.1).map fun text =>
          (feed out maxlen st text, arg.2) := by
  rw [convertString]
  cases vaString va with
  | none => rfl
  | some arg =>
    rw [Option.bind_some, Option.bind_some, stringText, stringLength]
    cases strnlenS arg.1 (if conv.precision ≠ 0 then conv.precision else 0 - 1) with
    | none => rfl
    | some l =>
      rw [Option.bind_some, Option.map_some, Option.bind_some, Option.map_map]
      refine congrArg (Option.map · _) (funext fun chars => ?_)
      rw [Function.comp_apply, ← feed_padded]
      cases conv.flags.left with
      | true => rfl
      | false => rfl

theorem convertChar_eq (conv : Conversion) (st : β × UInt32) (va : List VaArg) :
    convertChar out maxlen conv st va
      = (vaWord va).map fun arg =>
          (feed out maxlen st (padded conv 1 [arg.1.toUInt8]), arg.2) := by
  rw [convertChar]
  refine congrArg (Option.map · _) (funext fun arg => ?_)
  rw [← feed_padded]
  cases conv.flags.left with
  | true => rfl
  | false => rfl

/-- Every conversion puts out its text. -/
theorem convert_eq (conv : Conversion) (st : β × UInt32) (va : List VaArg) :
    convert out maxlen floatText conv st va
      = (convertText floatText conv va).map fun next => (feed out maxlen st next.1, next.2) := by
  rw [convert, convertText]
  split
  · rw [convertInteger_eq, Option.map_map]
    rfl
  · split
    · rw [convertFloat, Option.map_map]
      rfl
    · split
      · rw [convertChar_eq, Option.map_map]
        rfl
      · split
        · rw [convertString_eq, Option.map_bind]
          refine congrArg (Option.bind _) (funext fun arg => ?_)
          rw [Function.comp_apply, Option.map_map]
          rfl
        · split
          · rw [convertPointer, Option.map_map]
            simp only [ntoaLong, ntoa_eq]
            rfl
          · rfl

/-- The loop puts out the text of the format. -/
theorem formatLoop_eq (fuel : Nat) (fmt : List UInt8) (va : List VaArg) (st : β × UInt32) :
    formatLoop out maxlen floatText fuel fmt va st
      = (textLoop floatText fuel fmt va).map (feed out maxlen st) := by
  induction fuel generalizing fmt va st with
  | zero => rfl
  | succ fuel ih =>
    cases fmt with
    | nil => rfl
    | cons ch fmt =>
      rw [formatLoop, textLoop]
      split
      · rfl
      · split
        · rw [ih, Option.map_map]
          rfl
        · cases evaluate fmt va with
          | none => rfl
          | some item =>
            rw [Option.bind_some, Option.bind_some, convert_eq]
            cases convertText floatText item.1 item.2.2 with
            | none => rfl
            | some next =>
              rw [Option.map_some, Option.bind_some, Option.bind_some, ih, Option.map_map]
              refine congrArg (Option.map · _) (funext fun rest => ?_)
              rw [Function.comp_apply, feed_append]

/-- Whatever the output function does, the formatter hands it the text of the format at
successive indices, then the terminator, behind the text or at the last index below the
limit. It returns the length of the text. -/
theorem format_eq (buffer : β) (fmt : List UInt8) (va : List VaArg) :
    format out maxlen floatText buffer fmt va
      = (text floatText fmt va).map fun t =>
          (out 0 (feed out maxlen (buffer, 0) t).1
            (if UInt32.ofNat t.length < maxlen then UInt32.ofNat t.length else maxlen - 1) maxlen,
           (UInt32.ofNat t.length).toInt32) := by
  rw [format, formatLoop_eq, Option.map_map]
  refine congrArg (Option.map · _) (funext fun t => ?_)
  have hidx : (feed out maxlen (buffer, 0) t).2 = UInt32.ofNat t.length := by
    rw [feed_snd]
    exact UInt32.zero_add _
  show (out 0 _ (if (feed out maxlen (buffer, 0) t).2 < maxlen then _ else _) maxlen, _) = _
  rw [hidx]

end

/-! ### Buffers -/

theorem outBuffer_some (ch : UInt8) (mem : List UInt8) (idx maxlen : UInt32) :
    outBuffer ch (some mem) idx maxlen = putAt maxlen.toNat idx.toNat mem ch := by
  show (if idx < maxlen then _ else _) = _
  rw [putAt]
  by_cases h : idx < maxlen
  · rw [if_pos h, if_pos (UInt32.lt_iff_toNat_lt.mp h)]
  · rw [if_neg h, if_neg fun hlt => h (UInt32.lt_iff_toNat_lt.mpr hlt)]

/-- Nothing repairs a write behind the memory. -/
theorem feed_outBuffer_none (maxlen idx : UInt32) (t : List UInt8) :
    (feed outBuffer maxlen (none, idx) t).1 = none := by
  induction t generalizing idx with
  | nil => rfl
  | cons ch t ih => exact ih (idx + 1)

/-- A text that does not wrap the index is written at successive places. -/
theorem feed_outBuffer (maxlen idx : UInt32) (mem t : List UInt8)
    (h : idx.toNat + t.length < 2 ^ 32) :
    (feed outBuffer maxlen (some mem, idx) t).1 = putAll maxlen.toNat idx.toNat mem t := by
  induction t generalizing idx mem with
  | nil => rfl
  | cons ch t ih =>
    rw [List.length_cons] at h
    have hone : (1 : UInt32).toNat = 1 := rfl
    have hnext : (idx + 1).toNat = idx.toNat + 1 := by
      rw [UInt32.toNat_add, hone]
      omega
    rw [feed_cons, emit, outBuffer_some, putAll]
    cases putAt maxlen.toNat idx.toNat mem ch with
    | none =>
      rw [Option.bind_none]
      exact feed_outBuffer_none maxlen (idx + 1) t
    | some mem' =>
      rw [Option.bind_some, ← hnext]
      exact ih (idx + 1) mem' (by omega)

section

variable {floatText : Conversion → UInt64 → List UInt8} {fmt : List UInt8} {va : List VaArg}
  {t : List UInt8}

/-- With `_out_buffer` the formatter writes its text as a string of the limited buffer. -/
theorem format_outBuffer (ht : text floatText fmt va = some t) (hlen : t.length < 2 ^ 32)
    (maxlen : UInt32) (mem : List UInt8) :
    format outBuffer maxlen floatText (some mem) fmt va
      = some (writeString maxlen.toNat 0 mem t, (UInt32.ofNat t.length).toInt32) := by
  have hidx : (UInt32.ofNat t.length).toNat = t.length := UInt32.toNat_ofNat_of_lt' hlen
  have hzero : (0 : UInt32).toNat = 0 := rfl
  have hfeed := feed_outBuffer maxlen 0 mem t (by omega)
  rw [hzero] at hfeed
  rw [format_eq, ht, Option.map_some, hfeed, writeString]
  congr 2
  cases putAll maxlen.toNat 0 mem t with
  | none => rfl
  | some mem' =>
    rw [outBuffer_some, Option.bind_some]
    by_cases hlt : t.length < maxlen.toNat
    · rw [if_pos (UInt32.lt_iff_toNat_lt.mpr (by omega)), if_pos hlt, hidx]
    · rw [if_neg (fun h => hlt (by rw [← hidx]; exact UInt32.lt_iff_toNat_lt.mp h)), if_neg hlt]
      by_cases hmax : maxlen.toNat = 0
      · -- The limit is zero, and the index has wrapped.
        rw [hmax, putAt, putAt, if_neg (Nat.not_lt_zero _), if_neg (Nat.not_lt_zero _)]
      · have hone : (1 : UInt32).toNat = 1 := rfl
        have hle : (1 : UInt32) ≤ maxlen := UInt32.le_iff_toNat_le.mpr (by omega)
        rw [UInt32.toNat_sub_of_le _ _ hle, hone]

/-- The length of a text as the return value. -/
theorem toInt_length (hlen : t.length < 2 ^ 31) :
    (UInt32.ofNat t.length).toInt32.toInt = t.length := by
  have hbits := BitVec.toInt_eq_toNat_cond (UInt32.ofNat t.length).toBitVec
  have hnat : (UInt32.ofNat t.length).toBitVec.toNat = t.length :=
    UInt32.toNat_ofNat_of_lt' (Nat.lt_trans hlen (by decide))
  show (UInt32.ofNat t.length).toBitVec.toInt = _
  rw [hbits, hnat, if_pos (by omega)]

/-- `sprintf_` writes its text and a terminator, if they fit the memory. -/
theorem sprintf_eq (ht : text floatText fmt va = some t) (hlen : t.length < 2 ^ 31)
    (mem : List UInt8) :
    sprintf floatText fmt va mem
      = some (if t.length < mem.length then some (t ++ 0 :: mem.drop (t.length + 1)) else none,
          (UInt32.ofNat t.length).toInt32) := by
  have hmax : ((0 : UInt32) - 1).toNat = 2 ^ 32 - 1 := rfl
  rw [sprintf, format_outBuffer ht (by omega), hmax, writeString_eq (by omega),
    Nat.min_eq_left (by omega : t.length + 1 ≤ 2 ^ 32 - 1),
    Nat.min_eq_left (by omega : t.length ≤ 2 ^ 32 - 1 - 1), List.take_of_length_le (by omega)]
  rfl

end

/-! ### Reading a conversion takes characters off the format -/

theorem atoiLoop_suffix (i : UInt32) (str : List UInt8) : (atoiLoop i str).2 <:+ str := by
  induction str generalizing i with
  | nil => exact List.suffix_refl _
  | cons ch str ih =>
    rw [atoiLoop]
    split
    · exact (ih _).trans (List.suffix_cons ch str)
    · exact List.suffix_refl _

theorem evaluateFlags_suffix (flags : Flags) (fmt : List UInt8) :
    (evaluateFlags flags fmt).2 <:+ fmt := by
  fun_induction evaluateFlags flags fmt with
  | case1 => exact List.suffix_refl _
  | case2 flags fmt ih => exact ih.trans (List.suffix_cons _ fmt)
  | case3 flags fmt _ ih => exact ih.trans (List.suffix_cons _ fmt)
  | case4 flags fmt _ _ ih => exact ih.trans (List.suffix_cons _ fmt)
  | case5 flags fmt _ _ _ ih => exact ih.trans (List.suffix_cons _ fmt)
  | case6 flags fmt _ _ _ _ ih => exact ih.trans (List.suffix_cons _ fmt)
  | case7 => exact List.suffix_refl _

theorem evaluateWidth_suffix {flags : Flags} {fmt : List UInt8} {va : List VaArg}
    {r : Flags × UInt32 × List UInt8 × List VaArg} (h : evaluateWidth flags fmt va = some r) :
    r.2.2.1 <:+ fmt := by
  cases fmt with
  | nil => cases h
  | cons ch fmt =>
    rw [evaluateWidth] at h
    split at h
    · cases h
      exact atoiLoop_suffix 0 (ch :: fmt)
    · split at h
      · obtain ⟨w, -, rfl⟩ := Option.map_eq_some_iff.mp h
        split
        · exact List.suffix_cons ch fmt
        · exact List.suffix_cons ch fmt
      · cases h
        exact List.suffix_refl _

theorem evaluatePrecision_suffix {flags : Flags} {fmt : List UInt8} {va : List VaArg}
    {r : Flags × UInt32 × List UInt8 × List VaArg}
    (h : evaluatePrecision flags fmt va = some r) : r.2.2.1 <:+ fmt := by
  cases fmt with
  | nil => cases h
  | cons ch fmt =>
    rw [evaluatePrecision.eq_def] at h
    dsimp only at h
    split at h
    · cases fmt with
      | nil => cases h
      | cons ch' fmt =>
        dsimp only at h
        have htail : ch' :: fmt <:+ ch :: ch' :: fmt := List.suffix_cons ch (ch' :: fmt)
        split at h
        · cases h
          exact (atoiLoop_suffix 0 (ch' :: fmt)).trans htail
        · split at h
          · obtain ⟨w, -, rfl⟩ := Option.map_eq_some_iff.mp h
            exact (List.suffix_cons ch' fmt).trans htail
          · cases h
            exact htail
    · cases h
      exact List.suffix_refl _

theorem evaluateLength_suffix {flags : Flags} {fmt : List UInt8} {r : Flags × List UInt8}
    (h : evaluateLength flags fmt = some r) : r.2 <:+ fmt := by
  cases fmt with
  | nil => cases h
  | cons ch fmt =>
    have htail : fmt <:+ ch :: fmt := List.suffix_cons ch fmt
    rw [evaluateLength.eq_def] at h
    dsimp only at h
    split at h
    · cases fmt with
      | nil => cases h
      | cons ch' fmt =>
        dsimp only at h
        split at h
        · cases h
          exact (List.suffix_cons ch' fmt).trans htail
        · cases h
          exact htail
    · split at h
      · cases fmt with
        | nil => cases h
        | cons ch' fmt =>
          dsimp only at h
          split at h
          · cases h
            exact (List.suffix_cons ch' fmt).trans htail
          · cases h
            exact htail
      · repeat' split at h
        all_goals cases h
        · exact htail
        · exact htail
        · exact htail
        · exact List.suffix_refl _

/-- A conversion takes at least its specifier. -/
theorem evaluate_length_lt {fmt : List UInt8} {va : List VaArg}
    {r : Conversion × List UInt8 × List VaArg} (h : evaluate fmt va = some r) :
    r.2.1.length < fmt.length := by
  rw [evaluate, Option.bind_eq_some_iff] at h
  obtain ⟨width, hwidth, h⟩ := h
  obtain ⟨precision, hprecision, h⟩ := Option.bind_eq_some_iff.mp h
  obtain ⟨length, hlength, h⟩ := Option.bind_eq_some_iff.mp h
  have hsuffix := (evaluateLength_suffix hlength).trans
    ((evaluatePrecision_suffix hprecision).trans
      ((evaluateWidth_suffix hwidth).trans (evaluateFlags_suffix Flags.none fmt)))
  have hle := hsuffix.length_le
  split at h
  · cases h
  · rename_i ch rest hrest
    cases h
    rw [hrest, List.length_cons] at hle
    exact hle

/-! ### The text of a format, character by character -/

section

variable (floatText : Conversion → UInt64 → List UInt8)

/-- The loop ends within the length of the format: more fuel changes nothing. -/
theorem textLoop_eq {fuel : Nat} {fmt : List UInt8} (h : fmt.length ≤ fuel) (va : List VaArg) :
    textLoop floatText fuel fmt va = text floatText fmt va := by
  -- Two amounts of fuel that are both enough give the same.
  have key : ∀ (f g : Nat) (fmt : List UInt8) (va : List VaArg), fmt.length ≤ f → fmt.length ≤ g →
      textLoop floatText f fmt va = textLoop floatText g fmt va := by
    intro f
    induction f with
    | zero =>
      intro g fmt va hf _
      rw [List.length_eq_zero_iff.mp (Nat.le_zero.mp hf)]
      cases g with
      | zero => rfl
      | succ g => rfl
    | succ f ih =>
      intro g fmt va hf hg
      cases fmt with
      | nil =>
        cases g with
        | zero => rfl
        | succ g => rfl
      | cons ch fmt =>
        rw [List.length_cons] at hf hg
        obtain ⟨g, rfl⟩ : ∃ k, g = k + 1 := ⟨g - 1, by omega⟩
        rw [textLoop, textLoop, ih g fmt va (by omega) (by omega)]
        split
        · rfl
        · split
          · rfl
          · cases heval : evaluate fmt va with
            | none => rfl
            | some item =>
              have hlt := evaluate_length_lt heval
              rw [Option.bind_some, Option.bind_some]
              cases convertText floatText item.1 item.2.2 with
              | none => rfl
              | some next =>
                rw [Option.bind_some, Option.bind_some,
                  ih g item.2.1 next.2 (by omega) (by omega)]
  exact key fuel fmt.length fmt va h (Nat.le_refl _)

@[simp] theorem text_nil (va : List VaArg) : text floatText [] va = none := rfl

/-- The terminator ends the text, and what lies behind it does not matter. -/
@[simp] theorem text_zero (fmt : List UInt8) (va : List VaArg) :
    text floatText (0 :: fmt) va = some [] := rfl

/-- Another character than `%` is copied. -/
theorem text_cons {ch : UInt8} (hzero : ch ≠ 0) (hpercent : ch ≠ '%'.toUInt8)
    (fmt : List UInt8) (va : List VaArg) :
    text floatText (ch :: fmt) va = (text floatText fmt va).map (ch :: ·) := by
  rw [text, List.length_cons, textLoop, if_neg hzero, if_pos hpercent,
    textLoop_eq floatText (Nat.le_refl _)]

/-- A `%` begins a conversion. -/
theorem text_percent (fmt : List UInt8) (va : List VaArg) :
    text floatText ('%'.toUInt8 :: fmt) va
      = (evaluate fmt va).bind fun item =>
          (convertText floatText item.1 item.2.2).bind fun next =>
            (text floatText item.2.1 next.2).map (next.1 ++ ·) := by
  rw [text, List.length_cons, textLoop, if_neg (by decide), if_neg (fun h => h rfl)]
  cases heval : evaluate fmt va with
  | none => rfl
  | some item =>
    have hlt := evaluate_length_lt heval
    rw [Option.bind_some, Option.bind_some]
    refine congrArg (Option.bind _) (funext fun next => ?_)
    rw [textLoop_eq floatText (by omega)]

end

/-! ### The entry points -/

section

variable {floatText : Conversion → UInt64 → List UInt8} {fmt : List UInt8} {va : List VaArg}
  {t : List UInt8}

/-- A function that is called with every character but the terminator sees the text
without its zeros. -/
theorem feed_outFct {σ : Type} (fct : UInt8 → σ → σ) (maxlen idx : UInt32) (arg : σ)
    (t : List UInt8) :
    (feed (outFct fct) maxlen (arg, idx) t).1
      = (t.filter (· ≠ 0)).foldl (fun arg ch => fct ch arg) arg := by
  induction t generalizing arg idx with
  | nil => rfl
  | cons ch t ih =>
    rw [feed_cons]
    by_cases hch : ch = 0
    · rw [List.filter_cons_of_neg (by simp [hch]), ← ih (idx + 1) arg, hch]
      rfl
    · rw [List.filter_cons_of_pos (by simp [hch]), List.foldl_cons, ← ih (idx + 1) (fct ch arg)]
      show (feed (outFct fct) maxlen (if ch ≠ 0 then fct ch arg else arg, idx + 1) t).1 = _
      rw [if_pos hch]

/-- The entry points agree. A format and its arguments have one text, and then

- `printf_` and `snprintf_` into a null buffer return its length;
- `fctprintf` hands its function the characters that are not zero, in their order;
- `snprintf_` into a buffer leaves the text cut to `count - 1` characters, one terminator,
  and everything behind it as it was; a `count` of zero leaves the whole buffer as it was;

and they all return the length of the whole text. -/
theorem entryPoints_agree (ht : text floatText fmt va = some t) (hlen : t.length < 2 ^ 31) :
    ∃ n : Int32, n.toInt = t.length ∧
      printf floatText fmt va = some ((), n) ∧
      (∀ count, snprintf floatText fmt va none count = some (none, n)) ∧
      (∀ (σ : Type) (fct : UInt8 → σ → σ) (arg : σ), fctprintf floatText fmt va fct arg
        = some ((t.filter (· ≠ 0)).foldl (fun arg ch => fct ch arg) arg, n)) ∧
      ∀ (mem : List UInt8) (count : UInt32), count.toNat ≤ mem.length →
        snprintf floatText fmt va (some mem) count
          = some (some (some (if count = 0 then mem
              else t.take (count.toNat - 1) ++
                0 :: mem.drop (min t.length (count.toNat - 1) + 1))), n) := by
  refine ⟨(UInt32.ofNat t.length).toInt32, toInt_length hlen, ?_, ?_, ?_, ?_⟩
  · rw [printf, format_eq, ht]
    rfl
  · intro count
    show Option.map _ (format outNull count floatText () fmt va) = _
    rw [format_eq, ht]
    rfl
  · intro σ fct arg
    rw [fctprintf, format_eq, ht, Option.map_some, feed_outFct]
    rfl
  · intro mem count hcount
    show Option.map _ (format outBuffer count floatText (some mem) fmt va) = _
    rw [format_outBuffer ht (by omega), Option.map_some]
    by_cases hzero : count = 0
    · rw [if_pos hzero, hzero]
      show some (some (writeString 0 0 mem t), _) = _
      rw [writeString_zero]
    · have hpos : 0 < count.toNat := by
        have hne : count.toNat ≠ 0 := fun h => hzero (UInt32.toNat_inj.mp h)
        omega
      rw [if_neg hzero]
      dsimp only
      rw [writeString_eq hpos, if_pos (by omega)]

/-- `sprintf_` has no limit. It stays inside its buffer exactly when the text is shorter
than the buffer, and then the buffer starts with the text and a terminator. -/
theorem sprintf_inBounds_iff (ht : text floatText fmt va = some t) (hlen : t.length < 2 ^ 31)
    (mem : List UInt8) :
    ∃ r n, sprintf floatText fmt va mem = some (r, n) ∧
      (r.isSome = true ↔ t.length < mem.length) ∧
      ∀ mem', r = some mem' → mem'.length = mem.length ∧ t ++ [0] <+: mem' ∧
        mem'.drop (t.length + 1) = mem.drop (t.length + 1) := by
  refine ⟨_, _, sprintf_eq ht hlen mem, ?_, ?_⟩
  · by_cases hfits : t.length < mem.length
    · simp [hfits]
    · simp [hfits]
  · intro mem' hmem
    by_cases hfits : t.length < mem.length
    · rw [if_pos hfits, Option.some.injEq] at hmem
      rw [← hmem]
      refine ⟨?_, ?_, ?_⟩
      · rw [List.length_append, List.length_cons, List.length_drop]
        omega
      · exact ⟨mem.drop (t.length + 1), by simp⟩
      · rw [List.drop_append, List.drop_of_length_le (by omega), List.nil_append,
          Nat.add_sub_cancel_left, List.drop_succ_cons, List.drop_zero]
    · rw [if_neg hfits] at hmem
      cases hmem

end

/-- The line of one cell, in a buffer of eight bytes. -/
theorem entryPoints_agree_cell :
    ∃ n : Int32, n.toInt = 9 ∧
      snprintf (fun _ _ => []) (cLiteral "C0: %dmV\n") [.word 42]
          (some [1, 2, 3, 4, 5, 6, 7, 8]) 6
        = some (some (some [67, 48, 58, 32, 52, 0, 7, 8]), n) := by
  obtain ⟨n, hn, -, -, -, hbuffer⟩ := @entryPoints_agree (fun _ _ => [])
    (cLiteral "C0: %dmV\n") [.word 42] [67, 48, 58, 32, 52, 50, 109, 86, 10]
    (by decide) (by decide)
  exact ⟨n, hn, hbuffer [1, 2, 3, 4, 5, 6, 7, 8] 6 (by decide)⟩

theorem sprintf_inBounds_iff_cell :
    ∃ r n, sprintf (fun _ _ => []) (cLiteral "C0: %dmV\n") [.word 42] [1, 2, 3, 4, 5, 6, 7, 8]
        = some (r, n) ∧ ¬ r.isSome = true := by
  obtain ⟨r, n, hrun, hfits, -⟩ := @sprintf_inBounds_iff (fun _ _ => [])
    (cLiteral "C0: %dmV\n") [.word 42] [67, 48, 58, 32, 52, 50, 109, 86, 10]
    (by decide) (by decide) [1, 2, 3, 4, 5, 6, 7, 8]
  exact ⟨r, n, hrun, fun h => absurd (hfits.mp h) (by decide)⟩

end UpsFirmware.Stm32.Printf
