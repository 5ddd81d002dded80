import UpsFirmware.Stm32.PrintfText

/-!
# `UpsFirmware.Stm32.PrintfNumbers`: numbers that are read back

`readInteger` reads spaces, a sign and digits, of any number. The C library's `strtol` reads
the same texts, but gives no value beyond `LONG_MIN` and `LONG_MAX`, and this module is
about what is written. The text of an integer conversion is spaces, a sign, zeros, the
digits of the number and spaces (`ntoaText_eq`), so it reads back as the number, if two
things fit the buffer of 32 characters: the digits, and the sign in front of the zeros.
-/

set_option autoImplicit false

namespace UpsFirmware.Stm32.Printf

open Lib

/-! ### Reading a number -/

/-- The value of a digit. -/
def digitValue (ch : UInt8) : Option Nat :=
  if isDigit ch then some (ch.toNat - '0'.toNat)
  else if 'a'.toUInt8 ≤ ch && ch ≤ 'f'.toUInt8 then some (ch.toNat - 'a'.toNat + 10)
  else if 'A'.toUInt8 ≤ ch && ch ≤ 'F'.toUInt8 then some (ch.toNat - 'A'.toNat + 10)
  else none

/-- The digits of a number, with the value so far. -/
def readDigits (base : Nat) (value : Nat) : List UInt8 → Nat
  | [] => value
  | ch :: s =>
    match digitValue ch with
    | some d => if d < base then readDigits base (value * base + d) s else value
    | none => value

/-- The number that a text stands for. -/
def readInteger (base : Nat) (s : List UInt8) : Int :=
  match s.dropWhile (· = ' '.toUInt8) with
  | [] => 0
  | ch :: s =>
    if ch = '-'.toUInt8 then -(readDigits base 0 s : Int)
    else if ch = '+'.toUInt8 then readDigits base 0 s
    else readDigits base 0 (ch :: s)

/-- A digit is written as a character with its value. -/
theorem digitValue_digitChar (uppercase : Bool) {d : Nat} (h : d < 16) :
    digitValue (digitChar uppercase d) = some d := by
  have hall : ∀ uppercase : Bool, ∀ d < 16, digitValue (digitChar uppercase d) = some d := by
    decide
  exact hall uppercase d h

theorem digitChar_zero (uppercase : Bool) : digitChar uppercase 0 = '0'.toUInt8 := by
  cases uppercase with
  | true => rfl
  | false => rfl

/-- Written digits are read back, up to a space or the end. -/
theorem readDigits_map {base : Nat} (hbase : base ≤ 16) (uppercase : Bool) (value n : Nat)
    {digits : List Nat} (h : ∀ d ∈ digits, d < base) :
    readDigits base value (digits.map (digitChar uppercase) ++ spaces n)
      = digits.foldl (fun value digit => value * base + digit) value := by
  induction digits generalizing value with
  | nil =>
    cases n with
    | zero => rfl
    | succ n => rfl
  | cons d digits ih =>
    have hd : d < base := h d List.mem_cons_self
    rw [List.map_cons, List.cons_append, readDigits,
      digitValue_digitChar uppercase (Nat.lt_of_lt_of_le hd hbase)]
    show (if d < base then _ else _) = _
    rw [if_pos hd, List.foldl_cons]
    exact ih _ fun e he => h e (List.mem_cons_of_mem d he)

/-- The character of a digit is neither a space nor a sign. -/
theorem digitChar_plain (uppercase : Bool) {d : Nat} (h : d < 16) :
    digitChar uppercase d ≠ ' '.toUInt8 ∧ digitChar uppercase d ≠ '-'.toUInt8 ∧
      digitChar uppercase d ≠ '+'.toUInt8 := by
  have hall : ∀ uppercase : Bool, ∀ d < 16, digitChar uppercase d ≠ ' '.toUInt8 ∧
      digitChar uppercase d ≠ '-'.toUInt8 ∧ digitChar uppercase d ≠ '+'.toUInt8 := by
    decide
  exact hall uppercase d h

theorem dropWhile_spaces (n : Nat) (s : List UInt8) :
    (spaces n ++ s).dropWhile (· = ' '.toUInt8) = s.dropWhile (· = ' '.toUInt8) := by
  induction n with
  | zero => rfl
  | succ n ih => exact ih

/-- A number without a sign in front of it. -/
theorem readInteger_digits {base : Nat} (hbase : base ≤ 16) (uppercase : Bool) (n : Nat)
    {digits : List Nat} (h : ∀ d ∈ digits, d < base) :
    readInteger base (digits.map (digitChar uppercase) ++ spaces n)
      = (readNumeral base digits : Nat) := by
  cases digits with
  | nil =>
    have hskip := dropWhile_spaces n []
    rw [List.append_nil] at hskip
    rw [List.map_nil, List.nil_append, readInteger, hskip]
    rfl
  | cons d digits =>
    have hread := readDigits_map hbase uppercase 0 n h
    have hd := digitChar_plain uppercase (Nat.lt_of_lt_of_le (h d List.mem_cons_self) hbase)
    rw [List.map_cons, List.cons_append] at hread ⊢
    rw [readInteger, List.dropWhile_cons_of_neg (by simpa using hd.1)]
    show (if _ then _ else if _ then _ else _) = _
    rw [if_neg hd.2.1, if_neg hd.2.2, hread]
    rfl

/-! ### The text of a number -/

/-- The sign of a number, or what stands for it. -/
def signText (negative : Bool) (flags : Flags) : List UInt8 :=
  if negative then ['-'.toUInt8]
  else if flags.plus then ['+'.toUInt8]
  else if flags.space then [' '.toUInt8]
  else []

/-- A number with a sign in front of it. -/
theorem readInteger_sign {base : Nat} (hbase : base ≤ 16) (uppercase negative : Bool)
    (flags : Flags) (n : Nat) {digits : List Nat} (h : ∀ d ∈ digits, d < base) :
    readInteger base (signText negative flags ++ (digits.map (digitChar uppercase) ++ spaces n))
      = if negative then -(readNumeral base digits : Int)
        else (readNumeral base digits : Nat) := by
  have hread := readDigits_map hbase uppercase 0 n h
  have hplain := readInteger_digits hbase uppercase n h
  rw [signText]
  cases negative with
  | true =>
    show -(readDigits base 0 (digits.map (digitChar uppercase) ++ spaces n) : Int) = _
    rw [hread]
    rfl
  | false =>
    cases flags.plus with
    | true =>
      show (readDigits base 0 (digits.map (digitChar uppercase) ++ spaces n) : Int) = _
      rw [hread]
      rfl
    | false =>
      cases flags.space with
      | true => exact hplain
      | false => exact hplain

/-- The length of the buffer with its leading zeros. -/
def paddedLength (n : Nat) (prec width : UInt32) (flags : Flags) : Nat :=
  if flags.left then n
  else if flags.zeropad then
    max (max n (min prec.toNat PRINTF_NTOA_BUFFER_SIZE)) (min width.toNat PRINTF_NTOA_BUFFER_SIZE)
  else max n (min prec.toNat PRINTF_NTOA_BUFFER_SIZE)

/-- Padding appends zeros. -/
theorem padLeadingZeros_eq (buf : List UInt8) (prec width : UInt32) (flags : Flags) :
    padLeadingZeros buf prec width flags
      = buf ++ List.replicate (paddedLength buf.length prec width flags - buf.length)
          '0'.toUInt8 := by
  rw [padLeadingZeros, paddedLength]
  split
  · simp
  · split
    · rw [padZeros, padZeros, List.append_assoc, List.replicate_append_replicate,
        List.length_append, List.length_replicate]
      congr 2
      omega
    · rw [padZeros]
      congr 2
      omega

theorem le_paddedLength (n : Nat) (prec width : UInt32) (flags : Flags) :
    n ≤ paddedLength n prec width flags := by
  rw [paddedLength]
  split
  · exact Nat.le_refl n
  · split
    · omega
    · omega

/-- The length of a number with zeros behind its digits. -/
theorem length_append_zeros {digits : List UInt8} {padded : Nat} (h : digits.length ≤ padded) :
    (digits ++ List.replicate (padded - digits.length) '0'.toUInt8).length = padded := by
  rw [List.length_append, List.length_replicate]
  omega

/-- The sign goes behind the buffer if there is room. -/
theorem pushSign_eq (buf : List UInt8) (negative : Bool) (flags : Flags) :
    pushSign buf negative flags
      = if buf.length < PRINTF_NTOA_BUFFER_SIZE then buf ++ signText negative flags else buf := by
  rw [pushSign, signText]
  cases negative with
  | true => rfl
  | false =>
    cases flags.plus with
    | true => rfl
    | false =>
      cases flags.space with
      | true => rfl
      | false => simp

theorem reverse_signText (negative : Bool) (flags : Flags) :
    (signText negative flags).reverse = signText negative flags := by
  rw [signText]
  cases negative with
  | true => rfl
  | false =>
    cases flags.plus with
    | true => rfl
    | false =>
      cases flags.space with
      | true => rfl
      | false => rfl

/-- `_out_rev` puts out the buffer, last character first, between spaces. -/
theorem outRevText_eq (buf : List UInt8) (width : UInt32) (flags : Flags) :
    ∃ front back, outRevText buf width flags = spaces front ++ (buf.reverse ++ spaces back) := by
  have hspaces : ∀ (c : Bool) (n : Nat),
      (if c then spaces n else []) = spaces (if c then n else 0) := by
    intro c n
    cases c with
    | true => rfl
    | false => rfl
  rw [outRevText, hspaces, hspaces, List.append_assoc]
  exact ⟨_, _, rfl⟩

/-- Without the hash, the text of a number is spaces, its sign if there is room for it,
zeros, its digits, and spaces. -/
theorem ntoaText_eq (value : Nat) (negative : Bool) (base : Nat) (prec width : UInt32)
    {flags : Flags} (hhash : flags.hash = false) :
    ∃ front back, ntoaText value negative base prec width flags
      = spaces front ++
        ((if paddedLength (digitsOf value base flags).length prec
              (zeroWidth negative width flags) flags < PRINTF_NTOA_BUFFER_SIZE then
            signText negative flags else []) ++
          (List.replicate (paddedLength (digitsOf value base flags).length prec
              (zeroWidth negative width flags) flags - (digitsOf value base flags).length)
            '0'.toUInt8 ++ (digitsOf value base flags).reverse ++ spaces back)) := by
  have hflags : hashFlags value flags = flags := by
    rw [hashFlags]
    split
    · rw [← hhash]
    · rfl
  rw [ntoaText, hflags, formatNumber, handleHash, hhash, if_neg Bool.false_ne_true, pushSign_eq,
    padLeadingZeros_eq]
  have hle := le_paddedLength (digitsOf value base flags).length prec
    (zeroWidth negative width flags) flags
  generalize paddedLength (digitsOf value base flags).length prec
    (zeroWidth negative width flags) flags = padded at hle ⊢
  generalize digitsOf value base flags = digits at hle ⊢
  have hlen := length_append_zeros hle
  obtain ⟨front, back, houtput⟩ := outRevText_eq
    (if padded < PRINTF_NTOA_BUFFER_SIZE then
      digits ++ List.replicate (padded - digits.length) '0'.toUInt8 ++ signText negative flags
    else digits ++ List.replicate (padded - digits.length) '0'.toUInt8)
    (zeroWidth negative width flags) flags
  refine ⟨front, back, ?_⟩
  rw [hlen, houtput]
  refine congrArg (spaces front ++ ·) ?_
  split
  · rw [List.reverse_append, List.reverse_append, List.reverse_replicate, reverse_signText,
      List.append_assoc]
  · rw [List.reverse_append, List.reverse_replicate, List.nil_append]

/-! ### Reading the text back -/

/-- The digits that are written, lowest first. -/
def digitList (value base : Nat) (flags : Flags) : List Nat :=
  if !flags.precision || value ≠ 0 then lowDigits base PRINTF_NTOA_BUFFER_SIZE value else []

theorem digitsOf_eq (value base : Nat) (flags : Flags) :
    digitsOf value base flags = (digitList value base flags).map (digitChar flags.uppercase) := by
  rw [digitsOf, digitList]
  split
  · rfl
  · rfl

theorem digitList_lt {base : Nat} (hbase : 0 < base) {value : Nat} {flags : Flags} {d : Nat}
    (h : d ∈ digitList value base flags) : d < base := by
  rw [digitList] at h
  split at h
  · exact lowDigits_lt hbase h
  · cases h

/-- Behind any zeros, the digits are the number modulo a power of the base. -/
theorem readNumeral_digitList (base value zeros : Nat) (flags : Flags) :
    readNumeral base (digitList value base flags ++ List.replicate zeros 0).reverse
      = value % base ^ PRINTF_NTOA_BUFFER_SIZE := by
  rw [digitList]
  split
  · exact readNumeral_lowDigits base PRINTF_NTOA_BUFFER_SIZE value zeros
  · rename_i hnone
    have hvalue : value = 0 := by
      by_contra hne
      exact hnone (by simp [hne])
    rw [readNumeral_reverse, Nat.ofDigits_append_replicate_zero, hvalue, Nat.zero_mod]
    rfl

/-- Without the hash, a number reads back modulo a power of its base, and without its sign
when that does not fit. -/
theorem readInteger_ntoaText {base : Nat} (hpos : 0 < base) (hbase : base ≤ 16) (value : Nat)
    (negative : Bool) (prec width : UInt32) {flags : Flags} (hhash : flags.hash = false) :
    readInteger base (ntoaText value negative base prec width flags)
      = if negative = true ∧ paddedLength (digitsOf value base flags).length prec
            (zeroWidth negative width flags) flags < PRINTF_NTOA_BUFFER_SIZE then
          -((value % base ^ PRINTF_NTOA_BUFFER_SIZE : Nat) : Int)
        else (value % base ^ PRINTF_NTOA_BUFFER_SIZE : Nat) := by
  obtain ⟨front, back, htext⟩ := ntoaText_eq value negative base prec width hhash
  generalize paddedLength (digitsOf value base flags).length prec
    (zeroWidth negative width flags) flags = padded at htext ⊢
  -- The zeros and the digits are one numeral.
  have hdigits : ∀ zeros, List.replicate zeros '0'.toUInt8 ++ (digitsOf value base flags).reverse
      = (digitList value base flags ++ List.replicate zeros 0).reverse.map
          (digitChar flags.uppercase) := by
    intro zeros
    rw [List.reverse_append, List.reverse_replicate, List.map_append, List.map_replicate,
      digitChar_zero, digitsOf_eq, List.map_reverse]
  have hlt : ∀ zeros, ∀ d ∈ (digitList value base flags ++ List.replicate zeros 0).reverse,
      d < base := by
    intro zeros d hd
    rw [List.mem_reverse, List.mem_append] at hd
    rcases hd with hd | hd
    · exact digitList_lt hpos hd
    · rw [List.eq_of_mem_replicate hd]
      exact hpos
  have hskip : ∀ s, readInteger base (spaces front ++ s) = readInteger base s := by
    intro s
    rw [readInteger, dropWhile_spaces, ← readInteger]
  rw [htext, hskip, hdigits]
  by_cases hfits : padded < PRINTF_NTOA_BUFFER_SIZE
  · rw [if_pos hfits, readInteger_sign hbase _ _ _ _ (hlt _), readNumeral_digitList]
    simp [hfits]
  · rw [if_neg hfits, List.nil_append, readInteger_digits hbase _ _ (hlt _), readNumeral_digitList,
      if_neg fun h => hfits h.2]

/-- There is room for a sign in front of the zeros of a conversion. -/
def SignFits (conv : Conversion) : Prop :=
  conv.flags.left = true ∨
    (conv.precision.toNat < PRINTF_NTOA_BUFFER_SIZE ∧
      (conv.flags.precision = true ∨ conv.flags.zeropad = false ∨
        conv.width.toNat ≤ PRINTF_NTOA_BUFFER_SIZE))

/-- The flags of a decimal conversion with a sign. -/
theorem integerFlags_of_isSigned {specifier : UInt8} (h : isSigned specifier = true)
    (flags : Flags) :
    integerFlags specifier flags =
      { flags with hash := false, zeropad := flags.zeropad && !flags.precision } := by
  have hspec : specifier = 'i'.toUInt8 ∨ specifier = 'd'.toUInt8 := by
    simpa [isSigned] using h
  have hbase : baseOf specifier = 10 ∧ specifier ≠ 'X'.toUInt8 := by
    rcases hspec with rfl | rfl
    · decide
    · decide
  rw [integerFlags, if_pos hbase.1, if_neg hbase.2, if_pos h]
  dsimp only
  cases hprec : flags.precision with
  | true => simp
  | false => simp

/-- A number below the largest power that fits leaves room in the buffer. -/
theorem length_digitsOf_lt {value : Nat} (h : value < 10 ^ 31) (flags : Flags) :
    (digitsOf value 10 flags).length < PRINTF_NTOA_BUFFER_SIZE := by
  rw [digitsOf_eq, List.length_map, digitList]
  split
  · have hle := (@length_lowDigits_le_iff 10 PRINTF_NTOA_BUFFER_SIZE 31 (by decide) (by decide)
      (by decide) value).mpr h
    rw [PRINTF_NTOA_BUFFER_SIZE] at hle ⊢
    omega
  · decide

/-- The width that is left for the zeros of a negative number. -/
theorem toNat_zeroWidth (width : UInt32) {flags : Flags} (hleft : flags.left = false)
    (hzero : flags.zeropad = true) : (zeroWidth true width flags).toNat = width.toNat - 1 := by
  rw [zeroWidth, hleft, hzero]
  by_cases hwidth : width = 0
  · simp [hwidth]
  · have hone : (1 : UInt32).toNat = 1 := rfl
    have hne : width.toNat ≠ 0 := fun h => hwidth (UInt32.toNat_inj.mp h)
    have hle : (1 : UInt32) ≤ width := UInt32.le_iff_toNat_le.mpr (by omega)
    simp only [hwidth, Bool.not_false, ne_eq, not_false_eq_true, decide_true, Bool.true_or,
      Bool.and_self, if_true]
    rw [UInt32.toNat_sub_of_le _ _ hle, hone]

/-- The sign of a negative decimal number is written exactly when there is room for it. -/
theorem paddedLength_lt_iff {conv : Conversion} (h : isSigned conv.specifier = true)
    {value : Nat} (hvalue : value < 10 ^ 31) :
    paddedLength (digitsOf value 10 (integerFlags conv.specifier conv.flags)).length
        conv.precision (zeroWidth true conv.width (integerFlags conv.specifier conv.flags))
        (integerFlags conv.specifier conv.flags) < PRINTF_NTOA_BUFFER_SIZE ↔ SignFits conv := by
  have hlen := length_digitsOf_lt hvalue (integerFlags conv.specifier conv.flags)
  generalize (digitsOf value 10 (integerFlags conv.specifier conv.flags)).length = n at hlen ⊢
  rw [paddedLength, SignFits, PRINTF_NTOA_BUFFER_SIZE, integerFlags_of_isSigned h]
  rw [PRINTF_NTOA_BUFFER_SIZE] at hlen
  dsimp only
  cases hleft : conv.flags.left with
  | true => simpa using hlen
  | false =>
    rw [if_neg Bool.false_ne_true]
    by_cases hzero : (conv.flags.zeropad && !conv.flags.precision) = true
    · have hboth : conv.flags.zeropad = true ∧ conv.flags.precision = false := by
        simpa using hzero
      rw [if_pos hzero, toNat_zeroWidth _ rfl hzero]
      simp only [hboth.1, hboth.2, Bool.false_eq_true, Bool.true_eq_false, false_or]
      omega
    · have hone : conv.flags.precision = true ∨ conv.flags.zeropad = false := by
        cases hprec : conv.flags.precision with
        | true => exact Or.inl rfl
        | false =>
          refine Or.inr ?_
          rw [hprec] at hzero
          simpa using hzero
      rw [if_neg hzero]
      constructor
      · intro hlt
        exact Or.inr ⟨by omega, hone.imp_right Or.inl⟩
      · intro hfits
        rcases hfits with hfalse | ⟨hprec, -⟩
        · cases hfalse
        · omega

/-- A signed argument has at most 64 bits. -/
theorem natAbs_integerArg {conv : Conversion} (h : isSigned conv.specifier = true)
    {arg : VaArg} {value : Int} (hv : integerArg conv arg = some value) :
    value.natAbs ≤ 2 ^ 63 := by
  have h32 : ∀ v : Int32, v.toInt.natAbs ≤ 2 ^ 63 := by
    intro v
    have hge := Int32.le_toInt v
    have hlt := Int32.toInt_lt v
    omega
  have h64 : ∀ v : Int64, v.toInt.natAbs ≤ 2 ^ 63 := by
    intro v
    have hge := Int64.le_toInt v
    have hlt := Int64.toInt_lt v
    omega
  rw [integerArg, if_pos h] at hv
  split at hv
  · obtain ⟨v, -, harg⟩ := Option.map_eq_some_iff.mp hv
    cases harg
    exact h64 _
  · split at hv
    · obtain ⟨v, -, harg⟩ := Option.map_eq_some_iff.mp hv
      cases harg
      exact h32 _
    · obtain ⟨v, -, harg⟩ := Option.map_eq_some_iff.mp hv
      cases harg
      exact h32 _

/-- An unsigned argument is not negative. -/
theorem integerArg_nonneg {conv : Conversion} (h : ¬ isSigned conv.specifier = true)
    {arg : VaArg} {value : Int} (hv : integerArg conv arg = some value) :
    0 ≤ value := by
  rw [integerArg, if_neg h] at hv
  split at hv
  · obtain ⟨v, -, harg⟩ := Option.map_eq_some_iff.mp hv
    cases harg
    exact Int.natCast_nonneg _
  · split at hv
    · obtain ⟨v, -, harg⟩ := Option.map_eq_some_iff.mp hv
      cases harg
      exact Int.natCast_nonneg _
    · obtain ⟨v, -, harg⟩ := Option.map_eq_some_iff.mp hv
      cases harg
      exact Int.natCast_nonneg _

/-- The hash does nothing to a decimal conversion. -/
theorem integerFlags_hash {conv : Conversion}
    (h : conv.flags.hash = false ∨ baseOf conv.specifier = 10) :
    (integerFlags conv.specifier conv.flags).hash = false := by
  -- Only the base decides.
  have hkeep : (integerFlags conv.specifier conv.flags).hash
      = if baseOf conv.specifier = 10 then false else conv.flags.hash := by
    simp only [integerFlags, apply_ite Flags.hash, ite_self]
  rw [hkeep]
  split
  · rfl
  · rename_i hbase
    exact h.resolve_right hbase

/-- Reading a number back. The text of an integer conversion, with any flags but the hash,
any width and any precision, is the number again exactly when

- its magnitude has at most 32 digits in its base, and
- it is not negative, or there is room for the sign in front of the zeros. -/
theorem readInteger_integerText_iff {conv : Conversion}
    (hhash : conv.flags.hash = false ∨ baseOf conv.specifier = 10)
    {arg : VaArg} {value : Int} (hv : integerArg conv arg = some value) :
    readInteger (baseOf conv.specifier) (integerText conv value) = value ↔
      value.natAbs < baseOf conv.specifier ^ PRINTF_NTOA_BUFFER_SIZE ∧
        (0 ≤ value ∨ SignFits conv) := by
  have hbase : 0 < baseOf conv.specifier ∧ baseOf conv.specifier ≤ 16 := by
    rw [baseOf]
    split
    · decide
    · split
      · decide
      · split
        · decide
        · decide
  have hpow : 0 < baseOf conv.specifier ^ PRINTF_NTOA_BUFFER_SIZE := Nat.pow_pos hbase.1
  have hread := readInteger_ntoaText hbase.1 hbase.2 value.natAbs (decide (value < 0))
    conv.precision conv.width (integerFlags_hash hhash)
  rw [integerText, hread]
  by_cases hnonneg : 0 ≤ value
  · rw [if_neg (fun h => absurd (of_decide_eq_true h.1) (by omega))]
    have hmod := Nat.mod_lt value.natAbs hpow
    constructor
    · intro heq
      exact ⟨by omega, Or.inl hnonneg⟩
    · intro h
      rw [Nat.mod_eq_of_lt h.1]
      omega
  · -- Only a signed conversion has a negative argument.
    have hsigned : isSigned conv.specifier = true := by
      by_contra hne
      exact hnonneg (integerArg_nonneg hne hv)
    have hten : baseOf conv.specifier = 10 := by
      have hspec : conv.specifier = 'i'.toUInt8 ∨ conv.specifier = 'd'.toUInt8 := by
        simpa [isSigned] using hsigned
      rcases hspec with h | h
      · rw [h]
        decide
      · rw [h]
        decide
    have hbound := natAbs_integerArg hsigned hv
    have hneg : decide (value < 0) = true := decide_eq_true (by omega)
    have hsmall : value.natAbs < 10 ^ PRINTF_NTOA_BUFFER_SIZE := by
      rw [PRINTF_NTOA_BUFFER_SIZE]
      omega
    have hfits := paddedLength_lt_iff hsigned (show value.natAbs < 10 ^ 31 by omega)
    rw [hten, hneg, Nat.mod_eq_of_lt hsmall]
    by_cases hroom : SignFits conv
    · rw [if_pos ⟨rfl, hfits.mpr hroom⟩]
      exact iff_of_true (by omega) ⟨hsmall, Or.inr hroom⟩
    · rw [if_neg fun h => hroom (hfits.mp h.2)]
      refine iff_of_false (by omega) fun h => ?_
      rcases h.2 with h | h
      · exact hnonneg h
      · exact hroom h

/-- `%035d` prints `-5` as 32 digits without the sign, `%032d` with it. -/
theorem readInteger_integerText_wide :
    readInteger 10 (integerText ⟨{ Flags.none with zeropad := true }, 32, 0, 'd'.toUInt8⟩ (-5))
        = -5 ∧
      readInteger 10 (integerText ⟨{ Flags.none with zeropad := true }, 35, 0, 'd'.toUInt8⟩ (-5))
        ≠ -5 := by
  have hfits := @readInteger_integerText_iff
    ⟨{ Flags.none with zeropad := true }, 32, 0, 'd'.toUInt8⟩ (Or.inl rfl)
    (.word (0 - 5)) (-5) (by decide)
  have hwide := @readInteger_integerText_iff
    ⟨{ Flags.none with zeropad := true }, 35, 0, 'd'.toUInt8⟩ (Or.inl rfl)
    (.word (0 - 5)) (-5) (by decide)
  refine ⟨hfits.mpr ⟨by decide, Or.inr (Or.inr (by decide))⟩, fun h => ?_⟩
  rcases (hwide.mp h).2 with h | h | h
  · exact absurd h (by decide)
  · cases h
  · exact absurd h.2 (by decide)

end UpsFirmware.Stm32.Printf
