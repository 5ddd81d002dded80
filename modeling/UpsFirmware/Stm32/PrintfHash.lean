import UpsFirmware.Stm32.PrintfNumbers

/-!
# `UpsFirmware.Stm32.PrintfHash`: numbers with a prefix

With the hash flag, the prefix of the base goes in front of a number: `0x`, `0X`, `0b` or
`0`. When the number is as long as its width, `_ntoa_format` takes characters back to make
room for the prefix. This is meant for leading zeros, but it does not look whether they
are any. `keptLength` says how many characters are left, and `readPrefixed_integerText_iff`
when the text is still the number. `readPrefixed_hash_width` is the plainest case in which
it is not.
-/

set_option autoImplicit false

namespace UpsFirmware.Stm32.Printf

open Lib

/-! ### Reading a prefix -/

/-- The number behind the letter of its base, if there is one. -/
def skipLetter (base : Nat) : List UInt8 → List UInt8
  | zero :: letter :: s =>
    if zero = '0'.toUInt8 ∧
        (base = 16 ∧ (letter = 'x'.toUInt8 ∨ letter = 'X'.toUInt8) ∨
          base = 2 ∧ letter = 'b'.toUInt8) then s
    else zero :: letter :: s
  | s => s

/-- The number that a text without a sign stands for, behind its prefix if it has one. -/
def readPrefixed (base : Nat) (s : List UInt8) : Nat :=
  readDigits base 0 (skipLetter base (s.dropWhile (· = ' '.toUInt8)))

/-! ### The text -/

/-- The number of characters of a padded number that are left to be put out. -/
def keptLength (padded base : Nat) (prec width : UInt32) (flags : Flags) : Nat :=
  if flags.precision = false ∧ padded ≠ 0 ∧ (padded = prec.toNat ∨ padded = width.toNat) then
    if padded ≠ 1 ∧ base = 16 then padded - 2 else padded - 1
  else padded

theorem takeBack_eq (buf : List UInt8) (base : Nat) (prec width : UInt32) (flags : Flags) :
    takeBack buf base prec width flags
      = buf.take (keptLength buf.length base prec width flags) := by
  rw [takeBack, keptLength]
  by_cases hback : flags.precision = false ∧ buf.length ≠ 0 ∧
      (buf.length = prec.toNat ∨ buf.length = width.toNat)
  · rw [if_pos hback, if_pos (by simpa using hback), List.dropLast_eq_take, List.length_take]
    by_cases htwo : buf.length ≠ 1 ∧ base = 16
    · rw [if_pos htwo, if_pos (by simp; omega), List.dropLast_eq_take, List.take_take,
        List.length_take]
      congr 1
      omega
    · rw [if_neg htwo, if_neg (by simp; omega)]
  · rw [if_neg hback, if_neg (by simpa using hback), List.take_length]

theorem keptLength_le (padded base : Nat) (prec width : UInt32) (flags : Flags) :
    keptLength padded base prec width flags ≤ padded := by
  rw [keptLength]
  split
  · split
    · omega
    · omega
  · exact Nat.le_refl padded

/-- The letter of a base, or nothing. -/
def letterText (base : Nat) (flags : Flags) : List UInt8 :=
  if base = 16 then [if flags.uppercase then 'X'.toUInt8 else 'x'.toUInt8]
  else if base = 2 then ['b'.toUInt8]
  else []

theorem pushLetter_eq (buf : List UInt8) (base : Nat) (flags : Flags) :
    pushLetter buf base flags
      = if buf.length < PRINTF_NTOA_BUFFER_SIZE then buf ++ letterText base flags else buf := by
  rw [pushLetter, letterText]
  by_cases hhex : base = 16
  · cases hupper : flags.uppercase with
    | true => simp [hhex, push]
    | false => simp [hhex, push]
  · by_cases hbin : base = 2
    · simp [hbin, push]
    · simp [hhex, hbin]

/-- The prefix, as far as there is room for it. -/
def prefixText (kept base : Nat) (flags : Flags) : List UInt8 :=
  if kept + (letterText base flags).length < PRINTF_NTOA_BUFFER_SIZE then
    '0'.toUInt8 :: letterText base flags
  else if kept < PRINTF_NTOA_BUFFER_SIZE then letterText base flags
  else []

theorem handleHash_eq (buf : List UInt8) (base : Nat) (prec width : UInt32) {flags : Flags}
    (hhash : flags.hash = true) :
    handleHash buf base prec width flags
      = takeBack buf base prec width flags
        ++ (prefixText (takeBack buf base prec width flags).length base flags).reverse := by
  rw [handleHash, if_pos hhash, pushLetter_eq, prefixText]
  generalize takeBack buf base prec width flags = kept
  have hone : (letterText base flags).length ≤ 1 ∧
      (letterText base flags).reverse = letterText base flags := by
    rw [letterText]
    split
    · exact ⟨Nat.le_refl 1, rfl⟩
    · split
      · exact ⟨Nat.le_refl 1, rfl⟩
      · exact ⟨Nat.zero_le 1, rfl⟩
  by_cases hfits : kept.length < PRINTF_NTOA_BUFFER_SIZE
  · rw [if_pos hfits, push, List.length_append]
    split
    · rw [List.reverse_cons, hone.2, List.append_assoc]
    · rw [hone.2]
  · rw [if_neg hfits, push, if_neg hfits, if_neg (by omega), if_neg hfits, List.reverse_nil,
      List.append_nil]

/-- With the hash, the text of an unsigned number is spaces, its prefix, what is kept of its
zeros and its digits, and spaces. -/
theorem ntoaText_hash {value : Nat} (hvalue : value ≠ 0) (base : Nat) (prec width : UInt32)
    {flags : Flags} (hhash : flags.hash = true) (hplus : flags.plus = false)
    (hspace : flags.space = false) :
    ∃ front back padded kept, padded = paddedLength (digitsOf value base flags).length prec width
        flags ∧
      kept = keptLength padded base prec width flags ∧
      ntoaText value false base prec width flags
        = spaces front ++ (prefixText kept base flags ++
          (((digitsOf value base flags ++ List.replicate
            (padded - (digitsOf value base flags).length) '0'.toUInt8).take kept).reverse
              ++ spaces back)) := by
  have hflags : hashFlags value flags = flags := if_neg hvalue
  have hwidth : zeroWidth false width flags = width := by
    rw [zeroWidth, hplus, hspace]
    simp
  have hsign : ∀ buf, pushSign buf false flags = buf := by
    intro buf
    rw [pushSign, hplus, hspace]
    simp
  have hle := le_paddedLength (digitsOf value base flags).length prec width flags
  rw [ntoaText, hflags, formatNumber, hwidth, hsign, handleHash_eq _ _ _ _ hhash, takeBack_eq,
    padLeadingZeros_eq]
  generalize paddedLength (digitsOf value base flags).length prec width flags = padded at hle ⊢
  generalize digitsOf value base flags = digits at hle ⊢
  have hlen := length_append_zeros hle
  have hkept : ((digits ++ List.replicate (padded - digits.length) '0'.toUInt8).take
      (keptLength padded base prec width flags)).length
        = keptLength padded base prec width flags := by
    rw [List.length_take, hlen]
    exact Nat.min_eq_left (keptLength_le padded base prec width flags)
  rw [hlen, hkept]
  obtain ⟨front, back, houtput⟩ := outRevText_eq
    ((digits ++ List.replicate (padded - digits.length) '0'.toUInt8).take
      (keptLength padded base prec width flags)
        ++ (prefixText (keptLength padded base prec width flags) base flags).reverse)
    width flags
  refine ⟨front, back, padded, keptLength padded base prec width flags, rfl, rfl, ?_⟩
  rw [houtput, List.reverse_append, List.reverse_reverse, List.append_assoc]

/-! ### Reading the text back -/

/-- The bases that have a prefix. -/
def HasPrefix (base : Nat) : Prop := base = 16 ∨ base = 8 ∨ base = 2

theorem HasPrefix.le_sixteen {base : Nat} (h : HasPrefix base) : base ≤ 16 := by
  rcases h with rfl | rfl | rfl
  · decide
  · decide
  · decide

theorem HasPrefix.one_lt {base : Nat} (h : HasPrefix base) : 1 < base := by
  rcases h with rfl | rfl | rfl
  · decide
  · decide
  · decide

theorem HasPrefix.pos {base : Nat} (h : HasPrefix base) : 0 < base :=
  Nat.zero_lt_of_lt h.one_lt

/-- A letter that is none of the base is not skipped. -/
theorem skipLetter_of_not {base : Nat} {letter : UInt8}
    (h : ¬(base = 16 ∧ (letter = 'x'.toUInt8 ∨ letter = 'X'.toUInt8) ∨
      base = 2 ∧ letter = 'b'.toUInt8)) (zero : UInt8) (s : List UInt8) :
    skipLetter base (zero :: letter :: s) = zero :: letter :: s := by
  rw [skipLetter]
  exact if_neg fun hand => h hand.2

/-- A digit is no letter of a base. -/
theorem skipLetter_digit {base d : Nat} (hd : d < base) (uppercase : Bool) (zero : UInt8)
    (s : List UInt8) :
    skipLetter base (zero :: digitChar uppercase d :: s)
      = zero :: digitChar uppercase d :: s := by
  have hhex : ∀ uppercase : Bool, ∀ d < 16, ¬(digitChar uppercase d = 'x'.toUInt8 ∨
      digitChar uppercase d = 'X'.toUInt8) := by decide
  have hbin : ∀ uppercase : Bool, ∀ d < 2, digitChar uppercase d ≠ 'b'.toUInt8 := by decide
  refine skipLetter_of_not (fun h => ?_) zero s
  rcases h with ⟨rfl, hletter⟩ | ⟨rfl, hletter⟩
  · exact hhex uppercase d hd hletter
  · exact hbin uppercase d hd hletter

/-- A space is no letter of a base. -/
theorem skipLetter_space (base : Nat) (zero : UInt8) (s : List UInt8) :
    skipLetter base (zero :: ' '.toUInt8 :: s) = zero :: ' '.toUInt8 :: s := by
  refine skipLetter_of_not (fun h => ?_) zero s
  rcases h with ⟨-, hletter⟩ | ⟨-, hletter⟩
  · exact absurd hletter (by decide)
  · exact absurd hletter (by decide)

/-- Digits alone are read as the numeral. -/
theorem readDigits_skipLetter {base : Nat} (hbase : HasPrefix base) (uppercase : Bool) (n : Nat)
    {digits : List Nat} (h : ∀ d ∈ digits, d < base) :
    readDigits base 0 (skipLetter base (digits.map (digitChar uppercase) ++ spaces n))
      = readNumeral base digits := by
  have hskip : skipLetter base (digits.map (digitChar uppercase) ++ spaces n)
      = digits.map (digitChar uppercase) ++ spaces n := by
    match digits, n, h with
    | [], 0, _ => rfl
    | [], 1, _ => rfl
    | [], n + 2, _ => exact skipLetter_space base _ _
    | [d], 0, _ => rfl
    | [d], n + 1, _ => exact skipLetter_space base _ _
    | d :: e :: digits, n, h =>
      exact skipLetter_digit (h e (List.mem_cons_of_mem d List.mem_cons_self)) uppercase _ _
  rw [hskip, readDigits_map hbase.le_sixteen uppercase 0 n h]
  rfl

/-- The same behind spaces. -/
theorem readPrefixed_digits {base : Nat} (hbase : HasPrefix base) (uppercase : Bool) (n : Nat)
    {digits : List Nat} (h : ∀ d ∈ digits, d < base) :
    readPrefixed base (digits.map (digitChar uppercase) ++ spaces n)
      = readNumeral base digits := by
  cases digits with
  | nil =>
    have hskip := dropWhile_spaces n []
    rw [List.append_nil] at hskip
    rw [List.map_nil, List.nil_append, readPrefixed, hskip]
    rfl
  | cons d digits =>
    have hd := digitChar_plain uppercase (Nat.lt_of_lt_of_le (h d List.mem_cons_self)
      hbase.le_sixteen)
    have hread := readDigits_skipLetter hbase uppercase n h
    rw [List.map_cons, List.cons_append] at hread ⊢
    rw [readPrefixed, List.dropWhile_cons_of_neg (by simpa using hd.1), hread]

/-- The letter of a base is not a digit of it. -/
theorem letterText_eq {base : Nat} (hbase : HasPrefix base) (height : base ≠ 8) (flags : Flags) :
    ∃ letter, letterText base flags = [letter] ∧ letter ≠ ' '.toUInt8 ∧ letter ≠ '0'.toUInt8 ∧
      (base = 16 ∧ (letter = 'x'.toUInt8 ∨ letter = 'X'.toUInt8) ∨
        base = 2 ∧ letter = 'b'.toUInt8) ∧ ∀ s, readDigits base 0 (letter :: s) = 0 := by
  rcases hbase with rfl | rfl | rfl
  · cases hupper : flags.uppercase with
    | true =>
      refine ⟨'X'.toUInt8, ?_, by decide, by decide, Or.inl ⟨rfl, Or.inr rfl⟩, fun _ => rfl⟩
      rw [letterText, if_pos rfl, hupper]
      rfl
    | false =>
      refine ⟨'x'.toUInt8, ?_, by decide, by decide, Or.inl ⟨rfl, Or.inl rfl⟩, fun _ => rfl⟩
      rw [letterText, if_pos rfl, hupper]
      rfl
  · exact absurd rfl height
  · exact ⟨'b'.toUInt8, rfl, by decide, by decide, Or.inr ⟨rfl, rfl⟩, fun _ => rfl⟩

/-- A number behind its whole prefix is read, and behind half of the prefix it is not. -/
theorem readPrefixed_prefixText {base : Nat} (hbase : HasPrefix base) (flags : Flags)
    {kept : Nat} (hkept : kept ≤ PRINTF_NTOA_BUFFER_SIZE) (n : Nat) {digits : List Nat}
    (h : ∀ d ∈ digits, d < base) :
    readPrefixed base
        (prefixText kept base flags ++ (digits.map (digitChar flags.uppercase) ++ spaces n))
      = if base ≠ 8 ∧ kept = 31 then 0 else readNumeral base digits := by
  have hplain := readPrefixed_digits hbase flags.uppercase n h
  rw [PRINTF_NTOA_BUFFER_SIZE] at hkept
  rw [prefixText, PRINTF_NTOA_BUFFER_SIZE]
  by_cases height : base = 8
  · -- The prefix is one more zero.
    have hnone : letterText base flags = [] := by rw [height]; rfl
    have hdigits : ∀ d ∈ 0 :: digits, d < base := by
      intro d hd
      rcases List.mem_cons.mp hd with rfl | hd
      · exact hbase.pos
      · exact h d hd
    have hmore := readPrefixed_digits hbase flags.uppercase n hdigits
    rw [List.map_cons, digitChar_zero] at hmore
    rw [hnone, if_neg (show ¬(base ≠ 8 ∧ kept = 31) from fun hand => hand.1 height)]
    split
    · show readPrefixed base ('0'.toUInt8 :: (digits.map _ ++ spaces n)) = _
      rw [← List.cons_append, hmore, readNumeral, List.foldl_cons, Nat.zero_mul]
      rfl
    · split
      · exact hplain
      · exact hplain
  · obtain ⟨letter, hletter, hspace, hdigit, hbases, hstop⟩ := letterText_eq hbase height flags
    rw [hletter, List.length_singleton]
    split
    · -- The whole prefix is skipped.
      rw [if_neg (show ¬(base ≠ 8 ∧ kept = 31) by omega), readPrefixed,
        List.cons_append, List.dropWhile_cons_of_neg (by decide), List.singleton_append,
        skipLetter, if_pos ⟨rfl, hbases⟩, readDigits_map hbase.le_sixteen flags.uppercase 0 n h]
      rfl
    · split
      · -- The letter alone ends the number.
        rw [if_pos (show base ≠ 8 ∧ kept = 31 by omega), readPrefixed, List.singleton_append,
          List.dropWhile_cons_of_neg (by simpa using hspace)]
        have hskip : ∀ s, skipLetter base (letter :: s) = letter :: s := by
          intro s
          cases s with
          | nil => rfl
          | cons c s =>
            rw [skipLetter]
            exact if_neg fun hand => hdigit hand.1
        rw [hskip, hstop]
      · rw [if_neg (show ¬(base ≠ 8 ∧ kept = 31) by omega)]
        exact hplain

theorem paddedLength_le {n : Nat} (hn : n ≤ PRINTF_NTOA_BUFFER_SIZE) (prec width : UInt32)
    (flags : Flags) : paddedLength n prec width flags ≤ PRINTF_NTOA_BUFFER_SIZE := by
  rw [PRINTF_NTOA_BUFFER_SIZE] at hn
  rw [paddedLength, PRINTF_NTOA_BUFFER_SIZE]
  split
  · exact hn
  · split
    · omega
    · omega

/-- With the hash, a number reads back modulo a power of its base. -/
theorem readPrefixed_ntoaText {base : Nat} (hbase : HasPrefix base) {value : Nat}
    (hvalue : value ≠ 0) (prec width : UInt32) {flags : Flags} (hhash : flags.hash = true)
    (hplus : flags.plus = false) (hspace : flags.space = false) {kept : Nat}
    (hkept : kept = keptLength (paddedLength (digitsOf value base flags).length prec width flags)
      base prec width flags) :
    readPrefixed base (ntoaText value false base prec width flags)
      = if base ≠ 8 ∧ kept = 31 then 0 else value % base ^ kept := by
  obtain ⟨front, back, padded, kept', hpadded, hkept', htext⟩ :=
    ntoaText_hash hvalue base prec width hhash hplus hspace
  rw [← hpadded] at hkept
  rw [hkept', ← hkept] at htext
  have hpos := hbase.pos
  have hlen : (digitsOf value base flags).length ≤ PRINTF_NTOA_BUFFER_SIZE := by
    rw [digitsOf_eq, List.length_map, digitList]
    split
    · exact length_lowDigits_le _ _ _
    · exact Nat.zero_le _
  have hfits : kept ≤ PRINTF_NTOA_BUFFER_SIZE := by
    rw [hkept, hpadded]
    exact (keptLength_le _ _ _ _ _).trans (paddedLength_le hlen prec width flags)
  have hlt : ∀ zeros, ∀ d ∈ digitList value base flags ++ List.replicate zeros 0, d < base := by
    intro zeros d hd
    rcases List.mem_append.mp hd with hd | hd
    · exact digitList_lt hpos hd
    · rw [List.eq_of_mem_replicate hd]
      exact hpos
  have hchars : ∀ zeros, ((digitsOf value base flags ++ List.replicate zeros '0'.toUInt8).take
      kept).reverse = ((digitList value base flags ++ List.replicate zeros 0).take
        kept).reverse.map (digitChar flags.uppercase) := by
    intro zeros
    rw [List.map_reverse, List.map_take, List.map_append, List.map_replicate, digitChar_zero,
      digitsOf_eq]
  have hskip : ∀ s, readPrefixed base (spaces front ++ s) = readPrefixed base s := by
    intro s
    rw [readPrefixed, dropWhile_spaces, ← readPrefixed]
  rw [htext, hskip, hchars, readPrefixed_prefixText hbase flags hfits back fun d hd =>
    hlt _ d (List.mem_of_mem_take (List.mem_reverse.mp hd))]
  congr 1
  -- Taking digits back is a remainder.
  rw [readNumeral_reverse, ← Nat.ofDigits_mod_pow_eq_ofDigits_take kept hpos _ (hlt _),
    ← readNumeral_reverse, readNumeral_digitList]
  exact Nat.mod_mod_of_dvd value (Nat.pow_dvd_pow base hfits)

/-! ### Conversions -/

/-- Only decimal numbers have a sign. -/
theorem baseOf_of_isSigned {specifier : UInt8} (h : isSigned specifier = true) :
    baseOf specifier = 10 := by
  have hspec : specifier = 'i'.toUInt8 ∨ specifier = 'd'.toUInt8 := by
    simpa [isSigned] using h
  rcases hspec with rfl | rfl
  · decide
  · decide

/-- The flags of an unsigned conversion in a base that has a prefix. -/
theorem integerFlags_of_base {specifier : UInt8} (h : baseOf specifier ≠ 10) (flags : Flags) :
    integerFlags specifier flags =
      { flags with
        uppercase := flags.uppercase || decide (specifier = 'X'.toUInt8)
        plus := false
        space := false
        zeropad := flags.zeropad && !flags.precision } := by
  have hsigned : isSigned specifier = false := by
    cases hsigned : isSigned specifier with
    | false => rfl
    | true => exact absurd (baseOf_of_isSigned hsigned) h
  rw [integerFlags, if_neg h, hsigned]
  obtain ⟨zeropad, left, plus, space, hash, uppercase, char, short, long, longLong, precision⟩ :=
    flags
  by_cases hupper : specifier = 'X'.toUInt8
  · cases precision with
    | true => simp [hupper]
    | false => simp [hupper]
  · cases precision with
    | true => simp [hupper]
    | false => simp [hupper]

theorem hasPrefix_baseOf {specifier : UInt8} (h : baseOf specifier ≠ 10) :
    HasPrefix (baseOf specifier) := by
  rw [baseOf] at h ⊢
  split
  · exact Or.inl rfl
  · split
    · exact Or.inr (Or.inl rfl)
    · split
      · exact Or.inr (Or.inr rfl)
      · rename_i hhex hoct hbin
        rw [if_neg hhex, if_neg hoct, if_neg hbin] at h
        exact absurd rfl h

/-- The number of characters that a conversion keeps of a number with so many digits. -/
def Conversion.kept (conv : Conversion) (digits : Nat) : Nat :=
  keptLength
    (paddedLength digits conv.precision conv.width (integerFlags conv.specifier conv.flags))
    (baseOf conv.specifier) conv.precision conv.width (integerFlags conv.specifier conv.flags)

/-- No digit is taken back: there is a precision, or the number is not as long as its width,
nor shorter by one character when two are taken back. -/
def HashKeeps (conv : Conversion) (digits : Nat) : Prop :=
  conv.flags.precision = true ∨
    (digits ≠ conv.width.toNat ∧
      ¬(baseOf conv.specifier = 16 ∧ conv.flags.zeropad = true ∧ conv.flags.left = false ∧
        digits + 1 = conv.width.toNat))

/-- Without a precision, only the width takes characters back. -/
theorem keptLength_of_width {padded base : Nat} {prec width : UInt32} {flags : Flags}
    (hprecision : flags.precision = false) (hprec : prec.toNat = 0) (hpos : padded ≠ 0) :
    keptLength padded base prec width flags
      = if padded = width.toNat then if padded ≠ 1 ∧ base = 16 then padded - 2 else padded - 1
        else padded := by
  rw [keptLength, hprec]
  by_cases hwidth : padded = width.toNat
  · rw [if_pos ⟨hprecision, hpos, Or.inr hwidth⟩, if_pos hwidth]
  · rw [if_neg fun h => h.2.2.elim hpos hwidth, if_neg hwidth]

/-- Without a precision, digits are taken back from a number that is as long as its width,
and from one that is shorter by the one zero that is put in front of it. -/
theorem le_keptLength_iff {digits base : Nat} {prec width : UInt32} {flags : Flags}
    (hprecision : flags.precision = false) (hprec : prec.toNat = 0) (hpos : 0 < digits)
    (hfits : digits ≤ PRINTF_NTOA_BUFFER_SIZE)
    (hhex : base = 16 → digits < PRINTF_NTOA_BUFFER_SIZE) :
    digits ≤ keptLength (paddedLength digits prec width flags) base prec width flags ↔
      digits ≠ width.toNat ∧
        ¬(base = 16 ∧ flags.zeropad = true ∧ flags.left = false ∧ digits + 1 = width.toNat) := by
  have hle := le_paddedLength digits prec width flags
  rw [keptLength_of_width hprecision hprec (by omega)]
  rw [PRINTF_NTOA_BUFFER_SIZE] at hfits hhex
  by_cases hzeros : flags.left = false ∧ flags.zeropad = true
  · have hpadded : paddedLength digits prec width flags = max digits (min width.toNat 32) := by
      rw [paddedLength, hzeros.1, if_neg Bool.false_ne_true, if_pos hzeros.2, hprec,
        PRINTF_NTOA_BUFFER_SIZE, Nat.zero_min, Nat.max_zero]
    rw [hpadded]
    simp only [hzeros.1, hzeros.2, true_and]
    by_cases hwidth : max digits (min width.toNat 32) = width.toNat
    · rw [if_pos hwidth]
      split
      · omega
      · omega
    · rw [if_neg hwidth]
      omega
  · -- There are no zeros.
    have hpadded : paddedLength digits prec width flags = digits := by
      rw [paddedLength, hprec, Nat.zero_min, Nat.max_zero]
      split
      · rfl
      · next hleft => exact if_neg fun hzero => hzeros ⟨by simpa using hleft, hzero⟩
    have hnone : ¬(base = 16 ∧ flags.zeropad = true ∧ flags.left = false ∧
        digits + 1 = width.toNat) := fun h => hzeros ⟨h.2.2.1, h.2.1⟩
    rw [hpadded, and_iff_left hnone]
    split
    · split
      · omega
      · omega
    · omega

/-- The digits are kept exactly when none is taken back. -/
theorem le_kept_iff {conv : Conversion} (hbase : baseOf conv.specifier ≠ 10)
    (hprec : conv.flags.precision = false → conv.precision = 0) {digits : Nat}
    (hpos : 0 < digits) (hfits : digits ≤ PRINTF_NTOA_BUFFER_SIZE)
    (hhex : baseOf conv.specifier = 16 → digits < PRINTF_NTOA_BUFFER_SIZE) :
    digits ≤ conv.kept digits ↔ HashKeeps conv digits := by
  have hflags := integerFlags_of_base hbase conv.flags
  have hprecisionFlag : (integerFlags conv.specifier conv.flags).precision
      = conv.flags.precision := by rw [hflags]
  rw [Conversion.kept, HashKeeps]
  cases hprecision : conv.flags.precision with
  | true =>
    -- A precision puts zeros in front, and nothing is taken back.
    rw [hprecision] at hprecisionFlag
    refine iff_of_true ?_ (Or.inl rfl)
    rw [keptLength, if_neg fun h => Bool.noConfusion (h.1.symm.trans hprecisionFlag)]
    exact le_paddedLength _ _ _ _
  | false =>
    rw [hprecision] at hprecisionFlag
    have hzero : conv.precision.toNat = 0 := by
      rw [hprec hprecision]
      rfl
    have hzeropad : (integerFlags conv.specifier conv.flags).zeropad = conv.flags.zeropad := by
      rw [hflags, hprecision]
      exact Bool.and_true _
    have hleft : (integerFlags conv.specifier conv.flags).left = conv.flags.left := by rw [hflags]
    rw [le_keptLength_iff hprecisionFlag hzero hpos hfits hhex, hzeropad, hleft]
    simp

/-- An unsigned argument has at most 64 bits. -/
theorem natAbs_integerArg_lt {conv : Conversion} (h : ¬ isSigned conv.specifier = true)
    {arg : VaArg} {value : Int} (hv : integerArg conv arg = some value) :
    value.natAbs < 2 ^ 64 := by
  rw [integerArg, if_neg h] at hv
  split at hv
  · obtain ⟨v, -, harg⟩ := Option.map_eq_some_iff.mp hv
    cases harg
    exact v.toNat_lt
  · split at hv
    · obtain ⟨v, -, harg⟩ := Option.map_eq_some_iff.mp hv
      cases harg
      exact v.toNat_lt.trans (by decide)
    · obtain ⟨v, -, harg⟩ := Option.map_eq_some_iff.mp hv
      cases harg
      exact (narrowUnsigned _ v).toNat_lt.trans (by decide)

theorem kept_le (conv : Conversion) {digits : Nat} (h : digits ≤ PRINTF_NTOA_BUFFER_SIZE) :
    conv.kept digits ≤ PRINTF_NTOA_BUFFER_SIZE :=
  (keptLength_le _ _ _ _ _).trans (paddedLength_le h _ _ _)

/-- What the text of a conversion with the hash reads as. -/
theorem readPrefixed_integerText {conv : Conversion} (hhash : conv.flags.hash = true)
    (hbase : baseOf conv.specifier ≠ 10) {value : Nat} (hne : value ≠ 0) {kept : Nat}
    (hkept : kept
      = conv.kept (lowDigits (baseOf conv.specifier) PRINTF_NTOA_BUFFER_SIZE value).length) :
    readPrefixed (baseOf conv.specifier) (integerText conv value)
      = if baseOf conv.specifier ≠ 8 ∧ kept = 31 then 0
        else value % baseOf conv.specifier ^ kept := by
  have hflags := integerFlags_of_base hbase conv.flags
  have hlength : (digitsOf value (baseOf conv.specifier)
        (integerFlags conv.specifier conv.flags)).length
      = (lowDigits (baseOf conv.specifier) PRINTF_NTOA_BUFFER_SIZE value).length := by
    rw [digitsOf_eq, List.length_map, digitList, if_pos (by simp [hne])]
  have hnotNegative : ¬ (value : Int) < 0 := by omega
  rw [Conversion.kept, ← hlength] at hkept
  rw [integerText, Int.natAbs_natCast, decide_eq_false hnotNegative]
  exact readPrefixed_ntoaText (hasPrefix_baseOf hbase) hne conv.precision conv.width
    (by rw [hflags]; exact hhash) (by rw [hflags]) (by rw [hflags]) hkept

/-- Reading a number with a prefix back. The text of an integer conversion with the hash, in
a base that has a prefix, is the number again exactly when

- it has at most 32 digits in its base,
- no digit is taken back to make room for the prefix, and
- the prefix is written whole, unless it is the zero of base 8.

`hprec` is what a format without a precision leaves. -/
theorem readPrefixed_integerText_iff {conv : Conversion} (hhash : conv.flags.hash = true)
    (hbase : baseOf conv.specifier ≠ 10)
    (hprec : conv.flags.precision = false → conv.precision = 0) {arg : VaArg} {value : Int}
    (hv : integerArg conv arg = some value) (hne : value ≠ 0) :
    (readPrefixed (baseOf conv.specifier) (integerText conv value) : Int) = value ↔
      value.natAbs < baseOf conv.specifier ^ PRINTF_NTOA_BUFFER_SIZE ∧
        HashKeeps conv ((baseOf conv.specifier).digits value.natAbs).length ∧
        (baseOf conv.specifier = 8 ∨
          conv.kept ((baseOf conv.specifier).digits value.natAbs).length ≠ 31) := by
  have hsigned : ¬ isSigned conv.specifier = true := fun h => hbase (baseOf_of_isSigned h)
  have hlt := natAbs_integerArg_lt hsigned hv
  obtain ⟨value, rfl⟩ := Int.eq_ofNat_of_zero_le (integerArg_nonneg hsigned hv)
  have hvalue : value ≠ 0 := fun h => hne (congrArg Nat.cast h)
  have hone := (hasPrefix_baseOf hbase).one_lt
  have hmod : ∀ k, value % baseOf conv.specifier ^ k = value ↔
      value < baseOf conv.specifier ^ k := fun k =>
    Nat.mod_eq_iff_lt (Nat.pow_pos (Nat.zero_lt_of_lt hone)).ne'
  rw [readPrefixed_integerText hhash hbase hvalue rfl, Int.natAbs_natCast, Nat.cast_inj]
  by_cases hfits : value < baseOf conv.specifier ^ PRINTF_NTOA_BUFFER_SIZE
  · -- All digits are in the buffer.
    rw [lowDigits_eq_digits hone hvalue hfits, and_iff_right hfits]
    have hpos : 0 < ((baseOf conv.specifier).digits value).length :=
      List.length_pos_iff.mpr (Nat.digits_ne_nil_iff_ne_zero.mpr hvalue)
    have hhex : baseOf conv.specifier = 16 →
        ((baseOf conv.specifier).digits value).length < PRINTF_NTOA_BUFFER_SIZE := by
      intro hbase
      have hsixteen : ((baseOf conv.specifier).digits value).length ≤ 16 := by
        rw [Nat.digits_length_le_iff hone, hbase]
        exact hlt
      exact Nat.lt_of_le_of_lt hsixteen (by decide)
    by_cases hcut : baseOf conv.specifier ≠ 8 ∧
        conv.kept ((baseOf conv.specifier).digits value).length = 31
    · rw [if_pos hcut]
      exact iff_of_false (fun h => hvalue h.symm) fun h =>
        h.2.elim hcut.1 fun hwhole => hwhole hcut.2
    · have hwhole : baseOf conv.specifier = 8 ∨
          conv.kept ((baseOf conv.specifier).digits value).length ≠ 31 := by omega
      rw [if_neg hcut, and_iff_left hwhole, hmod, ← Nat.digits_length_le_iff hone]
      exact le_kept_iff hbase hprec hpos ((Nat.digits_length_le_iff hone value).mpr hfits) hhex
  · refine iff_of_false (fun heq => ?_) fun h => hfits h.1
    split at heq
    · exact hvalue heq.symm
    · have hkept := kept_le conv
        (length_lowDigits_le (baseOf conv.specifier) PRINTF_NTOA_BUFFER_SIZE value)
      exact hfits (Nat.lt_of_lt_of_le ((hmod _).mp heq)
        (Nat.pow_le_pow_right (Nat.zero_lt_of_lt hone) hkept))

/-- A hexadecimal number that is as long as its width loses its two highest digits. So does
every number of eight digits under `%#8x`. -/
theorem readPrefixed_hash_width {width : UInt32} {value : Nat} (htwo : 2 ≤ width.toNat)
    (hfits : width.toNat ≤ PRINTF_NTOA_BUFFER_SIZE)
    (hlength : (Nat.digits 16 value).length = width.toNat) :
    readPrefixed 16
        (integerText ⟨{ Flags.none with hash := true }, width, 0, 'x'.toUInt8⟩ value)
      = value % 16 ^ (width.toNat - 2) := by
  have hvalue : value ≠ 0 := by
    rintro rfl
    rw [Nat.digits_zero] at hlength
    rw [← hlength] at htwo
    exact absurd htwo (by decide)
  have hsmall : value < 16 ^ PRINTF_NTOA_BUFFER_SIZE :=
    (Nat.digits_length_le_iff (by decide) value).mp (hlength.trans_le hfits)
  have hlow : (lowDigits 16 PRINTF_NTOA_BUFFER_SIZE value).length = width.toNat := by
    rw [lowDigits_eq_digits (by decide) hvalue hsmall, hlength]
  have hsixteen : baseOf 'x'.toUInt8 = 16 := by decide
  have hbase : baseOf 'x'.toUInt8 ≠ 10 := by decide
  -- There are no zeros, and the two characters in front are digits.
  have hkept : Conversion.kept ⟨{ Flags.none with hash := true }, width, 0, 'x'.toUInt8⟩
      width.toNat = width.toNat - 2 := by
    have hpadded : ∀ flags : Flags, flags.left = false → flags.zeropad = false →
        paddedLength width.toNat 0 width flags = width.toNat := by
      intro flags hleft hzeropad
      rw [paddedLength, hleft, hzeropad]
      simp
    have hflags := integerFlags_of_base hbase { Flags.none with hash := true }
    rw [Conversion.kept, hflags, hpadded _ rfl rfl,
      keptLength_of_width rfl rfl (by omega), if_pos rfl, if_pos ⟨by omega, hsixteen⟩]
  have hread := @readPrefixed_integerText
    ⟨{ Flags.none with hash := true }, width, 0, 'x'.toUInt8⟩ rfl hbase value hvalue _ rfl
  dsimp only at hread
  rw [PRINTF_NTOA_BUFFER_SIZE] at hfits
  rw [hsixteen, hlow, hkept, if_neg (by omega)] at hread
  exact hread

/-- `%#8x` prints all digits of a number that has seven, and not those of one that has
eight. -/
theorem readPrefixed_integerText_eight :
    (readPrefixed 16
        (integerText ⟨{ Flags.none with hash := true }, 8, 0, 'x'.toUInt8⟩ 0x1234567) : Int)
        = 0x1234567 ∧
      (readPrefixed 16
        (integerText ⟨{ Flags.none with hash := true }, 8, 0, 'x'.toUInt8⟩ 0x12345678) : Int)
        ≠ 0x12345678 := by
  have hseven := @readPrefixed_integerText_iff
    ⟨{ Flags.none with hash := true }, 8, 0, 'x'.toUInt8⟩ rfl (by decide) (fun _ => rfl)
    (.word 0x1234567) 0x1234567 (by decide) (by decide)
  have height := @readPrefixed_integerText_iff
    ⟨{ Flags.none with hash := true }, 8, 0, 'x'.toUInt8⟩ rfl (by decide) (fun _ => rfl)
    (.word 0x12345678) 0x12345678 (by decide) (by decide)
  refine ⟨hseven.mpr ⟨by decide, Or.inr (by decide), Or.inr (by decide)⟩, fun h => ?_⟩
  rcases (height.mp h).2.1 with hprecision | hwidth
  · cases hprecision
  · exact hwidth.1 (by decide)

end UpsFirmware.Stm32.Printf
