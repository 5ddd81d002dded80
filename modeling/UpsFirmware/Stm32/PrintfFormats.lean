import UpsFirmware.Stm32.PrintfText

/-!
# `UpsFirmware.Stm32.PrintfFormats`: formats that are written down

A `Directive` is a conversion as one writes it: flags, a width, a precision, a length and
a specifier, where a width or a precision may be a number or a `*` with its argument. Its
fields say what makes it readable, namely that a width has no leading zero, which would be
a flag, and that the specifier is not a character of another field.

`evaluate_spell` is the round trip. The formatter reads a directive that is spelled out as
the conversion that is meant, takes the arguments of its stars, and goes on behind it.
`text_spellAll` is the same for a whole format of literal characters and directives.
-/

set_option autoImplicit false

namespace UpsFirmware.Stm32.Printf

open Lib

/-! ### Numbers in a format -/

/-- A number in decimal. -/
def decimal (n : UInt32) : List UInt8 :=
  (lowDigits 10 PRINTF_NTOA_BUFFER_SIZE n.toNat).reverse.map (digitChar false)

theorem isDigit_digitChar {d : Nat} (h : d < 10) : isDigit (digitChar false d) = true := by
  have hall : ∀ d < 10, isDigit (digitChar false d) = true := by decide
  exact hall d h

theorem toNat_digit {d : Nat} (h : d < 10) :
    (digitChar false d - '0'.toUInt8).toUInt32 = UInt32.ofNat d := by
  have hall : ∀ d < 10, (digitChar false d - '0'.toUInt8).toUInt32 = UInt32.ofNat d := by decide
  exact hall d h

/-- `_atoi` reads digits up to another character, modulo `2 ^ 32`. -/
theorem atoiLoop_map (value : Nat) {digits : List Nat} (h : ∀ d ∈ digits, d < 10) {ch : UInt8}
    (hch : isDigit ch = false) (rest : List UInt8) :
    atoiLoop (UInt32.ofNat value) (digits.map (digitChar false) ++ ch :: rest)
      = (UInt32.ofNat (digits.foldl (fun value digit => value * 10 + digit) value),
          ch :: rest) := by
  induction digits generalizing value with
  | nil =>
    rw [List.map_nil, List.nil_append, atoiLoop, hch]
    rfl
  | cons d digits ih =>
    have hd : d < 10 := h d List.mem_cons_self
    have hnext : UInt32.ofNat value * 10 + UInt32.ofNat d = UInt32.ofNat (value * 10 + d) := by
      rw [UInt32.ofNat_add, UInt32.ofNat_mul]
      rfl
    rw [List.map_cons, List.cons_append, atoiLoop, isDigit_digitChar hd, if_pos rfl,
      toNat_digit hd, hnext, List.foldl_cons]
    exact ih _ fun e he => h e (List.mem_cons_of_mem d he)

/-- A number that is written down is read as itself. -/
theorem atoi_decimal (n : UInt32) {ch : UInt8} (hch : isDigit ch = false) (rest : List UInt8) :
    atoi (decimal n ++ ch :: rest) = (n, ch :: rest) := by
  have hsmall : n.toNat < 10 ^ PRINTF_NTOA_BUFFER_SIZE :=
    Nat.lt_trans n.toNat_lt (by decide)
  have hread := readNumeral_lowDigits 10 PRINTF_NTOA_BUFFER_SIZE n.toNat 0
  rw [List.replicate_zero, List.append_nil, Nat.mod_eq_of_lt hsmall] at hread
  have hdigits : ∀ d ∈ (lowDigits 10 PRINTF_NTOA_BUFFER_SIZE n.toNat).reverse, d < 10 :=
    fun d hd => lowDigits_lt (by decide) (List.mem_reverse.mp hd)
  have hloop := atoiLoop_map 0 hdigits hch rest
  have hvalue : (lowDigits 10 PRINTF_NTOA_BUFFER_SIZE n.toNat).reverse.foldl
      (fun value digit => value * 10 + digit) 0 = n.toNat := hread
  rw [hvalue, UInt32.ofNat_toNat] at hloop
  exact hloop

/-! ### Directives -/

/-- A flag. -/
inductive FlagChar where
  | zero
  | minus
  | plus
  | space
  | hash
deriving DecidableEq

def FlagChar.char : FlagChar → UInt8
  | .zero => '0'.toUInt8
  | .minus => '-'.toUInt8
  | .plus => '+'.toUInt8
  | .space => ' '.toUInt8
  | .hash => '#'.toUInt8

/-- A flag among others. -/
def Flags.add (flags : Flags) : FlagChar → Flags
  | .zero => { flags with zeropad := true }
  | .minus => { flags with left := true }
  | .plus => { flags with plus := true }
  | .space => { flags with space := true }
  | .hash => { flags with hash := true }

/-- A width or a precision: nothing, a number, or a `*` with the argument for it. -/
inductive Count where
  | absent
  | number (n : UInt32)
  | star (arg : UInt32)
deriving DecidableEq

def Count.spell : Count → List UInt8
  | .absent => []
  | .number n => decimal n
  | .star _ => ['*'.toUInt8]

/-- The argument of a `*`. -/
def Count.args : Count → List VaArg
  | .star arg => [.word arg]
  | _ => []

/-- A length field. -/
inductive LengthField where
  | absent
  | l
  | ll
  | h
  | hh
  | t
  | j
  | z
deriving DecidableEq

def LengthField.spell : LengthField → List UInt8
  | .absent => []
  | .l => ['l'.toUInt8]
  | .ll => ['l'.toUInt8, 'l'.toUInt8]
  | .h => ['h'.toUInt8]
  | .hh => ['h'.toUInt8, 'h'.toUInt8]
  | .t => ['t'.toUInt8]
  | .j => ['j'.toUInt8]
  | .z => ['z'.toUInt8]

def Flags.addLength (flags : Flags) : LengthField → Flags
  | .absent => flags
  | .l => { flags with long := true }
  | .ll => { flags with long := true, longLong := true }
  | .h => { flags with short := true }
  | .hh => { flags with short := true, char := true }
  | .t => { flags with long := true }
  | .j => { flags with longLong := true }
  | .z => { flags with long := true }

def isFlag (ch : UInt8) : Bool :=
  ch = '0'.toUInt8 || ch = '-'.toUInt8 || ch = '+'.toUInt8 || ch = ' '.toUInt8 || ch = '#'.toUInt8

def isLength (ch : UInt8) : Bool :=
  ch = 'l'.toUInt8 || ch = 'h'.toUInt8 || ch = 't'.toUInt8 || ch = 'j'.toUInt8 || ch = 'z'.toUInt8

/-- A conversion as one writes it. -/
structure Directive where
  flags : List FlagChar
  width : Count
  precision : Option Count
  length : LengthField
  specifier : UInt8
  width_ne : width ≠ .number 0
  not_flag : isFlag specifier = false
  not_digit : isDigit specifier = false
  not_star : specifier ≠ '*'.toUInt8
  not_point : specifier ≠ '.'.toUInt8
  not_length : isLength specifier = false

namespace Directive

variable (d : Directive)

/-- The precision field. -/
def spellPrecision : List UInt8 :=
  match d.precision with
  | none => []
  | some count => '.'.toUInt8 :: count.spell

/-- The directive behind its `%`. -/
def spell : List UInt8 :=
  d.flags.map FlagChar.char ++ (d.width.spell ++ (d.spellPrecision ++
    (d.length.spell ++ [d.specifier])))

/-- The arguments of its stars. -/
def stars : List VaArg := d.width.args ++ (d.precision.map Count.args).getD []

/-- The width that is meant, and the flags with it. A negative argument means `-`. -/
def widthMeant (flags : Flags) : Flags × UInt32 :=
  match d.width with
  | .absent => (flags, 0)
  | .number n => (flags, n)
  | .star arg => if arg.toInt32 < 0 then ({ flags with left := true }, 0 - arg) else (flags, arg)

/-- The precision that is meant. A negative argument means 0. -/
def precisionMeant : UInt32 :=
  match d.precision with
  | some (.number n) => n
  | some (.star arg) => if 0 < arg.toInt32 then arg else 0
  | _ => 0

/-- The conversion that is meant. -/
def conversion : Conversion :=
  let width := d.widthMeant (d.flags.foldl Flags.add Flags.none)
  let flags := if d.precision.isSome then { width.1 with precision := true } else width.1
  ⟨flags.addLength d.length, width.2, d.precisionMeant, d.specifier⟩

end Directive

/-! ### Reading the fields -/

theorem evaluateFlags_spell (fs : List FlagChar) (flags : Flags) {ch : UInt8}
    (hch : isFlag ch = false) (rest : List UInt8) :
    evaluateFlags flags (fs.map FlagChar.char ++ ch :: rest)
      = (fs.foldl Flags.add flags, ch :: rest) := by
  induction fs generalizing flags with
  | nil =>
    simp only [isFlag, Bool.or_eq_false_iff, decide_eq_false_iff_not] at hch
    obtain ⟨⟨⟨⟨hzero, hminus⟩, hplus⟩, hspace⟩, hhash⟩ := hch
    rw [List.map_nil, List.nil_append, evaluateFlags, if_neg hzero, if_neg hminus, if_neg hplus,
      if_neg hspace, if_neg hhash]
    rfl
  | cons f fs ih =>
    have hstep := ih (flags.add f)
    cases f with
    | zero => exact hstep
    | minus => exact hstep
    | plus => exact hstep
    | space => exact hstep
    | hash => exact hstep

/-- The first digit of a number that is not zero is not a flag. -/
theorem decimal_head {n : UInt32} (hn : n ≠ 0) :
    ∃ ch s, decimal n = ch :: s ∧ isDigit ch = true ∧ isFlag ch = false := by
  have hsmall : n.toNat < 10 ^ PRINTF_NTOA_BUFFER_SIZE :=
    Nat.lt_trans n.toNat_lt (by decide)
  have hnat : n.toNat ≠ 0 := fun h => hn (UInt32.toNat_inj.mp h)
  have hlast := getLast_lowDigits (by decide) hnat hsmall
  cases hrev : (lowDigits 10 PRINTF_NTOA_BUFFER_SIZE n.toNat).reverse with
  | nil =>
    rw [List.reverse_eq_nil_iff, PRINTF_NTOA_BUFFER_SIZE, lowDigits_succ] at hrev
    cases hrev
  | cons d ds =>
    have hd : d < 10 := by
      have hmem : d ∈ (lowDigits 10 PRINTF_NTOA_BUFFER_SIZE n.toNat).reverse := by
        rw [hrev]
        exact List.mem_cons_self
      exact lowDigits_lt (by decide) (List.mem_reverse.mp hmem)
    have hzero : d ≠ 0 := by
      rintro rfl
      rw [← List.head?_reverse, hrev] at hlast
      exact hlast rfl
    have hall : ∀ d < 10, d ≠ 0 → isFlag (digitChar false d) = false := by decide
    exact ⟨digitChar false d, ds.map (digitChar false), by rw [decimal, hrev, List.map_cons],
      isDigit_digitChar hd, hall d hd hzero⟩

/-- A width is read, whatever character that is neither a digit nor a star stands behind
it. -/
theorem evaluateWidth_spell (d : Directive) (flags : Flags) {ch : UInt8}
    (hdigit : isDigit ch = false) (hstar : ch ≠ '*'.toUInt8) (rest : List UInt8)
    (va : List VaArg) :
    evaluateWidth flags (d.width.spell ++ ch :: rest) (d.width.args ++ va)
      = some ((d.widthMeant flags).1, (d.widthMeant flags).2, ch :: rest, va) := by
  have hne := d.width_ne
  rw [Directive.widthMeant]
  cases hwidth : d.width with
  | absent =>
    show evaluateWidth flags (ch :: rest) va = _
    rw [evaluateWidth, hdigit, if_neg Bool.false_ne_true, if_neg hstar]
  | number n =>
    rw [hwidth] at hne
    have hzero : n ≠ 0 := fun h => hne (congrArg Count.number h)
    obtain ⟨ch', s, hspell, hdigit', -⟩ := decimal_head hzero
    have hread := atoi_decimal n hdigit rest
    show evaluateWidth flags (decimal n ++ ch :: rest) va = _
    rw [hspell, List.cons_append] at hread ⊢
    rw [evaluateWidth, hdigit', if_pos rfl, hread]
  | star arg =>
    show evaluateWidth flags ('*'.toUInt8 :: ch :: rest) (.word arg :: va) = _
    rw [evaluateWidth, if_neg (by decide), if_pos rfl]
    show some (if arg.toInt32 < 0 then _ else _) = _
    by_cases hneg : arg.toInt32 < 0
    · simp [hneg]
    · simp [hneg]

/-- A precision is read, whatever character behind it cannot belong to it. -/
theorem evaluatePrecision_spell (d : Directive) (flags : Flags) {ch : UInt8}
    (hdigit : isDigit ch = false) (hstar : ch ≠ '*'.toUInt8) (hpoint : ch ≠ '.'.toUInt8)
    (rest : List UInt8) (va : List VaArg) :
    evaluatePrecision flags (d.spellPrecision ++ ch :: rest)
        ((d.precision.map Count.args).getD [] ++ va)
      = some (if d.precision.isSome then { flags with precision := true } else flags,
          d.precisionMeant, ch :: rest, va) := by
  rw [Directive.spellPrecision, Directive.precisionMeant]
  cases d.precision with
  | none =>
    show evaluatePrecision flags (ch :: rest) va = _
    rw [evaluatePrecision.eq_def]
    dsimp only
    rw [if_neg hpoint]
    rfl
  | some count =>
    cases count with
    | absent =>
      show evaluatePrecision flags ('.'.toUInt8 :: ch :: rest) va = _
      rw [evaluatePrecision, if_pos rfl]
      dsimp only
      rw [hdigit, if_neg Bool.false_ne_true, if_neg hstar]
      rfl
    | number n =>
      have hread := atoi_decimal n hdigit rest
      have hhead : ∃ ch' s, decimal n = ch' :: s ∧ isDigit ch' = true := by
        by_cases hn : n = 0
        · rw [hn]
          exact ⟨'0'.toUInt8, [], by decide, by decide⟩
        · obtain ⟨ch', s, hspell, hdigit', -⟩ := decimal_head hn
          exact ⟨ch', s, hspell, hdigit'⟩
      obtain ⟨ch', s, hspell, hdigit'⟩ := hhead
      show evaluatePrecision flags ('.'.toUInt8 :: (decimal n ++ ch :: rest)) va = _
      rw [hspell, List.cons_append] at hread ⊢
      rw [evaluatePrecision, if_pos rfl]
      dsimp only
      rw [hdigit', if_pos rfl, hread]
      rfl
    | star arg =>
      show evaluatePrecision flags ('.'.toUInt8 :: '*'.toUInt8 :: ch :: rest) (.word arg :: va)
        = _
      rw [evaluatePrecision, if_pos rfl]
      rfl

/-- A length is read in front of a character that is no length. -/
theorem evaluateLength_spell (length : LengthField) (flags : Flags) {ch : UInt8}
    (hch : isLength ch = false) (rest : List UInt8) :
    evaluateLength flags (length.spell ++ ch :: rest)
      = some (flags.addLength length, ch :: rest) := by
  simp only [isLength, Bool.or_eq_false_iff, decide_eq_false_iff_not] at hch
  obtain ⟨⟨⟨⟨hl, hh⟩, ht⟩, hj⟩, hz⟩ := hch
  cases length with
  | absent =>
    show evaluateLength flags (ch :: rest) = _
    rw [evaluateLength.eq_def]
    dsimp only
    rw [if_neg hl, if_neg hh, if_neg ht, if_neg hj, if_neg hz]
    rfl
  | l =>
    show evaluateLength flags ('l'.toUInt8 :: ch :: rest) = _
    rw [evaluateLength, if_pos rfl, if_neg hl]
    rfl
  | ll => rfl
  | h =>
    show evaluateLength flags ('h'.toUInt8 :: ch :: rest) = _
    rw [evaluateLength, if_neg (by decide), if_pos rfl, if_neg hh]
    rfl
  | hh => rfl
  | t => rfl
  | j => rfl
  | z => rfl

/-! ### The round trip -/

/-- The first character of a length field or of the specifier behind it. -/
theorem length_head (d : Directive) (rest : List UInt8) :
    ∃ ch s, d.length.spell ++ d.specifier :: rest = ch :: s ∧ isFlag ch = false ∧
      isDigit ch = false ∧ ch ≠ '*'.toUInt8 ∧ ch ≠ '.'.toUInt8 := by
  have hl : isFlag 'l'.toUInt8 = false ∧ isDigit 'l'.toUInt8 = false ∧
      'l'.toUInt8 ≠ '*'.toUInt8 ∧ 'l'.toUInt8 ≠ '.'.toUInt8 := by decide
  have hh : isFlag 'h'.toUInt8 = false ∧ isDigit 'h'.toUInt8 = false ∧
      'h'.toUInt8 ≠ '*'.toUInt8 ∧ 'h'.toUInt8 ≠ '.'.toUInt8 := by decide
  cases d.length with
  | absent => exact ⟨_, _, rfl, d.not_flag, d.not_digit, d.not_star, d.not_point⟩
  | l => exact ⟨_, _, rfl, hl⟩
  | ll => exact ⟨_, _, rfl, hl⟩
  | h => exact ⟨_, _, rfl, hh⟩
  | hh => exact ⟨_, _, rfl, hh⟩
  | t => exact ⟨_, _, rfl, by decide⟩
  | j => exact ⟨_, _, rfl, by decide⟩
  | z => exact ⟨_, _, rfl, by decide⟩

/-- The first character of a precision or of what stands behind it. -/
theorem precision_head (d : Directive) (rest : List UInt8) :
    ∃ ch s, d.spellPrecision ++ (d.length.spell ++ d.specifier :: rest) = ch :: s ∧
      isFlag ch = false ∧ isDigit ch = false ∧ ch ≠ '*'.toUInt8 := by
  rw [Directive.spellPrecision]
  cases d.precision with
  | none =>
    obtain ⟨ch, s, hspell, hflag, hdigit, hstar, -⟩ := length_head d rest
    exact ⟨ch, s, hspell, hflag, hdigit, hstar⟩
  | some count => exact ⟨_, _, rfl, by decide⟩

/-- The first character of a width or of what stands behind it. -/
theorem width_head (d : Directive) (rest : List UInt8) :
    ∃ ch s, d.width.spell ++ (d.spellPrecision ++ (d.length.spell ++ d.specifier :: rest))
      = ch :: s ∧ isFlag ch = false := by
  have hne := d.width_ne
  cases hwidth : d.width with
  | absent =>
    obtain ⟨ch, s, hspell, hflag, -⟩ := precision_head d rest
    exact ⟨ch, s, hspell, hflag⟩
  | number n =>
    rw [hwidth] at hne
    obtain ⟨ch, s, hspell, -, hflag⟩ := decimal_head fun h => hne (congrArg Count.number h)
    refine ⟨ch, s ++ (d.spellPrecision ++ (d.length.spell ++ d.specifier :: rest)), ?_, hflag⟩
    show decimal n ++ _ = _
    rw [hspell, List.cons_append]
  | star arg => exact ⟨_, _, rfl, by decide⟩

/-- The round trip. A directive that is spelled out is read as the conversion that is
meant; the arguments of its stars are taken, and the format goes on behind it. -/
theorem evaluate_spell (d : Directive) (rest : List UInt8) (va : List VaArg) :
    evaluate (d.spell ++ rest) (d.stars ++ va) = some (d.conversion, rest, va) := by
  obtain ⟨wch, ws, hw, hwflag⟩ := width_head d rest
  obtain ⟨pch, ps, hp, -, hpdigit, hpstar⟩ := precision_head d rest
  obtain ⟨lch, ls, hl, -, hldigit, hlstar, hlpoint⟩ := length_head d rest
  have hsplit : d.spell ++ rest
      = d.flags.map FlagChar.char ++ (d.width.spell ++ (d.spellPrecision ++
          (d.length.spell ++ d.specifier :: rest))) := by
    simp [Directive.spell]
  have hflags := evaluateFlags_spell d.flags Flags.none hwflag ws
  have hwidth := evaluateWidth_spell d (d.flags.foldl Flags.add Flags.none) hpdigit hpstar ps
    ((d.precision.map Count.args).getD [] ++ va)
  have hprecision := evaluatePrecision_spell d
    (d.widthMeant (d.flags.foldl Flags.add Flags.none)).1 hldigit hlstar hlpoint ls va
  have hlength := evaluateLength_spell d.length
    (if d.precision.isSome then
      { (d.widthMeant (d.flags.foldl Flags.add Flags.none)).1 with precision := true }
    else (d.widthMeant (d.flags.foldl Flags.add Flags.none)).1) d.not_length rest
  rw [← hw] at hflags
  rw [← hp] at hwidth
  rw [← hl] at hprecision
  rw [evaluate, Directive.stars, List.append_assoc, hsplit, hflags, hwidth, Option.bind_some,
    hprecision, Option.bind_some, hlength, Option.bind_some]
  rfl

/-! ### Whole formats -/

/-- A piece of a format: a character that is copied, or a directive with the arguments of
its specifier. -/
inductive Piece where
  | lit (ch : UInt8) (ne_zero : ch ≠ 0) (ne_percent : ch ≠ '%'.toUInt8)
  | conv (d : Directive) (args : List VaArg)

def Piece.spell : Piece → List UInt8
  | .lit ch _ _ => [ch]
  | .conv d _ => '%'.toUInt8 :: d.spell

/-- The arguments of a piece, those of its stars first. -/
def Piece.allArgs : Piece → List VaArg
  | .lit _ _ _ => []
  | .conv d args => d.stars ++ args

/-- A format that is spelled out, without its terminator. -/
def spellAll (pieces : List Piece) : List UInt8 := pieces.flatMap Piece.spell

/-- The arguments of a format. -/
def argsAll (pieces : List Piece) : List VaArg := pieces.flatMap Piece.allArgs

/-- Taking an argument does not depend on those behind it. -/
theorem vaArg_append {α : Type} {get : VaArg → Option α} {args va' : List VaArg} {value : α}
    (h : vaArg get args = some (value, va')) (va : List VaArg) :
    vaArg get (args ++ va) = some (value, va' ++ va) := by
  cases args with
  | nil => cases h
  | cons arg args =>
    obtain ⟨value', hget, heq⟩ := Option.map_eq_some_iff.mp h
    cases heq
    rw [List.cons_append, vaArg, hget]
    rfl

section

variable (floatText : Conversion → UInt64 → List UInt8)

/-- A conversion takes its arguments and leaves the others. -/
theorem convertText_append {conv : Conversion} {args va' : List VaArg} {t : List UInt8}
    (h : convertText floatText conv args = some (t, va')) (va : List VaArg) :
    convertText floatText conv (args ++ va) = some (t, va' ++ va) := by
  rw [convertText] at h ⊢
  split at h
  · obtain ⟨arg, hargs, heq⟩ := Option.map_eq_some_iff.mp h
    cases heq
    rw [if_pos ‹_›, vaArg_append hargs, Option.map_some]
  · rw [if_neg ‹_›]
    split at h
    · obtain ⟨arg, hargs, heq⟩ := Option.map_eq_some_iff.mp h
      cases heq
      rw [if_pos ‹_›, vaDouble, vaArg_append hargs, Option.map_some]
    · rw [if_neg ‹_›]
      split at h
      · obtain ⟨arg, hargs, heq⟩ := Option.map_eq_some_iff.mp h
        cases heq
        rw [if_pos ‹_›, vaWord, vaArg_append hargs, Option.map_some]
      · rw [if_neg ‹_›]
        split at h
        · obtain ⟨arg, hargs, heq⟩ := Option.bind_eq_some_iff.mp h
          obtain ⟨text, htext, heq⟩ := Option.map_eq_some_iff.mp heq
          cases heq
          rw [if_pos ‹_›, vaString, vaArg_append hargs, Option.bind_some, htext, Option.map_some]
        · rw [if_neg ‹_›]
          split at h
          · obtain ⟨arg, hargs, heq⟩ := Option.map_eq_some_iff.mp h
            cases heq
            rw [if_pos ‹_›, vaPointer, vaArg_append hargs, Option.map_some]
          · cases h
            rw [if_neg ‹_›]

/-- The text of a piece. `none` is a directive whose arguments do not fit it. -/
def Piece.text : Piece → Option (List UInt8)
  | .lit ch _ _ => some [ch]
  | .conv d args =>
    (convertText floatText d.conversion args).bind fun r => if r.2 = [] then some r.1 else none

/-- The texts of some pieces. -/
def textAll : List Piece → Option (List UInt8)
  | [] => some []
  | p :: pieces => (p.text floatText).bind fun t => (textAll pieces).map (t ++ ·)

/-- One piece in front of a format. -/
theorem text_piece {p : Piece} {t : List UInt8} (h : p.text floatText = some t)
    (fmt : List UInt8) (va : List VaArg) :
    text floatText (p.spell ++ fmt) (p.allArgs ++ va) = (text floatText fmt va).map (t ++ ·) := by
  cases p with
  | lit ch hzero hpercent =>
    cases h
    exact text_cons floatText hzero hpercent fmt va
  | conv d args =>
    obtain ⟨r, hconvert, hr⟩ := Option.bind_eq_some_iff.mp h
    split at hr
    · rename_i hnil
      cases hr
      have hconvert' : convertText floatText d.conversion args = some (r.1, []) := by
        rw [hconvert, ← hnil]
      have hnext := convertText_append floatText hconvert' va
      show text floatText ('%'.toUInt8 :: (d.spell ++ fmt)) (d.stars ++ args ++ va) = _
      rw [text_percent, List.append_assoc, evaluate_spell, Option.bind_some, hnext]
      rfl
    · cases hr

/-- A whole format in front of another. -/
theorem text_spellAll_append {pieces : List Piece} {t : List UInt8}
    (h : textAll floatText pieces = some t) (fmt : List UInt8) (va : List VaArg) :
    text floatText (spellAll pieces ++ fmt) (argsAll pieces ++ va)
      = (text floatText fmt va).map (t ++ ·) := by
  induction pieces generalizing t with
  | nil =>
    cases h
    show text floatText fmt va = _
    simp
  | cons p pieces ih =>
    obtain ⟨front, hfront, hrest⟩ := Option.bind_eq_some_iff.mp h
    obtain ⟨back, hback, heq⟩ := Option.map_eq_some_iff.mp hrest
    cases heq
    show text floatText (p.spell ++ spellAll pieces ++ fmt) (p.allArgs ++ argsAll pieces ++ va)
      = _
    rw [List.append_assoc, List.append_assoc, text_piece floatText hfront, ih hback,
      Option.map_map]
    refine congrArg (Option.map · _) (funext fun s => ?_)
    rw [Function.comp_apply, List.append_assoc]

/-- Formats mean what they say. A format that is spelled out prints the texts of its
pieces one after the other, whatever lies behind its terminator and whatever arguments
are left. -/
theorem text_spellAll {pieces : List Piece} {t : List UInt8}
    (h : textAll floatText pieces = some t) (behind : List UInt8) (va : List VaArg) :
    text floatText (spellAll pieces ++ 0 :: behind) (argsAll pieces ++ va) = some t := by
  rw [text_spellAll_append floatText h, text_zero, Option.map_some, List.append_nil]

/-- An unfinished conversion. When a format ends in front of a specifier, its terminator is
taken for one. It is printed as a character, and the formatter goes on with the memory
behind it. -/
theorem text_unfinished {pieces : List Piece} {t : List UInt8}
    (h : textAll floatText pieces = some t) {d : Directive} (hd : d.specifier = 0)
    (behind : List UInt8) (va : List VaArg) :
    text floatText (spellAll pieces ++ '%'.toUInt8 :: (d.spell ++ behind))
        (argsAll pieces ++ (d.stars ++ va))
      = (text floatText behind va).map (t ++ 0 :: ·) := by
  have hconv : convertText floatText d.conversion va = some ([0], va) := by
    have hspec : d.conversion.specifier = 0 := hd
    rw [convertText, hspec]
    rfl
  rw [text_spellAll_append floatText h, text_percent, evaluate_spell, Option.bind_some, hconv,
    Option.bind_some, Option.map_map]
  rfl

end

/-- `%d`. -/
def Directive.decimal : Directive :=
  ⟨[], .absent, none, .absent, 'd'.toUInt8, by decide, by decide, by decide, by decide,
    by decide, by decide⟩

/-- `%-8.3lx`. -/
def Directive.hexLong : Directive :=
  ⟨[.minus], .number 8, some (.number 3), .l, 'x'.toUInt8, by decide, by decide, by decide,
    by decide, by decide, by decide⟩

/-- `%5` and the end of the format. -/
def Directive.cut : Directive :=
  ⟨[], .number 5, none, .absent, 0, by decide, by decide, by decide, by decide, by decide,
    by decide⟩

theorem text_spellAll_hexLong :
    text (fun _ _ => []) (spellAll [.conv .decimal [.word 7], .lit 32 (by decide) (by decide),
        .conv .hexLong [.word 10]] ++ 0 :: [37, 115])
      (argsAll [.conv .decimal [.word 7], .lit 32 (by decide) (by decide),
        .conv .hexLong [.word 10]] ++ [.word 1])
      = some [55, 32, 97, 32, 32, 32, 32, 32, 32, 32] :=
  text_spellAll (fun _ _ => []) (by decide) [37, 115] [.word 1]

theorem text_unfinished_cut :
    text (fun _ _ => []) (spellAll [.conv .decimal [.word 7]] ++
        '%'.toUInt8 :: (Directive.cut.spell ++ [120, 0]))
      (argsAll [.conv .decimal [.word 7]] ++ (Directive.cut.stars ++ []))
      = some [55, 0, 120] :=
  text_unfinished (fun _ _ => []) (t := [55]) (by decide) (d := .cut) rfl [120, 0] []

end UpsFirmware.Stm32.Printf
