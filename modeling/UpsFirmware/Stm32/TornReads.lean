import UpsFirmware.Stm32.Balancing

/-!
# `UpsFirmware.Stm32.TornReads`: a cell voltage that changes while it is read

The chip keeps the 14-bit ADC value of a cell in two registers. `bq76920_read_cell_v`
reads the low byte in one I2C transfer and the high byte in a second one, and the chip
can put a new value there between the two. `Replaces` is such a chip, with the moment of
the change as a parameter.

A change between the two reads leaves the old low byte and the new high byte (`mixed`).
`untorn_iff` says for which two values the result is still the voltage of one of them.
-/

set_option autoImplicit false

namespace UpsFirmware.Stm32

/-- An ADC value of the chip. -/
structure AdcValue where
  val : UInt16
  lt : val.toNat < 2 ^ 14

def AdcValue.hi (v : AdcValue) : UInt8 := (v.val >>> 8).toUInt8

def AdcValue.lo (v : AdcValue) : UInt8 := v.val.toUInt8

/-- The registers of a cell hold an ADC value. -/
def Holds (regs : Regs) (cell : Cell) (v : AdcValue) : Prop :=
  regs (VC1_HI + cell.addr * 2) = v.hi ∧ regs (VC1_LO + cell.addr * 2) = v.lo

/-- The chip replaces the value `old` of a cell by `new` in front of read `m`. -/
structure Replaces (chip : Chip) (cell : Cell) (old new : AdcValue) (m : Nat) : Prop where
  before : ∀ k < m, Holds (chip k) cell old
  after : ∀ k, m ≤ k → Holds (chip k) cell new

/-- What `bq76920_read_cell_v` makes of an ADC value. -/
def convert (cal : Calibration) (v : UInt16) : UInt16 := UInt16.ofInt (cellMillivolts cal v)

/-- Whenever the chip replaces `old` by `new`, the reading of the cell is the voltage of
one of the two. -/
def Untorn (cal : Calibration) (cell : Cell) (old new : AdcValue) : Prop :=
  ∀ chip m, Replaces chip cell old new m →
    bq76920ReadCellV cal chip cell.addr = convert cal old.val ∨
      bq76920ReadCellV cal chip cell.addr = convert cal new.val

/-! ### The bytes of an ADC value -/

/-- Two bytes put together. -/
theorem toNat_join (lo hi : UInt8) :
    (lo.toUInt16 ||| (hi.toUInt16 <<< 8)).toNat = hi.toNat * 256 + lo.toNat := by
  have hlo : lo.toNat < 2 ^ 8 := lo.toNat_lt
  have hhi : hi.toNat < 2 ^ 8 := hi.toNat_lt
  have hshift : (hi.toUInt16 <<< 8).toNat = hi.toNat <<< 8 := by
    rw [UInt16.toNat_shiftLeft, UInt8.toNat_toUInt16, Nat.mod_eq_of_lt]
    · rfl
    · show hi.toNat <<< 8 < 2 ^ 16
      rw [Nat.shiftLeft_eq]
      omega
  rw [UInt16.toNat_or, UInt8.toNat_toUInt16, hshift, Nat.or_comm,
    ← Nat.shiftLeft_add_eq_or_of_lt hlo, Nat.shiftLeft_eq]

theorem AdcValue.toNat_hi (v : AdcValue) : v.hi.toNat = v.val.toNat / 256 := by
  have hlt := v.lt
  rw [AdcValue.hi, UInt16.toNat_toUInt8, UInt16.toNat_shiftRight]
  show (v.val.toNat >>> 8) % 256 = v.val.toNat / 256
  rw [Nat.shiftRight_eq_div_pow]
  omega

theorem AdcValue.toNat_lo (v : AdcValue) : v.lo.toNat = v.val.toNat % 256 := by
  rw [AdcValue.lo, UInt16.toNat_toUInt8]

/-- The low byte of `old` and the high byte of `new`. -/
def mixed (old new : AdcValue) : UInt16 := old.lo.toUInt16 ||| (new.hi.toUInt16 <<< 8)

theorem toNat_mixed (old new : AdcValue) :
    (mixed old new).toNat = new.val.toNat / 256 * 256 + old.val.toNat % 256 := by
  rw [mixed, toNat_join, AdcValue.toNat_hi, AdcValue.toNat_lo]

theorem mixed_lt (old new : AdcValue) : (mixed old new).toNat < 2 ^ 14 := by
  have hlt := new.lt
  rw [toNat_mixed]
  omega

/-- The two bytes of one value. -/
theorem mixed_self (v : AdcValue) : mixed v v = v.val := by
  rw [← UInt16.toNat_inj, toNat_mixed]
  exact Nat.div_add_mod' _ _

/-- What the two reads of a cell find. -/
theorem rawCell_eq_mixed {chip : Chip} {cell : Cell} {v w : AdcValue}
    (hlo : Holds (chip 0) cell v) (hhi : Holds (chip 1) cell w) :
    rawCell chip cell.addr = mixed v w := by
  rw [rawCell, mixed, ← hlo.2, ← hhi.1]
  rfl

/-! ### Equal readings -/

section Readings

variable (cal : Calibration)

/-- The scaled ADC value of a 14-bit value is far from where the result wraps. -/
theorem convert_eq_iff {v w : UInt16} (hv : v.toNat < 2 ^ 14) (hw : w.toNat < 2 ^ 14) :
    convert cal v = convert cal w ↔
      v.toNat * cal.adcGain.toNat / 1000 = w.toNat * cal.adcGain.toNat / 1000 := by
  have hoffset := offset_mem cal
  have hvmul : v.toNat * cal.adcGain.toNat ≤ 16383 * 396 :=
    Nat.mul_le_mul (by omega) cal.gain_le
  have hwmul : w.toNat * cal.adcGain.toNat ≤ 16383 * 396 :=
    Nat.mul_le_mul (by omega) cal.gain_le
  have hconv := toNat_ofInt (cellMillivolts cal v)
  have hconw := toNat_ofInt (cellMillivolts cal w)
  rw [cellMillivolts_eq] at hconv hconw
  rw [← UInt16.toNat_inj, convert, convert, cellMillivolts_eq, cellMillivolts_eq]
  omega

/-- Values that differ in the high byte differ by some 93 mV at the least. -/
theorem convert_lt_of_hi_lt {a b l : Nat} (h : a < b) :
    (a * 256 + l) * cal.adcGain.toNat / 1000 < (b * 256 + l) * cal.adcGain.toNat / 1000 := by
  have hgain := cal.gain_ge
  have hle : (a * 256 + l + 256) * cal.adcGain.toNat ≤ (b * 256 + l) * cal.adcGain.toNat :=
    Nat.mul_le_mul_right _ (by omega)
  rw [Nat.add_mul] at hle
  omega

/-- The mixed value reads like the old one only if the high byte is the same. -/
theorem convert_mixed_eq_old_iff (old new : AdcValue) :
    convert cal (mixed old new) = convert cal old.val ↔
      old.val.toNat / 256 = new.val.toNat / 256 := by
  have hold := Nat.div_add_mod' old.val.toNat 256
  rw [convert_eq_iff cal (mixed_lt old new) old.lt, toNat_mixed]
  constructor
  · intro heq
    by_contra hne
    rcases Nat.lt_or_gt_of_ne hne with hlt | hgt
    · have hdiff := convert_lt_of_hi_lt cal (l := old.val.toNat % 256) hlt
      rw [hold] at hdiff
      omega
    · have hdiff := convert_lt_of_hi_lt cal (l := old.val.toNat % 256) hgt
      rw [hold] at hdiff
      omega
  · intro heq
    rw [← heq, hold]

/-- Either the two values have the same high byte, or the new high byte with the old low
byte scales to the same number of millivolts as the new value. -/
def TearsUnseen (old new : AdcValue) : Prop :=
  old.val.toNat / 256 = new.val.toNat / 256 ∨
    (new.val.toNat / 256 * 256 + old.val.toNat % 256) * cal.adcGain.toNat / 1000
      = new.val.toNat * cal.adcGain.toNat / 1000

/-- Before and behind a change, and at a moment between the two reads. -/
theorem read_cases {chip : Chip} {cell : Cell} {old new : AdcValue} {m : Nat}
    (h : Replaces chip cell old new m) :
    bq76920ReadCellV cal chip cell.addr = convert cal old.val ∨
    bq76920ReadCellV cal chip cell.addr = convert cal new.val ∨
    bq76920ReadCellV cal chip cell.addr = convert cal (mixed old new) := by
  match m with
  | 0 =>
    rw [bq76920ReadCellV,
      rawCell_eq_mixed (h.after 0 (Nat.le_refl 0)) (h.after 1 (Nat.zero_le 1)), mixed_self]
    exact Or.inr (Or.inl rfl)
  | 1 =>
    rw [bq76920ReadCellV,
      rawCell_eq_mixed (h.before 0 Nat.zero_lt_one) (h.after 1 (Nat.le_refl 1))]
    exact Or.inr (Or.inr rfl)
  | m + 2 =>
    rw [bq76920ReadCellV, rawCell_eq_mixed (h.before 0 (by omega)) (h.before 1 (by omega)),
      mixed_self]
    exact Or.inl rfl

/-- Registers in which a cell holds a value. -/
def regsOf (cell : Cell) (v : AdcValue) : Regs := fun reg =>
  if reg = VC1_HI + cell.addr * 2 then v.hi else v.lo

theorem holds_regsOf (cell : Cell) (v : AdcValue) : Holds (regsOf cell v) cell v := by
  have hne : VC1_LO + cell.addr * 2 ≠ VC1_HI + cell.addr * 2 := by
    cases cell <;> decide
  exact ⟨if_pos rfl, if_neg hne⟩

/-- A chip that replaces the value between the two reads. -/
def tearing (cell : Cell) (old new : AdcValue) : Chip := fun k =>
  if k < 1 then regsOf cell old else regsOf cell new

theorem replaces_tearing (cell : Cell) (old new : AdcValue) :
    Replaces (tearing cell old new) cell old new 1 where
  before k hk := by
    rw [tearing, if_pos hk]
    exact holds_regsOf cell old
  after k hk := by
    rw [tearing, if_neg (by omega)]
    exact holds_regsOf cell new

/-- The reading of that chip is the mixed one. -/
theorem read_tearing (cell : Cell) (old new : AdcValue) :
    bq76920ReadCellV cal (tearing cell old new) cell.addr = convert cal (mixed old new) := by
  have h := replaces_tearing cell old new
  rw [bq76920ReadCellV,
    rawCell_eq_mixed (h.before 0 Nat.zero_lt_one) (h.after 1 (Nat.le_refl 1))]
  rfl

/-- A reading of a cell is never torn exactly when the mixed value does not read
differently. -/
theorem untorn_iff (cell : Cell) (old new : AdcValue) :
    Untorn cal cell old new ↔ TearsUnseen cal old new := by
  have hmixed : (convert cal (mixed old new) = convert cal old.val ∨
      convert cal (mixed old new) = convert cal new.val) ↔ TearsUnseen cal old new := by
    rw [convert_mixed_eq_old_iff, convert_eq_iff cal (mixed_lt old new) new.lt, toNat_mixed]
    rfl
  rw [← hmixed]
  constructor
  · intro hlaw
    rw [← read_tearing cal cell old new]
    exact hlaw _ 1 (replaces_tearing cell old new)
  · intro hsame chip m hreplaces
    rcases read_cases cal hreplaces with hold | hnew | hmix
    · exact Or.inl hold
    · exact Or.inr hnew
    · rw [hmix]
      exact hsame

/-- At 365 µV a step, 10239 and 10240 both read as 3737 mV. A change from one to the
other between the two reads makes 3830 mV of them. -/
theorem untorn_fails : ¬ ∀ cal cell old new, Untorn cal cell old new := by
  intro hall
  have hread := hall (Calibration.ofRegs 0 0 0) .c0 ⟨10239, by decide⟩ ⟨10240, by decide⟩ _ 1
    (replaces_tearing .c0 ⟨10239, by decide⟩ ⟨10240, by decide⟩)
  exact absurd hread (by decide)

end Readings

end UpsFirmware.Stm32
