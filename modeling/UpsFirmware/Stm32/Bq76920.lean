import Mathlib.Data.Nat.Bitwise
import Mathlib.Tactic.Common

/-!
# `UpsFirmware.Stm32.Bq76920`: the driver of the battery monitor

The driver of the BQ76920 (`stm32-app/bq76920.c`). The chip is reached over I2C one
register at a time. A write is an effect. What a read gives is up to the chip, so a
function that reads takes the registers as they are at each of its reads (`Chip`).

`Calibration` is what `bq76920_init` finds in the chip's calibration registers: a signed
offset and a gain between 365 and 396. The two statics of the driver are set there and
nowhere else. `cellMillivolts` is the conversion of `bq76920_read_cell_v` before its
result is narrowed to 16 bits, and `tripCount` the conversion in the other direction,
which `bq76920_set_ov` and `bq76920_set_uv` share.

C computes with 32-bit `int`s here. A cell reading stays below 2 ^ 25, so no product
overflows, and the model computes with integers. `/` truncates toward zero.
-/

set_option autoImplicit false

namespace UpsFirmware.Stm32

/-! ### Registers (`bq76920.h`) -/

def SYS_STAT : UInt8 := 0x00
def SYS_STAT_OCD : UInt8 := (1 : UInt8) <<< 0
def SYS_STAT_SCD : UInt8 := (1 : UInt8) <<< 1
def SYS_STAT_OV : UInt8 := (1 : UInt8) <<< 2
def SYS_STAT_UV : UInt8 := (1 : UInt8) <<< 3
def SYS_STAT_OVRD_ALERT : UInt8 := (1 : UInt8) <<< 4
def SYS_STAT_DEVICE_XREADY : UInt8 := (1 : UInt8) <<< 5

def CELLBAL1 : UInt8 := 0x01

def SYS_CTRL1 : UInt8 := 0x04
def SYS_CTRL1_SHUT_B : UInt8 := (1 : UInt8) <<< 0
def SYS_CTRL1_SHUT_A : UInt8 := (1 : UInt8) <<< 1
def SYS_CTRL1_ADC_EN : UInt8 := (1 : UInt8) <<< 4

def SYS_CTRL2 : UInt8 := 0x05
def SYS_CTRL2_CHG_ON : UInt8 := (1 : UInt8) <<< 0
def SYS_CTRL2_DSG_ON : UInt8 := (1 : UInt8) <<< 1

def PROTECT1 : UInt8 := 0x06
def PROTECT1_SCD_T1 : UInt8 := (1 : UInt8) <<< 1

def OV_TRIP : UInt8 := 0x09
def UV_TRIP : UInt8 := 0x0A
def CC_CFG : UInt8 := 0x0B
def ADCOFFSET : UInt8 := 0x51
def ADCGAIN1 : UInt8 := 0x50
def ADCGAIN2 : UInt8 := 0x59

def VC1_HI : UInt8 := 0x0C
def VC1_LO : UInt8 := 0x0D

def CELL0 : UInt8 := 0
def CELL1 : UInt8 := 1
def CELL2 : UInt8 := 2
def CELL3 : UInt8 := 4

/-! ### Limits (`bq76920_config.h`), in mV -/

def BAL_V_MV : UInt16 := 4200
def UV_MV : Int := 3200
def OV_MV : Int := 4300

/-! ### The outside -/

/-- The two LEDs of `main.c`. -/
inductive Led where
  | led1
  | led2
deriving DecidableEq, Repr

/-- What the STM32 does to the outside. `writeReg` is `bq76920_write_reg`, and
`uart1Out` a `sprintf` and the `uart1_out` of its text. -/
inductive Effect where
  | writeReg (reg val : UInt8)
  | uart1Out (fmt : String) (args : List Nat)
  | gpioSet (led : Led)
  | gpioClear (led : Led)
  | gpioToggle (led : Led)
  | delay (t : Nat)
deriving DecidableEq

/-- The registers of the chip at one moment. -/
abbrev Regs := UInt8 → UInt8

/-- The registers at the successive reads of a function. -/
abbrev Chip := Nat → Regs

/-- `bq76920_read_reg`. -/
def bq76920ReadReg (regs : Regs) (reg : UInt8) : UInt8 := regs reg

/-! ### Calibration -/

/-- The statics `adc_offset` and `adc_gain`, in mV and µV. -/
structure Calibration where
  adcOffset : Int8
  adcGain : UInt16
  gain_ge : 365 ≤ adcGain.toNat
  gain_le : adcGain.toNat ≤ 396

/-- The gain in the two gain registers. -/
def gainOf (gain1 gain2 : UInt8) : Nat :=
  365 + (((gain1.toNat &&& 0b00001100) <<< 1) ||| ((gain2.toNat &&& 0b11100000) >>> 5))

/-- The gain is 365 and five bits. -/
theorem gainOf_mem (gain1 gain2 : UInt8) :
    365 ≤ gainOf gain1 gain2 ∧ gainOf gain1 gain2 ≤ 396 := by
  have h1 : (gain1.toNat &&& 0b00001100) <<< 1 < 2 ^ 5 := by
    have hand : gain1.toNat &&& 0b00001100 ≤ 0b00001100 := Nat.and_le_right
    rw [Nat.shiftLeft_eq]
    omega
  have h2 : (gain2.toNat &&& 0b11100000) >>> 5 < 2 ^ 5 := by
    have hand : gain2.toNat &&& 0b11100000 ≤ 0b11100000 := Nat.and_le_right
    rw [Nat.shiftRight_eq_div_pow]
    omega
  have hor := Nat.or_lt_two_pow h1 h2
  unfold gainOf
  omega

theorem toNat_gainOf (gain1 gain2 : UInt8) :
    (UInt16.ofNat (gainOf gain1 gain2)).toNat = gainOf gain1 gain2 := by
  have hmem := gainOf_mem gain1 gain2
  rw [UInt16.toNat_ofNat']
  omega

/-- The calibration in the three calibration registers. -/
def Calibration.ofRegs (offset gain1 gain2 : UInt8) : Calibration where
  adcOffset := offset.toInt8
  adcGain := UInt16.ofNat (gainOf gain1 gain2)
  gain_ge := by
    rw [toNat_gainOf]
    exact (gainOf_mem gain1 gain2).1
  gain_le := by
    rw [toNat_gainOf]
    exact (gainOf_mem gain1 gain2).2

section Driver

variable (cal : Calibration)

/-! ### The trip thresholds -/

/-- The ADC count of a voltage. -/
def tripCount (voltageMv : Int) : Int :=
  ((voltageMv - cal.adcOffset.toInt) * 1000).tdiv cal.adcGain.toNat

/-- The bits of a count that go into a trip register. -/
def tripBits (voltageMv : Int) : UInt16 :=
  UInt16.ofInt (tripCount cal voltageMv >>> (4 : Nat)) &&& 0x00FF

/-- `bq76920_set_uv`. -/
def bq76920SetUv (voltageMv : Int) : List Effect :=
  let uvTrip := tripBits cal voltageMv
  -- The masked bits can have rolled over.
  let uvTrip := if uvTrip < 200 then 255 else uvTrip
  [.writeReg UV_TRIP uvTrip.toUInt8]

/-- `bq76920_set_ov`, which has no check for a rollover. -/
def bq76920SetOv (voltageMv : Int) : List Effect :=
  let ovTrip := tripBits cal voltageMv
  [.writeReg OV_TRIP ovTrip.toUInt8]

/-! ### Cell voltages -/

/-- What `bq76920_read_cell_v` computes from an ADC value, in mV. -/
def cellMillivolts (v : UInt16) : Int :=
  ((v.toNat * cal.adcGain.toNat : Int)).tdiv 1000 + cal.adcOffset.toInt

/-- The ADC value of a cell, low byte first. -/
def rawCell (chip : Chip) (cell : UInt8) : UInt16 :=
  let cell := cell * 2
  let v := (bq76920ReadReg (chip 0) (VC1_LO + cell)).toUInt16
  v ||| ((bq76920ReadReg (chip 1) (VC1_HI + cell)).toUInt16 <<< 8)

/-- `bq76920_read_cell_v`. The result is an `int` that is returned as a
`uint16_t`. -/
def bq76920ReadCellV (chip : Chip) (cell : UInt8) : UInt16 :=
  UInt16.ofInt (cellMillivolts cal (rawCell chip cell))

/-- `struct cells`. -/
structure Cells where
  c0 : UInt16
  c1 : UInt16
  c2 : UInt16
  c3 : UInt16
deriving DecidableEq, Repr

/-- The chip as the reads of cell `i` find it: two reads for each cell. -/
def Chip.cellReads (chip : Chip) (i : Nat) : Chip := fun k => chip (2 * i + k)

/-- `bq76920_read_cells_v`. -/
def bq76920ReadCellsV (chip : Chip) : Cells where
  c0 := bq76920ReadCellV cal (chip.cellReads 0) CELL0
  c1 := bq76920ReadCellV cal (chip.cellReads 1) CELL1
  c2 := bq76920ReadCellV cal (chip.cellReads 2) CELL2
  c3 := bq76920ReadCellV cal (chip.cellReads 3) CELL3

/-- `bq76920_balance_cells`: its return value and its write. -/
def bq76920BalanceCells (c : Cells) : UInt8 × List Effect :=
  let bal : UInt8 := 0
  let bal := if c.c0 > BAL_V_MV then 1 <<< CELL0 else bal
  let bal := if c.c1 > BAL_V_MV ∧ c.c1 > c.c0 then 1 <<< CELL1 else bal
  let bal := if c.c2 > BAL_V_MV ∧ c.c2 > c.c1 then 1 <<< CELL2 else bal
  let bal := if c.c3 > BAL_V_MV ∧ c.c3 > c.c2 then 1 <<< CELL3 else bal
  (bal, [.writeReg CELLBAL1 bal])

end Driver

/-! ### Commands -/

/-- `bq76920_output_enable`. -/
def bq76920OutputEnable : List Effect :=
  [.writeReg SYS_CTRL2 (SYS_CTRL2_CHG_ON ||| SYS_CTRL2_DSG_ON)]

/-- `bq76920_clear_faults`. -/
def bq76920ClearFaults : List Effect :=
  [.writeReg SYS_STAT (SYS_STAT_OCD ||| SYS_STAT_SCD ||| SYS_STAT_OV ||| SYS_STAT_UV |||
    SYS_STAT_OVRD_ALERT ||| SYS_STAT_DEVICE_XREADY)]

/-- `bq76920_shutdown`: both writes, in this order. -/
def bq76920Shutdown : List Effect :=
  [.writeReg SYS_CTRL1 SYS_CTRL1_SHUT_B, .writeReg SYS_CTRL1 SYS_CTRL1_SHUT_A]

/-- `bq76920_init`: the calibration it reads, and its writes. -/
def bq76920Init (chip : Chip) : Calibration × List Effect :=
  let cal := Calibration.ofRegs (bq76920ReadReg (chip 0) ADCOFFSET)
    (bq76920ReadReg (chip 1) ADCGAIN1) (bq76920ReadReg (chip 2) ADCGAIN2)
  (cal, bq76920SetUv cal UV_MV ++ bq76920SetOv cal OV_MV ++
    [.writeReg SYS_CTRL1 SYS_CTRL1_ADC_EN, .writeReg CELLBAL1 0x00,
      .writeReg PROTECT1 PROTECT1_SCD_T1])

/-! ### The conversions -/

/-- Narrowing an `int` to a `uint16_t`. -/
theorem toNat_ofInt (x : Int) : ((UInt16.ofInt x).toNat : Int) = x % 65536 := by
  rw [UInt16.ofInt, UInt16.toNat_ofNat']
  omega

/-- The bits of a count that go into a trip register: the second and the third hex digit
from the right. -/
theorem toNat_tripBits (cal : Calibration) (voltageMv : Int) :
    ((tripBits cal voltageMv).toNat : Int) = tripCount cal voltageMv / 16 % 256 := by
  have hmask : (0x00FF : UInt16).toNat = 2 ^ 8 - 1 := rfl
  have hwide := toNat_ofInt (tripCount cal voltageMv >>> (4 : Nat))
  rw [Int.shiftRight_eq_div_pow] at hwide
  rw [tripBits, UInt16.toNat_and, hmask, Nat.and_two_pow_sub_one_eq_mod,
    Int.shiftRight_eq_div_pow]
  omega

/-- They fit into the register. -/
theorem toNat_toUInt8_tripBits (cal : Calibration) (voltageMv : Int) :
    ((tripBits cal voltageMv).toUInt8.toNat : Int) = tripCount cal voltageMv / 16 % 256 := by
  have hbits := toNat_tripBits cal voltageMv
  rw [UInt16.toNat_toUInt8]
  omega

/-- The conversion with Euclidean division, for proofs. -/
theorem cellMillivolts_eq (cal : Calibration) (v : UInt16) :
    cellMillivolts cal v = (v.toNat * cal.adcGain.toNat : Int) / 1000 + cal.adcOffset.toInt := by
  rw [cellMillivolts, Int.tdiv_eq_ediv_of_nonneg]
  exact Int.mul_nonneg (Int.natCast_nonneg _) (Int.natCast_nonneg _)

/-- A signed byte. -/
theorem offset_mem (cal : Calibration) :
    -128 ≤ cal.adcOffset.toInt ∧ cal.adcOffset.toInt ≤ 127 := by
  have hle := cal.adcOffset.le_toInt
  have hlt := cal.adcOffset.toInt_lt
  omega

end UpsFirmware.Stm32
