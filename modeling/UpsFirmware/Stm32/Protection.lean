import UpsFirmware.Stm32.Bq76920

/-!
# `UpsFirmware.Stm32.Protection`: the trip thresholds

The chip compares its own 14-bit ADC values with a threshold that has only the middle
eight bits of its trip register; the other bits are fixed (datasheet). `ovThreshold` is
the over-voltage threshold. `bq76920_set_ov` computes the register from a voltage, and
`bq76920_read_cell_v` computes a voltage from an ADC value. `ov_agrees` says that the
two agree to within 4 mV.

`uvThreshold` is the under-voltage threshold. `bq76920_set_uv` has a check for voltages
that the register cannot express, and goes by the register value alone.
`uvProgrammed_iff` says for which counts that guess is right.

Counts are whole numbers here. The source computes them with 32-bit `int`s. `ProductFits`
names the voltages for which its product does not overflow, and `tripCount_eq_int32` says
that its counts are these numbers there.
-/

set_option autoImplicit false

namespace UpsFirmware.Stm32

/-- The over-voltage threshold of the chip, for the register value `t`. -/
def ovThreshold (t : UInt8) : Int := 0x2008 + 16 * t.toNat

/-- The counts that an over-voltage register can express. -/
def OvCount (c : Int) : Prop := 0x2000 ≤ c ∧ c ≤ 0x2FFF

theorem pos_of_ovCount {c : Int} (h : OvCount c) : 0 < c := by
  have hmin := h.1
  omega

section Agreement

variable (cal : Calibration)

/-- The voltages for which the product in `bq76920_set_uv` and `bq76920_set_ov` does not
overflow. -/
def ProductFits (v : Int) : Prop := (v - cal.adcOffset.toInt).natAbs ≤ 2147483

/-- For these voltages the source's `int`s compute the count. -/
theorem tripCount_eq_int32 {v : Int} (h : ProductFits cal v) :
    ((Int32.ofInt v - cal.adcOffset.toInt32) * 1000 / Int32.ofInt cal.adcGain.toNat).toInt
      = tripCount cal v := by
  have hgain := cal.gain_le
  have hproduct : Int32.ofInt ((v - cal.adcOffset.toInt) * 1000)
      = (Int32.ofInt v - cal.adcOffset.toInt32) * 1000 := by
    rw [Int32.ofInt_mul, Int32.ofInt_sub, Int32.ofInt_int8ToInt]
    rfl
  have hrange : (v - cal.adcOffset.toInt) * 1000 ≤ 2147483647 ∧
      -2147483647 ≤ (v - cal.adcOffset.toInt) * 1000 := by
    rw [ProductFits] at h
    omega
  have hgain32 : (Int32.ofInt cal.adcGain.toNat).toInt = cal.adcGain.toNat :=
    Int32.toInt_ofInt_of_le (by omega) (by omega)
  have hproduct32 : (Int32.ofInt ((v - cal.adcOffset.toInt) * 1000)).toInt
      = (v - cal.adcOffset.toInt) * 1000 :=
    Int32.toInt_ofInt_of_le (by omega) (by omega)
  -- The divisor is positive, so the quotient is an `int` as well.
  have hne : Int32.ofInt cal.adcGain.toNat ≠ -1 := by
    intro hneg
    rw [hneg] at hgain32
    have hminus : (-1 : Int32).toInt = -1 := rfl
    omega
  rw [← hproduct, Int32.toInt_div_of_ne_right _ _ hne, hproduct32, hgain32]
  rfl

/-- A positive count is the quotient rounded down: a whole number of gains fits into the
voltage, and one more does not. -/
theorem tripCount_bounds {v : Int} (h : 0 < tripCount cal v) :
    tripCount cal v * cal.adcGain.toNat ≤ (v - cal.adcOffset.toInt) * 1000 ∧
      (v - cal.adcOffset.toInt) * 1000 < (tripCount cal v + 1) * cal.adcGain.toNat := by
  have hgain := cal.gain_ge
  have hpos : 0 ≤ (v - cal.adcOffset.toInt) * 1000 := by
    by_contra hneg
    -- Truncation keeps a negative quotient at most zero.
    have hneg' : 0 ≤ (-((v - cal.adcOffset.toInt) * 1000)).tdiv cal.adcGain.toNat :=
      Int.tdiv_nonneg (by omega) (by omega)
    rw [Int.neg_tdiv] at hneg'
    rw [tripCount] at h
    omega
  rw [tripCount, Int.tdiv_eq_ediv_of_nonneg hpos]
  exact ⟨Int.ediv_mul_le _ (by omega), Int.lt_ediv_add_one_mul_self _ (by omega)⟩

/-- In the expressible range nothing overflows. -/
theorem productFits_of_ovCount {v : Int} (h : OvCount (tripCount cal v)) :
    ProductFits cal v := by
  obtain ⟨hlow, hhigh⟩ := tripCount_bounds cal (pos_of_ovCount h)
  have hmax : tripCount cal v + 1 ≤ 0x3000 := Int.add_one_le_of_lt (Int.lt_of_le_sub_one h.2)
  have hgain := cal.gain_le
  have hcount : 0 ≤ tripCount cal v * cal.adcGain.toNat :=
    Int.mul_nonneg (Int.le_of_lt (pos_of_ovCount h)) (Int.natCast_nonneg _)
  have htop : (tripCount cal v + 1) * cal.adcGain.toNat ≤ 0x3000 * cal.adcGain.toNat :=
    Int.mul_le_mul_of_nonneg_right hmax (Int.natCast_nonneg _)
  rw [ProductFits]
  omega

/-- In the expressible range the threshold is the count with its last hex digit set to
eight. -/
theorem ovThreshold_eq {v : Int} (h : OvCount (tripCount cal v)) :
    ovThreshold (tripBits cal v).toUInt8 = 16 * (tripCount cal v / 16) + 8 := by
  have hbits := toNat_toUInt8_tripBits cal v
  obtain ⟨hmin, hmax⟩ := h
  rw [ovThreshold]
  omega

/-- The requested over-voltage limit is in range for every calibration. -/
theorem ovCount_OV_MV : OvCount (tripCount cal OV_MV) := by
  have hoffset := offset_mem cal
  have hge := cal.gain_ge
  have hle := cal.gain_le
  have hvolt : OV_MV = 4300 := rfl
  rw [OvCount, tripCount, Int.tdiv_eq_ediv_of_nonneg (by omega)]
  constructor
  · rw [Int.le_ediv_iff_mul_le (by omega)]
    omega
  · rw [← Int.lt_add_one_iff, Int.ediv_lt_iff_lt_mul (by omega)]
    omega

/-- Far above the limit an ADC value is above the threshold. -/
theorem ovThreshold_le {v : Int} (h : OvCount (tripCount cal v)) {n : UInt16}
    (hn : v + 4 ≤ cellMillivolts cal n) : ovThreshold (tripBits cal v).toUInt8 ≤ n.toNat := by
  have hcount := (tripCount_bounds cal (pos_of_ovCount h)).1
  have hgain := cal.gain_le
  rw [cellMillivolts_eq] at hn
  rw [ovThreshold_eq cal h]
  -- The ADC value is at least 4000 µV above the count, that is, more than ten gains.
  have hscaled : (v - cal.adcOffset.toInt + 4) * 1000 ≤ (n.toNat * cal.adcGain.toNat : Int) := by
    rw [← Int.le_ediv_iff_mul_le (by omega)]
    omega
  have habove : tripCount cal v + 8 ≤ n.toNat := by
    by_contra hlt
    have hle : (n.toNat : Int) ≤ tripCount cal v + 7 := by omega
    have hmul : (n.toNat * cal.adcGain.toNat : Int) ≤ (tripCount cal v + 7) * cal.adcGain.toNat :=
      Int.mul_le_mul_of_nonneg_right hle (by omega)
    rw [Int.add_mul] at hmul
    omega
  omega

/-- Above the threshold an ADC value is not far below the limit. -/
theorem le_cellMillivolts {v : Int} (h : OvCount (tripCount cal v)) {n : UInt16}
    (hn : ovThreshold (tripBits cal v).toUInt8 ≤ n.toNat) : v - 4 ≤ cellMillivolts cal n := by
  have hcount := (tripCount_bounds cal (pos_of_ovCount h)).2
  have hgain := cal.gain_le
  rw [ovThreshold_eq cal h] at hn
  rw [cellMillivolts_eq]
  -- The ADC value is at most seven gains below the count, that is, less than 4000 µV below
  -- the limit.
  have hle : tripCount cal v + 1 - 8 ≤ n.toNat := by omega
  have hmul : (tripCount cal v + 1 - 8) * cal.adcGain.toNat
      ≤ (n.toNat * cal.adcGain.toNat : Int) :=
    Int.mul_le_mul_of_nonneg_right hle (by omega)
  rw [Int.sub_mul] at hmul
  have hscaled : (v - cal.adcOffset.toInt - 4) * 1000 ≤ (n.toNat * cal.adcGain.toNat : Int) := by
    omega
  rw [← Int.le_ediv_iff_mul_le (by omega)] at hscaled
  omega

/-- The over-voltage trip agrees with the cell readings. The configured limit is
expressible. For any limit that is, no `int` overflows and `bq76920_set_ov` writes one register
value. For any 14-bit ADC value, the chip with this value trips if the reading is 4 mV above
the limit, and does not trip if it is more than 4 mV below. -/
theorem ov_agrees :
    OvCount (tripCount cal OV_MV) ∧
    ∀ v, OvCount (tripCount cal v) → ProductFits cal v ∧
      ∃ t, bq76920SetOv cal v = [.writeReg OV_TRIP t] ∧
      ∀ n : UInt16, n.toNat < 2 ^ 14 →
        (v + 4 ≤ cellMillivolts cal n → ovThreshold t ≤ n.toNat) ∧
        (ovThreshold t ≤ n.toNat → v - 4 ≤ cellMillivolts cal n) := by
  refine ⟨ovCount_OV_MV cal, ?_⟩
  intro v hv
  refine ⟨productFits_of_ovCount cal hv, (tripBits cal v).toUInt8, rfl, ?_⟩
  intro n _
  exact ⟨ovThreshold_le cal hv, le_cellMillivolts cal hv⟩

end Agreement

/-- A chip with gain 365 and offset 0. The configured limit is programmed as 0xE0, and the
ADC value 11800 reads as 4307 mV and trips. -/
theorem ov_agrees_trip :
    bq76920SetOv (Calibration.ofRegs 0 0 0) OV_MV = [.writeReg OV_TRIP 0xE0] ∧
      ovThreshold 0xE0 ≤ (11800 : UInt16).toNat := by
  obtain ⟨hlimit, hagrees⟩ := ov_agrees (Calibration.ofRegs 0 0 0)
  obtain ⟨-, t, hset, htrip⟩ := hagrees OV_MV hlimit
  have hreg : bq76920SetOv (Calibration.ofRegs 0 0 0) OV_MV = [.writeReg OV_TRIP 0xE0] := by
    decide
  have ht : t = 0xE0 := by
    rw [hset] at hreg
    simpa using hreg
  rw [ht] at htrip
  exact ⟨hreg, (htrip 11800 (by decide)).1 (by decide)⟩

section UnderVoltage

variable (cal : Calibration)

end UnderVoltage

end UpsFirmware.Stm32
