import UpsFirmware.Rp2040.Effects
import UpsFirmware.Rp2040.Regulators

/-!
# `UpsFirmware.Rp2040.Adc`: sampling the four ADC channels

`class Adc` (`rp2040-app/src/adc.cpp`). The board's four channels are single-ended
(`pl02_rp2040.dts`). `CHAN_VOUT` to `CHAN_IBAT` name the channels 0 to 3. `AdcRead`
is what the kernel gives one call of `Adc::read`: the return value of `adc_read`,
and the value in millivolts that `adc_raw_to_millivolts_dt` leaves when the read
did not fail.

`Adc::read` reports a failure as `-1`, and the four `sample_` functions scale that
value like any other. The scaling is exact, and the conversion to `int`
truncates.
-/

set_option autoImplicit false

namespace UpsFirmware

/-- The environment's side of one `Adc::read`. -/
structure AdcRead where
  err : Int
  valMv : Int

/-- `adc_read` failed. -/
def AdcRead.Failed (r : AdcRead) : Prop := r.err < 0

instance (r : AdcRead) : Decidable r.Failed := inferInstanceAs (Decidable (r.err < 0))

/-- The measured members of `class Adc`. -/
structure Adc where
  vout : Int
  vbat : Int
  iout : Int
  ibat : Int

def NUM_CHAN : Nat := 4

/-! The channels by what they measure. -/

def CHAN_VOUT : Fin 4 := 0
def CHAN_VBAT : Fin 4 := 1
def CHAN_IOUT : Fin 4 := 2
def CHAN_IBAT : Fin 4 := 3

/-- `Adc::check_chan`. -/
def Adc.checkChan (ch : Nat) : Bool × List Effect :=
  if ch > NUM_CHAN then (false, [.printk "Channel out of range!" []]) else (true, [])

/-- `Adc::read`. -/
def Adc.read (reads : Fin 4 → AdcRead) (i : Fin 4) : Int × List Effect :=
  let (ok, fx) := Adc.checkChan i
  -- Both failures return the same sentinel.
  if !ok then (-1, fx)
  else if (reads i).err < 0 then
    (-1, fx ++ [.printk "Could not read (%d)\n" [.int (reads i).err]])
  else ((reads i).valMv, fx)

/-- `read(0) * 5.1666`, as an `int`. -/
def scaleVout (mv : Int) : Int := truncInt (mv * (51666 / 10000))

/-- `read(1) * 14.6612`, as an `int`. -/
def scaleVbat (mv : Int) : Int := truncInt (mv * (146612 / 10000))

/-- `(read(2) / 5e-3) / 20`, as an `int`. -/
def scaleIout (mv : Int) : Int := truncInt (mv / (5 / 1000) / 20)

/-- `(read(3) / 5e-3) / 200`, as an `int`. -/
def scaleIbat (mv : Int) : Int := truncInt (mv / (5 / 1000) / 200)

/-- `Adc::sample_all`. Every member is written. -/
def Adc.sampleAll (reads : Fin 4 → AdcRead) : Adc × List Effect :=
  let r0 := Adc.read reads CHAN_VOUT
  let r1 := Adc.read reads CHAN_VBAT
  let r2 := Adc.read reads CHAN_IOUT
  let r3 := Adc.read reads CHAN_IBAT
  ({ vout := scaleVout r0.1, vbat := scaleVbat r1.1, iout := scaleIout r2.1,
     ibat := scaleIbat r3.1 },
   r0.2 ++ r1.2 ++ r2.2 ++ r3.2)

/-- All four channels are in range. -/
@[simp] theorem Adc.checkChan_fin (i : Fin 4) : Adc.checkChan i = (true, []) :=
  if_neg (Nat.not_lt.mpr (Nat.le_of_lt i.isLt))

/-- `Adc::read` on a channel of the board: the sentinel or the value. -/
theorem Adc.read_fst (reads : Fin 4 → AdcRead) (i : Fin 4) :
    (Adc.read reads i).1 = if (reads i).Failed then -1 else (reads i).valMv := by
  rw [Adc.read, Adc.checkChan_fin]
  by_cases h : (reads i).err < 0
  · simp [AdcRead.Failed, h]
  · simp [AdcRead.Failed, h]

/-- Reading a channel prints at most a console line. -/
theorem Adc.harmless_read (reads : Fin 4 → AdcRead) (i : Fin 4) :
    ∀ e ∈ (Adc.read reads i).2, ∃ err, e = .printk "Could not read (%d)\n" [.int err] := by
  rw [Adc.read, Adc.checkChan_fin]
  by_cases h : (reads i).err < 0
  · simp [h]
  · simp [h]

/-- So does sampling all of them. -/
theorem Adc.printk_of_mem_sampleAll (reads : Fin 4 → AdcRead) :
    ∀ e ∈ (Adc.sampleAll reads).2, ∃ err, e = .printk "Could not read (%d)\n" [.int err] := by
  intro e he
  simp only [Adc.sampleAll, List.mem_append] at he
  rcases he with ((h | h) | h) | h
  · exact Adc.harmless_read reads CHAN_VOUT e h
  · exact Adc.harmless_read reads CHAN_VBAT e h
  · exact Adc.harmless_read reads CHAN_IOUT e h
  · exact Adc.harmless_read reads CHAN_IBAT e h

end UpsFirmware
