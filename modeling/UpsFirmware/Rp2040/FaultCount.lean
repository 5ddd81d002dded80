import UpsFirmware.Lib.Accumulators
import UpsFirmware.Rp2040.Faults

/-!
# `UpsFirmware.Rp2040.FaultCount`: which faults trip, and when

`HwErrors` counts in one counter. `observationsAt` is what that counter should be in
terms of the inputs alone: the asserted readings since the counter started again last, in
the order in which `check` makes them. The counter starts again at a window reset and
behind a `clear`.

`trips_exactly` says that `check` reports an input exactly when the input is asserted and
these observations are more than `error_count`. It also dates the window resets and
bounds the two counters. `tripsInARow_iff` compares that with the stated purpose, to find
errors that happen in a row: the observations need not be in a row, and need not be of
the input that trips.
-/

set_option autoImplicit false

namespace UpsFirmware

open UpsFirmware.Lib

/-! ### The three inputs one by one -/

/-- The inputs, in the order in which `check` reads them. -/
inductive Fault where
  | loadOc
  | battOc
  | battOv
deriving DecidableEq, Repr

/-- The place of an input in the error code. -/
def Fault.bit : Fault → UInt8
  | .loadOc => HwErrors.LOAD_OC
  | .battOc => HwErrors.BATT_OC
  | .battOv => HwErrors.BATT_OV

def FaultPins.get (pins : FaultPins) : Fault → Bool
  | .loadOc => pins.loadOc
  | .battOc => pins.battOc
  | .battOv => pins.battOv

/-- The number of asserted inputs up to `x`, in the order in which `check` reads
them. -/
def FaultPins.assertedUpTo (pins : FaultPins) : Fault → Nat
  | .loadOc => pins.loadOc.toNat
  | .battOc => pins.loadOc.toNat + pins.battOc.toNat
  | .battOv => pins.loadOc.toNat + pins.battOc.toNat + pins.battOv.toNat

/-- The error code has the bit of an input. -/
def Trips (code : UInt8) (x : Fault) : Prop := code &&& (1 <<< x.bit) ≠ 0

instance (code : UInt8) (x : Fault) : Decidable (Trips code x) :=
  inferInstanceAs (Decidable (_ ≠ _))

/-! ### One `check` -/

/-- The bit that checking one input adds to the code. -/
def bitOf (trips : Bool) (bit : UInt8) : UInt8 := if trips then 1 <<< bit else 0

/-- The three bits do not overlap. -/
theorem trips_bits (loadOc battOc battOv : Bool) (x : Fault) :
    Trips (bitOf loadOc HwErrors.LOAD_OC ||| bitOf battOc HwErrors.BATT_OC |||
        bitOf battOv HwErrors.BATT_OV) x ↔ (FaultPins.mk loadOc battOc battOv).get x = true := by
  cases x <;> cases loadOc <;> cases battOc <;> cases battOv <;> decide

/-- Checking one input adds its bit when it is asserted and the count, with this input,
is above `error_count`. -/
theorem HwErrors.Counts.code_checkInput {h : HwErrors} {c : Nat} (hc : h.Counts c)
    (hsmall : c < 65535) (asserted : Bool) (led : Pin) (text : String) (bit : UInt8) :
    (HwErrors.checkInput asserted led text bit h).1.errorCode
      = h.errorCode ||| bitOf (asserted && decide (100 < c + asserted.toNat)) bit := by
  cases asserted with
  | false => exact UInt8.or_zero.symm
  | true =>
    have habove := hc.above_iff hsmall
    rw [HwErrors.checkInput, if_pos rfl, Bool.true_and, Bool.toNat_true]
    by_cases hgt : h.curErrorCount + 1 > h.errorCount
    · rw [decide_eq_true (habove.mp hgt)]
      simp only [if_pos hgt]
      rfl
    · rw [decide_eq_false (fun hlt => hgt (habove.mpr hlt))]
      simp only [if_neg hgt]
      exact UInt8.or_zero.symm

/-- The error code that a `check` leaves, input by input. -/
theorem HwErrors.code_check {h : HwErrors} (hs : h.Settled) (pins : FaultPins) :
    (h.check pins).1.errorCode
      = bitOf (pins.loadOc && decide (100 < h.base + pins.assertedUpTo .loadOc)) HwErrors.LOAD_OC
        ||| bitOf (pins.battOc && decide (100 < h.base + pins.assertedUpTo .battOc))
          HwErrors.BATT_OC
        ||| bitOf (pins.battOv && decide (100 < h.base + pins.assertedUpTo .battOv))
          HwErrors.BATT_OV := by
  have hbase := HwErrors.base_le hs
  have h1 := pins.loadOc.toNat_le
  have h2 := pins.battOc.toNat_le
  have c0 := HwErrors.resetWindow_counts hs
  obtain ⟨c1, c2⟩ := HwErrors.check_stages hs pins
  -- The code is zero at first, and each input adds its bit.
  have hzero : h.resetWindow.errorCode = 0 := c0.code.mpr hbase
  have hload : (h.resetWindow.checkLoadOc pins.loadOc).1.errorCode = _ :=
    c0.code_checkInput (by omega) pins.loadOc .loadOcLed _ HwErrors.LOAD_OC
  have hbatt : ((h.resetWindow.checkLoadOc pins.loadOc).1.checkBattOc pins.battOc).1.errorCode
      = _ := c1.code_checkInput (by omega) pins.battOc .battOcLed _ HwErrors.BATT_OC
  have hover : (h.check pins).1.errorCode = _ :=
    c2.code_checkInput (by omega) pins.battOv .battOvLed _ HwErrors.BATT_OV
  have hupTo : h.base + pins.assertedUpTo .battOc
      = h.base + pins.loadOc.toNat + pins.battOc.toNat := (Nat.add_assoc _ _ _).symm
  have hall : h.base + pins.assertedUpTo .battOv
      = h.base + pins.loadOc.toNat + pins.battOc.toNat + pins.battOv.toNat := by
    rw [FaultPins.assertedUpTo, Nat.add_assoc, Nat.add_assoc, Nat.add_assoc]
  rw [hover, hbatt, hload, hzero, UInt8.zero_or, hupTo, hall]
  rfl

/-- When `check` reports an input: the input is asserted, and the count it starts from
and the inputs up to this one are more than `error_count`. -/
theorem HwErrors.trips_check_iff {h : HwErrors} (hs : h.Settled) (pins : FaultPins) (x : Fault) :
    Trips (h.check pins).1.errorCode x ↔
      pins.get x = true ∧ 100 < h.base + pins.assertedUpTo x := by
  rw [HwErrors.code_check hs, trips_bits]
  cases x with
  | loadOc => simp [FaultPins.get]
  | battOc => simp [FaultPins.get]
  | battOv => simp [FaultPins.get]

/-! ### The window and the count in a run -/

/-- The guard of the head of `check`: the window ends. -/
def HwErrors.WindowEnds (h : HwErrors) : Prop := h.rstCtr = 0 ∧ h.errorCode = 0

instance (h : HwErrors) : Decidable h.WindowEnds := inferInstanceAs (Decidable (_ ∧ _))

section Runs

variable (b : BootInputs) (env : Nat → Inputs)

/-- The fault counters before iteration `n`. -/
def countersAt (n : Nat) : HwErrors := (loopAt b env n).hwErrors

/-- The fault counters behind the `check` of iteration `n`. -/
def checkedAt (n : Nat) : HwErrors := ((countersAt b env n).check (env n).faults).1

theorem countersAt_succ (n : Nat) :
    countersAt b env (n + 1) = (countersAt b env n).pass (env n).faults :=
  Buckboost.iterate_hwErrors _ _

theorem settled_countersAt (n : Nat) : (countersAt b env n).Settled := settled_loopAt b env n

/-- The window counts 1001 calls down, whatever the inputs are. -/
theorem rstCtr_countersAt (n : Nat) : (countersAt b env n).rstCtr.toNat = 1000 - n % 1001 := by
  induction n with
  | zero => rfl
  | succ n ih =>
    rw [countersAt_succ, HwErrors.pass_rstCtr (settled_countersAt b env n), ih]
    split
    · omega
    · omega

/-- A window ends at every 1001st call. -/
theorem windowEnds_iff (n : Nat) : (countersAt b env n).WindowEnds ↔ (n + 1) % 1001 = 0 := by
  have hctr := rstCtr_countersAt b env n
  rw [HwErrors.WindowEnds, and_iff_left (settled_countersAt b env n).code, ← UInt16.toNat_inj,
    hctr, UInt16.toNat_zero]
  omega

/-- The counter starts again in iteration `n`: at the end of a window, or because the
iteration before ended with a `clear`. -/
def CountRestarts : Nat → Prop
  | 0 => True
  | n + 1 => (countersAt b env (n + 1)).WindowEnds ∨ errorsAt b env n ≠ 0

instance : DecidablePred (CountRestarts b env)
  | 0 => isTrue trivial
  | n + 1 => inferInstanceAs (Decidable ((countersAt b env (n + 1)).WindowEnds ∨ _))

/-- The last iteration up to `n` in which the counter starts again. -/
def countStart (n : Nat) : Nat := Nat.findGreatest (CountRestarts b env) n

/-- The asserted readings since the counter started again, up to the one of `x` in
iteration `n`, in the order in which `check` makes them. -/
def observationsAt (n : Nat) (x : Fault) : Nat :=
  (∑ k ∈ Finset.Ico (countStart b env n) n, (env k).faults.asserted)
    + (env n).faults.assertedUpTo x

/-- What the counter holds when the next `check` reads its first input. -/
theorem base_countersAt_succ (n : Nat) :
    (countersAt b env (n + 1)).base
      = if CountRestarts b env (n + 1) then 0
        else (countersAt b env n).base + (env n).faults.asserted := by
  have hs := settled_countersAt b env n
  have hs' := settled_countersAt b env (n + 1)
  have htrip : errorsAt b env n = 0 ↔ _ := HwErrors.check_eq_zero_iff hs (env n).faults
  have hcount := HwErrors.pass_count hs (env n).faults
  rw [← countersAt_succ] at hcount
  rw [HwErrors.base, hcount]
  by_cases hends : (countersAt b env (n + 1)).WindowEnds
  · have hrestarts : CountRestarts b env (n + 1) := Or.inl hends
    rw [if_pos hends.1, if_pos hrestarts]
  · have hwindow : (countersAt b env (n + 1)).rstCtr ≠ 0 := fun h0 => hends ⟨h0, hs'.code⟩
    rw [if_neg hwindow]
    by_cases hzero : errorsAt b env n = 0
    · have hgoes : ¬ CountRestarts b env (n + 1) := fun h => h.elim hends (fun hne => hne hzero)
      rw [if_pos (htrip.mp hzero), if_neg hgoes]
    · -- A trip clears the count.
      have hrestarts : CountRestarts b env (n + 1) := Or.inr hzero
      rw [if_neg (fun hle => hzero (htrip.mpr hle)), if_pos hrestarts]

/-- That is what was asserted since the counter started again. -/
theorem base_countersAt (n : Nat) :
    (countersAt b env n).base
      = ∑ k ∈ Finset.Ico (countStart b env n) n, (env k).faults.asserted :=
  sum_since_restart (CountRestarts b env) (fun k => (env k).faults.asserted)
    (fun k => (countersAt b env k).base) rfl (base_countersAt_succ b env) n

/-- When iteration `n` reports an input. -/
theorem trips_errorsAt_iff (n : Nat) (x : Fault) :
    Trips (errorsAt b env n) x ↔
      (env n).faults.get x = true ∧ 100 < observationsAt b env n x := by
  rw [observationsAt, ← base_countersAt]
  exact HwErrors.trips_check_iff (settled_countersAt b env n) (env n).faults x

/-- The counters behind a `check` are far from where a `uint16_t` wraps. -/
theorem checkedAt_bounds (n : Nat) :
    (checkedAt b env n).errorCount = 100 ∧ (checkedAt b env n).rstCtr.toNat ≤ 1000 ∧
      (checkedAt b env n).curErrorCount.toNat ≤ 103 := by
  have hs := settled_countersAt b env n
  have hcounts := HwErrors.check_counts hs (env n).faults
  have hbase := HwErrors.base_le hs
  have hasserted := (env n).faults.asserted_le
  have hw := hs.window
  refine ⟨hcounts.errorCount, ?_, ?_⟩
  · rw [checkedAt, HwErrors.check_rstCtr, HwErrors.resetWindow_rstCtr hs]
    split
    · exact Nat.le_refl _
    · omega
  · rw [checkedAt, hcounts.count]
    omega

/-- The fault counters in iteration `n` of any run. The window starts again at the calls
1001, 2002, … of `check`, whether or not there were trips. Behind a call neither counter
has wrapped. A call reports an input exactly when the input is asserted and the
observations up to it are more than `error_count`. -/
theorem trips_exactly (n : Nat) :
    ((countersAt b env n).WindowEnds ↔ (n + 1) % 1001 = 0) ∧
    (checkedAt b env n).rstCtr.toNat ≤ 1000 ∧
    (checkedAt b env n).curErrorCount.toNat ≤ (checkedAt b env n).errorCount.toNat + 3 ∧
    ∀ x, Trips (errorsAt b env n) x ↔
      (env n).faults.get x = true ∧
        (checkedAt b env n).errorCount.toNat < observationsAt b env n x := by
  obtain ⟨hcount, hwindow, hsmall⟩ := checkedAt_bounds b env n
  have hlimit : (checkedAt b env n).errorCount.toNat = 100 := by
    rw [hcount]
    rfl
  rw [hlimit]
  exact ⟨windowEnds_iff b env n, hwindow, hsmall, trips_errorsAt_iff b env n⟩

/-! ### Errors in a row -/

/-- An input is asserted in iteration `n` and in the 100 iterations before. -/
def AssertedInARow (n : Nat) (x : Fault) : Prop :=
  100 ≤ n ∧ ∀ k, n - 100 ≤ k → k ≤ n → (env k).faults.get x = true

/-- If iteration `n` reports an input, then that input is asserted in each of the last
101 calls of `check`. -/
def TripsInARow (n : Nat) : Prop :=
  ∀ x, Trips (errorsAt b env n) x → AssertedInARow env n x

/-- The law holds in an iteration exactly when no input is asserted that is not asserted
in a row and finds more than 100 observations, up to its own, in the counter. -/
theorem tripsInARow_iff (n : Nat) :
    TripsInARow b env n ↔
      ∀ x, (env n).faults.get x = true → ¬ AssertedInARow env n x →
        observationsAt b env n x ≤ 100 := by
  refine forall_congr' fun x => ?_
  rw [trips_errorsAt_iff]
  constructor
  · intro hlaw hasserted hbroken
    by_contra hlt
    exact hbroken (hlaw ⟨hasserted, not_le.mp hlt⟩)
  · rintro hfew ⟨hasserted, hmany⟩
    by_contra hbroken
    exact absurd (hfew hasserted hbroken) (not_le.mpr hmany)

/-- A bench on which the load overcurrent reads asserted in every second call. -/
def glitches (n : Nat) : Inputs :=
  { benchInputs n with faults := ⟨decide (n % 2 = 0), false, false⟩ }

/-- On that bench iteration 200 reports the load overcurrent, which was not asserted in
iteration 199. -/
theorem tripsInARow_fails : ¬ ∀ b env n, TripsInARow b env n := by
  intro hall
  have htrips : Trips (errorsAt benchBoot glitches 200) .loadOc := by
    rw [errorsAt_eq]
    decide +kernel
  have hrow := (hall benchBoot glitches 200 .loadOc htrips).2 199 (by decide) (by decide)
  exact absurd hrow (by decide)

end Runs

end UpsFirmware
