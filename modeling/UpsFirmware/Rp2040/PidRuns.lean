import UpsFirmware.Lib.Accumulators
import UpsFirmware.Lib.Rounding
import UpsFirmware.Lib.Runs
import UpsFirmware.Rp2040.Regulators

/-!
# `UpsFirmware.Rp2040.PidRuns`: the BUCK regulator over many measurements

`Pid.before p actual cycles n` is the regulator `p` after the measurements
`actual 0`, …, `actual (n - 1)`, each with its reading of the cycle counter.

* `before_eSum` says that `e_sum` is a sum with a floor. `antiWindup_iff` turns the
  missing upper limit into a condition on the measurements, and
  `drive_le_drive_of_lower` compares the duties of two runs.
* `timeStepRight_iff` says which readings of the cycle counter give a time step that
  is right. The counter wraps, and the `float` that keeps its last reading has 24
  significant bits.
-/

set_option autoImplicit false

namespace UpsFirmware

open UpsFirmware.Lib

section Runs

variable (p : Pid) (actual : Nat → ℚ) (cycles : Nat → UInt32)

/-- The regulator before measurement `n`. -/
def Pid.before (n : Nat) : Pid :=
  stateAt (fun p (r : ℚ × UInt32) => p.compute r.1 r.2) p (fun k => (actual k, cycles k)) n

theorem Pid.before_succ (n : Nat) :
    p.before actual cycles (n + 1) = (p.before actual cycles n).compute (actual n) (cycles n) :=
  rfl

/-- No measurement changes the parameters. -/
theorem Pid.before_params (n : Nat) :
    (p.before actual cycles n).target = p.target ∧ (p.before actual cycles n).kp = p.kp ∧
      (p.before actual cycles n).ki = p.ki ∧ (p.before actual cycles n).kd = p.kd := by
  induction n with
  | zero => exact ⟨rfl, rfl, rfl, rfl⟩
  | succ n ih => exact ih

/-! ### The sum of the errors -/

/-- The errors add up, and the sum stops at the lower windup limit. -/
theorem Pid.before_eSum (n : Nat) :
    (p.before actual cycles n).eSum
      = flooredSum INTEGRATOR_WINDUP_NEG p.eSum (fun k => p.target - actual k) n := by
  induction n with
  | zero => rfl
  | succ n ih =>
    have htarget := (p.before_params actual cycles n).1
    rw [Pid.before_succ, eSum_compute, ih, htarget, flooredSum_succ]

/-- The measurement in the constructor is the target, so the sum starts at zero. -/
theorem eSum_new (target kp ki kd : ℚ) (junk : ℚ × ℚ × ℚ) (t : UInt32) :
    (Pid.new target kp ki kd junk t).eSum = 0 := by
  have hneg : INTEGRATOR_WINDUP_NEG ≤ 0 := by norm_num [INTEGRATOR_WINDUP_NEG]
  rw [Pid.new, eSum_compute, sub_self, add_zero]
  exact max_eq_right hneg

/-- After every measurement the sum of the errors is inside both windup limits. -/
def WindupLimited : Prop :=
  ∀ n, INTEGRATOR_WINDUP_NEG ≤ (p.before actual cycles n).eSum ∧
    (p.before actual cycles n).eSum ≤ INTEGRATOR_WINDUP_POS

/-- The errors of the measurements `m`, …, `n - 1` add up to at most the upper windup
limit, less what the sum held before them: zero at the start of the run, and the lower
limit at the least later on. -/
def ErrorsLimited (target : ℚ) : Prop :=
  ∀ m n, m ≤ n → ∑ k ∈ Finset.Ico m n, (target - actual k)
    ≤ INTEGRATOR_WINDUP_POS - if m = 0 then 0 else INTEGRATOR_WINDUP_NEG

/-- A regulator that is constructed and then fed with measurements stays inside the
windup limits exactly when no stretch of its measurements is too low in sum. Only the
lower limit is enforced. -/
theorem antiWindup_iff (target kp ki kd : ℚ) (junk : ℚ × ℚ × ℚ) (t : UInt32) :
    WindupLimited (Pid.new target kp ki kd junk t) actual cycles ↔
      ErrorsLimited actual target := by
  have hneg : INTEGRATOR_WINDUP_NEG ≤ 0 := by norm_num [INTEGRATOR_WINDUP_NEG]
  have hsum := (Pid.new target kp ki kd junk t).before_eSum actual cycles
  rw [eSum_new] at hsum
  constructor
  · intro hlaw m n hmn
    have hle := (hlaw n).2
    rw [hsum, flooredSum_le_iff] at hle
    exact le_sub_iff_add_le'.mpr (hle m hmn)
  · intro herrors n
    rw [hsum]
    refine ⟨floor_le_flooredSum _ _ _ hneg n, ?_⟩
    rw [flooredSum_le_iff]
    intro m hmn
    exact le_sub_iff_add_le'.mp (herrors m n hmn)

/-- An output that is down at 0 V: after 83334 measurements the sum of the errors is
1000008. -/
theorem windupLimited_fails :
    ¬ ∀ target kp ki kd junk t actual cycles,
      WindupLimited (Pid.new target kp ki kd junk t) actual cycles := by
  intro hall
  have hle := (hall 12 (3 / 100) (1 / 10000) 0 (0, 0, 0) 0 (fun _ => 0)
    (fun n => UInt32.ofNat (n + 1)) 83334).2
  rw [Pid.before_eSum, eSum_new, flooredSum_le_iff] at hle
  have hfirst := hle 0 (Nat.zero_le _)
  simp only [startAt, Finset.sum_const, Nat.card_Ico] at hfirst
  norm_num [Pid.new, Pid.compute, INTEGRATOR_WINDUP_POS] at hfirst

end Runs

/-! ### Negative feedback -/

section Feedback

variable {p : Pid} {low high : Nat → ℚ} {cycles : Nat → UInt32}

/-- Two sequences of measurements to compare: the first is never above the second, and
the cycle counter advances between two measurements. -/
structure Lower (low high : Nat → ℚ) (cycles : Nat → UInt32) : Prop where
  le : ∀ n, low n ≤ high n
  advances : ∀ n, floatOfNat (cycles (n + 1)).toNat ≠ floatOfNat (cycles n).toNat

/-- The sum of the errors of lower measurements is not smaller. -/
theorem eSum_le_eSum_of_lower (h : Lower low high cycles) (n : Nat) :
    (p.before high cycles n).eSum ≤ (p.before low cycles n).eSum := by
  rw [Pid.before_eSum, Pid.before_eSum]
  exact flooredSum_mono _ _ (fun k => sub_le_sub_left (h.le k) p.target) n

/-- Without a derivative term the duty is the clamped sum of a term of the last
measurement and a term of the sum of the errors. -/
theorem drive_before_succ (hkd : p.kd = 0) (actual : Nat → ℚ) (n : Nat) :
    (p.before actual cycles (n + 1)).drive
      = clampDuty ((p.target - actual n) * p.kp
          + (p.before actual cycles (n + 1)).eSum * p.ki) := by
  obtain ⟨htarget, hkp, hki, hkd'⟩ := p.before_params actual cycles n
  rw [Pid.before_succ, drive_compute _ (hkd'.trans hkd), raw_compute, eSum_compute, htarget, hkp,
    hki]

/-- Lower measurements do not give a lower duty, at any moment of two runs of the same
regulator on the same cycle counter. -/
theorem drive_le_drive_of_lower (hkp : 0 ≤ p.kp) (hki : 0 ≤ p.ki) (hkd : p.kd = 0)
    (h : Lower low high cycles) (n : Nat) :
    (p.before high cycles n).drive ≤ (p.before low cycles n).drive := by
  cases n with
  | zero => exact le_refl _
  | succ n =>
    have herror : (p.target - high n) * p.kp ≤ (p.target - low n) * p.kp :=
      mul_le_mul_of_nonneg_right (sub_le_sub_left (h.le n) p.target) hkp
    have hsum : (p.before high cycles (n + 1)).eSum * p.ki
        ≤ (p.before low cycles (n + 1)).eSum * p.ki :=
      mul_le_mul_of_nonneg_right (eSum_le_eSum_of_lower h (n + 1)) hki
    rw [drive_before_succ hkd, drive_before_succ hkd, clampDuty_le_iff]
    exact Or.inl (add_le_add herror hsum)

end Feedback

/-- `drive_le_drive_of_lower` for the regulator of the loop, on an output at 11 V and one
at 12 V, with a cycle counter that moves between two readings. -/
theorem drive_le_drive_of_lower_bench :
    ((Pid.new 12 (3 / 100) (1 / 10000) 0 (0, 0, 0) 0).before (fun _ => 12)
        (fun n => if n % 2 = 0 then 1000 else 2000) 3).drive
      ≤ ((Pid.new 12 (3 / 100) (1 / 10000) 0 (0, 0, 0) 0).before (fun _ => 11)
        (fun n => if n % 2 = 0 then 1000 else 2000) 3).drive :=
  drive_le_drive_of_lower (by norm_num [Pid.new, Pid.compute])
    (by norm_num [Pid.new, Pid.compute]) rfl
    ⟨fun _ => by norm_num, fun n => by
      have hparity : (n + 1) % 2 = 0 ↔ ¬ n % 2 = 0 := by omega
      by_cases h : n % 2 = 0
      · rw [if_neg (fun h' => hparity.mp h' h), if_pos h]
        decide +kernel
      · rw [if_pos (hparity.mpr h), if_neg h]
        decide +kernel⟩ 3

/-! ### The time step -/

/-- The duty that a measurement sets, with its time step. -/
theorem drive_compute_dt (p : Pid) (actual : ℚ) (t : UInt32) :
    (p.compute actual t).drive
      = clampDuty ((p.target - actual) * p.kp + (p.compute actual t).eSum * p.ki
          + (p.target - actual - p.ePrev) / p.dt t * p.kd) := rfl

/-- The conversion to `float` keeps 24 significant bits. -/
theorem floatOfNat_eq (t : Nat) : floatOfNat t = (roundSig 24 t : Nat) := by
  simp only [floatOfNat, roundSig, roundTo]
  split
  · rw [Nat.cast_mul]
  · rw [Nat.cast_mul, Nat.cast_add, Nat.cast_one]

/-- A reading of the cycle counter has at most 8 bits more than a `float` keeps. -/
theorem floatOfNat_error (t : UInt32) :
    |floatOfNat t.toNat - (t.toNat : ℚ)| ≤ 128 := by
  have herr := roundSig_error 24 (w := 32) (by decide) t.toNat_lt
  rw [floatOfNat_eq, abs_le]
  have hle : ((roundSig 24 t.toNat : Nat) : ℚ) ≤ (t.toNat + 128 : Nat) := by
    rw [Nat.cast_le]
    omega
  have hge : (t.toNat : ℚ) ≤ (roundSig 24 t.toNat + 128 : Nat) := by
    rw [Nat.cast_le]
    omega
  rw [Nat.cast_add, Nat.cast_ofNat] at hle hge
  constructor
  · linarith
  · linarith

/-- The time step between two readings of the cycle counter is right: it is the number
of elapsed cycles, modulo the size of the counter and to within 256 cycles, and it is
not zero if the counter has moved. -/
def TimeStepRight (dt : ℚ) (prev t : UInt32) : Prop :=
  |dt * 125000000 - ((t - prev).toNat : ℚ)| ≤ 256 ∧ (t ≠ prev → dt ≠ 0)

/-- The regulator remembers the reading of the last measurement as a `float`. -/
theorem dt_before_succ (p : Pid) (actual : Nat → ℚ) (cycles : Nat → UInt32) (n : Nat) :
    (p.before actual cycles (n + 1)).dt (cycles (n + 1)) * 125000000
      = floatOfNat (cycles (n + 1)).toNat - floatOfNat (cycles n).toNat := by
  rw [Pid.dt, div_mul_cancel₀ _ (by norm_num)]
  rfl

/-- Between two readings without a wrap the two conversions cost at most 128 cycles
each. -/
theorem elapsed_error_of_le {prev t : UInt32} (h : prev ≤ t) :
    |floatOfNat t.toNat - floatOfNat prev.toNat - ((t - prev).toNat : ℚ)| ≤ 256 := by
  have ht := abs_le.mp (floatOfNat_error t)
  have hprev := abs_le.mp (floatOfNat_error prev)
  have hle : prev.toNat ≤ t.toNat := UInt32.le_iff_toNat_le.mp h
  rw [UInt32.toNat_sub_of_le _ _ h, Nat.cast_sub hle, abs_le]
  constructor
  · linarith [ht.1, hprev.2]
  · linarith [ht.2, hprev.1]

/-- Over a wrap the difference is wrong by about the size of the counter. -/
theorem lt_elapsed_error_of_lt {prev t : UInt32} (h : t < prev) :
    256 < |floatOfNat t.toNat - floatOfNat prev.toNat - ((t - prev).toNat : ℚ)| := by
  have ht := abs_le.mp (floatOfNat_error t)
  have hprev := abs_le.mp (floatOfNat_error prev)
  have hlt : t.toNat < prev.toNat := UInt32.lt_iff_toNat_lt.mp h
  have hsmall := prev.toNat_lt
  have helapsed : (t - prev).toNat + prev.toNat = t.toNat + 2 ^ 32 := by
    rw [UInt32.toNat_sub]
    omega
  have hcast : ((t - prev).toNat : ℚ) + prev.toNat = t.toNat + 2 ^ 32 := by
    exact_mod_cast helapsed
  rw [lt_abs]
  right
  linarith [ht.2, hprev.1]

/-- From the second measurement on, a time step is right exactly when the counter has
not wrapped, and two different readings do not round to the same `float`. -/
theorem timeStepRight_iff (p : Pid) (actual : Nat → ℚ) (cycles : Nat → UInt32) (n : Nat) :
    TimeStepRight ((p.before actual cycles (n + 1)).dt (cycles (n + 1))) (cycles n)
        (cycles (n + 1)) ↔
      cycles n ≤ cycles (n + 1) ∧
        (cycles (n + 1) ≠ cycles n →
          floatOfNat (cycles (n + 1)).toNat ≠ floatOfNat (cycles n).toNat) := by
  have hdt := dt_before_succ p actual cycles n
  have hzero : (p.before actual cycles (n + 1)).dt (cycles (n + 1)) = 0 ↔
      floatOfNat (cycles (n + 1)).toNat = floatOfNat (cycles n).toNat := by
    rw [← mul_eq_zero_iff_right (by norm_num : (125000000 : ℚ) ≠ 0), hdt, sub_eq_zero]
  rw [TimeStepRight, hdt, ne_eq, ne_eq, hzero]
  refine and_congr_left fun _ => ?_
  constructor
  · intro herr
    by_contra hwrap
    exact absurd herr (not_le.mpr (lt_elapsed_error_of_lt (UInt32.not_le.mp hwrap)))
  · exact elapsed_error_of_le

/-- For the first 2 ^ 24 cycles every time step is right. -/
theorem timeStepRight_of_small (p : Pid) (actual : Nat → ℚ) {cycles : Nat → UInt32} {n : Nat}
    (hle : cycles n ≤ cycles (n + 1)) (hsmall : (cycles (n + 1)).toNat < 2 ^ 24) :
    TimeStepRight ((p.before actual cycles (n + 1)).dt (cycles (n + 1))) (cycles n)
      (cycles (n + 1)) := by
  have hle' : (cycles n).toNat ≤ (cycles (n + 1)).toNat := UInt32.le_iff_toNat_le.mp hle
  have hdt := dt_before_succ p actual cycles n
  -- Both conversions are exact.
  rw [floatOfNat_eq, floatOfNat_eq, roundSig_of_lt (by decide) hsmall,
    roundSig_of_lt (by decide) (lt_of_le_of_lt hle' hsmall)] at hdt
  rw [TimeStepRight, hdt, UInt32.toNat_sub_of_le _ _ hle, Nat.cast_sub hle', sub_self, abs_zero]
  refine ⟨by norm_num, ?_⟩
  intro hne hzero
  rw [hzero, zero_mul, eq_comm, sub_eq_zero, Nat.cast_inj] at hdt
  exact hne (UInt32.toNat_inj.mp hdt)

/-- Readings behind which the time step is wrong. The counter wraps between the first
two, and moves by one cycle between the next two, at a size where a `float` keeps no
single cycles. -/
def wrongReadings (n : Nat) : UInt32 :=
  if n = 0 then 4294967040 else if n = 1 then 256 else if n = 2 then 2147483648 else 2147483649

/-- The regulator of the loop on these readings: the first time step is negative, though
512 cycles have elapsed, and the third one is zero. -/
theorem timeStepRight_fails :
    (¬ ∀ (p : Pid) (actual : Nat → ℚ) (cycles : Nat → UInt32) (n : Nat),
      |(p.before actual cycles (n + 1)).dt (cycles (n + 1)) * 125000000
        - ((cycles (n + 1) - cycles n).toNat : ℚ)| ≤ 256) ∧
    ¬ ∀ (p : Pid) (actual : Nat → ℚ) (cycles : Nat → UInt32) (n : Nat),
      cycles (n + 1) ≠ cycles n → (p.before actual cycles (n + 1)).dt (cycles (n + 1)) ≠ 0 := by
  obtain ⟨p, hp⟩ : ∃ p : Pid, p = Pid.new 12 (3 / 100) (1 / 10000) 0 (0, 0, 0) 0 := ⟨_, rfl⟩
  constructor
  · intro hall
    have herr := hall p (fun _ => 12) wrongReadings 0
    rw [dt_before_succ] at herr
    revert herr
    decide +kernel
  · intro hall
    have hdt := dt_before_succ p (fun _ => 12) wrongReadings 2
    have hsame : floatOfNat (wrongReadings 3).toNat = floatOfNat (wrongReadings 2).toNat := by
      decide +kernel
    rw [hsame, sub_self] at hdt
    exact hall p (fun _ => 12) wrongReadings 2 (by decide)
      ((mul_eq_zero_iff_right (by norm_num)).mp hdt)

end UpsFirmware
