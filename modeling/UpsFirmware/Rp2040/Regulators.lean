import Mathlib.Algebra.Order.Field.Rat
import Mathlib.Algebra.Order.Group.MinMax
import Mathlib.Algebra.Order.Group.Unbundled.Abs
import Mathlib.Tactic.Linarith
import Mathlib.Tactic.NormNum

/-!
# `UpsFirmware.Rp2040.Regulators`: the two duty regulators

`Pid` (`rp2040-app/src/pid.cpp`) sets the duty of the BUCK mode and `Battery`
(`rp2040-app/src/battery.cpp`) the duty of the BOOST mode. A higher BOOST duty
charges with less current.

The arithmetic is exact: a `float` is a rational number, and an expression is not
rounded. The one conversion that is rounded is the cycle counter's, from 32 bits
to the 24 significant bits of a `float`, because it changes what the time step
is. A conversion to `int` truncates toward zero. `abs` is the absolute value of
a `float`. A division by a time step of zero gives zero here. In the source it gives no
number, and the duty is then no number either, so what a measurement does to the duty is
only claimed for a time step that is not zero (`Pid.dt`).

`drive_compute_le_iff` says when a measurement does not raise the BUCK duty, and
`le_computeDrive_iff` when one does not lower the BOOST duty.
`computeDrive_overLimit_iff` says when the charger backs off from a limit that is
exceeded. `computeDriveOwn_overLimit` says that the overload nobody calls always
does.
-/

set_option autoImplicit false

namespace UpsFirmware

/-! ### Conversions -/

/-- Conversion of a `float` to `int`. -/
def truncInt (x : ℚ) : Int := x.num.tdiv x.den

/-- Conversion of an unsigned integer to `float`: 24 significant bits, to the
nearest, ties to even. -/
def floatOfNat (t : Nat) : ℚ :=
  let unit := 2 ^ (t.log2 + 1 - 24)
  let q := t / unit
  let r := t % unit
  if 2 * r < unit ∨ (2 * r = unit ∧ q % 2 = 0) then q * unit else (q + 1) * unit

/-! ### Limits (`csd97395.h`, `pid.h`) -/

def MAX_DRIVE : ℚ := 95 / 100
def MIN_DRIVE : ℚ := 65 / 100

def INTEGRATOR_WINDUP_NEG : ℚ := -100
def INTEGRATOR_WINDUP_POS : ℚ := 1000000

/-! ### `Pid` -/

/-- The members of `class Pid` that `compute` uses. -/
structure Pid where
  target : ℚ
  kp : ℚ
  ki : ℚ
  kd : ℚ
  ePrev : ℚ
  eSum : ℚ
  tPrev : ℚ
  drive : ℚ

/-- The end of `Pid::compute`: the two clamps of the duty. -/
def clampDuty (drive : ℚ) : ℚ :=
  let drive := if MAX_DRIVE ≤ drive then MAX_DRIVE else drive
  if drive ≤ 2 / 100 then 2 / 100 else drive

/-- `Pid::compute`. `t` is what `k_cycle_get_32` returns. -/
def Pid.compute (p : Pid) (actual : ℚ) (t : UInt32) : Pid :=
  let e := p.target - actual
  let dt := (floatOfNat t.toNat - p.tPrev) / 125000000
  let derivatave := (e - p.ePrev) / dt
  let eSum := p.eSum + e
  let eSum := if eSum < INTEGRATOR_WINDUP_NEG then INTEGRATOR_WINDUP_NEG else eSum
  { p with
    eSum := eSum
    drive := clampDuty (e * p.kp + eSum * p.ki + derivatave * p.kd)
    ePrev := e
    tPrev := floatOfNat t.toNat }

/-- `dt` in `Pid::compute`. -/
def Pid.dt (p : Pid) (t : UInt32) : ℚ := (floatOfNat t.toNat - p.tPrev) / 125000000

/-- `Pid::get_duc`. -/
def Pid.getDuc (p : Pid) : ℚ := p.drive

/-- `Pid::Pid`. The constructor does not set `e_prev`, `t_prev` and `drive`
before it calls `compute`; `junk` is what they hold. -/
def Pid.new (target kp ki kd : ℚ) (junk : ℚ × ℚ × ℚ) (t : UInt32) : Pid :=
  Pid.compute ⟨target, kp, ki, kd, junk.1, 0, junk.2.1, junk.2.2⟩ target t

/-! ### `Battery` -/

/-- The members of `class Battery`. -/
structure Battery where
  targetV : Int -- mV
  bumpAmt : ℚ
  initialDrive : ℚ
  drive : ℚ
  targetI : ℚ -- mA
  scaling : ℚ

/-- `Battery::Battery`. The constructor leaves `target_v` and `target_i` at the
given values. -/
def Battery.new (targetV : Int) (targetI : ℚ) : Battery where
  targetV := targetV
  bumpAmt := 1 / 1000000
  initialDrive := 780 / 1000
  drive := 780 / 1000
  targetI := targetI
  scaling := 1

/-- `Battery::set_voltage`. -/
def Battery.setVoltage (b : Battery) (v : ℚ) : Battery :=
  { b with targetV := truncInt (v * 1000) }

/-- `Battery::set_current`. -/
def Battery.setCurrent (b : Battery) (i : ℚ) : Battery := { b with targetI := i }

/-- `Battery::set_scaling`. -/
def Battery.setScaling (b : Battery) (s : ℚ) : Battery := { b with scaling := s }

/-- The end of both `compute_drive`s: the upper clamp, and the restart at
`initial_drive`. -/
def Battery.clampDrive (b : Battery) (drive : ℚ) : ℚ :=
  let drive := if MAX_DRIVE ≤ drive then MAX_DRIVE else drive
  -- If the drive have dipped below this amount, something has happened.
  if drive ≤ MIN_DRIVE then b.initialDrive else drive

/-- `Battery::compute_drive(v, i)`, which keeps its own duty. -/
def Battery.computeDriveOwn (b : Battery) (v i : ℚ) : Battery :=
  { b with
    drive := b.clampDrive
      (if i < b.targetI ∧ v < b.targetV then b.drive - b.bumpAmt -- This adds current
        else b.drive + b.bumpAmt) }

def I_TSH : ℚ := 100
def V_TSH : ℚ := 2 / 10

/-- `Battery::compute_drive(v, i, drive)`. -/
def Battery.computeDrive (b : Battery) (v i drive : ℚ) : ℚ :=
  let tgI := b.targetI * b.scaling
  b.clampDrive
    (if |i - tgI| < I_TSH ∨ |v - b.targetV| < V_TSH then drive
      else if i < tgI ∧ v < b.targetV then drive - b.bumpAmt -- This adds current
      else drive + b.bumpAmt)

/-! ### The BUCK regulator and its clamps -/

/-- The two clamps as one expression. -/
theorem clampDuty_eq (x : ℚ) : clampDuty x = max (2 / 100) (min MAX_DRIVE x) := by
  rw [clampDuty]
  rcases le_total MAX_DRIVE x with h | h
  · -- The upper clamp acts, and the lower one does not undo it.
    have hlim : ¬ MAX_DRIVE ≤ 2 / 100 := by norm_num [MAX_DRIVE]
    simp only [if_pos h, if_neg hlim]
    rw [min_eq_left h, max_eq_right (le_of_not_ge hlim)]
  · have hmin : (if MAX_DRIVE ≤ x then MAX_DRIVE else x) = x := by
      split
      · exact le_antisymm (by assumption) h
      · rfl
    simp only [hmin]
    rw [min_eq_right h]
    split
    · exact (max_eq_left (by assumption)).symm
    · exact (max_eq_right (le_of_not_ge (by assumption))).symm

/-- Clamping keeps an increase, unless a clamp hides it. -/
theorem clampDuty_le_iff {x y : ℚ} :
    clampDuty x ≤ clampDuty y ↔ x ≤ y ∨ x ≤ 2 / 100 ∨ MAX_DRIVE ≤ y := by
  have hlim : (2 / 100 : ℚ) < MAX_DRIVE := by norm_num [MAX_DRIVE]
  rw [clampDuty_eq, clampDuty_eq]
  constructor
  · intro h
    by_contra hcon
    rw [not_or, not_or, not_le, not_le, not_le] at hcon
    obtain ⟨hxy, hx, hy⟩ := hcon
    -- `x` is above the lower clamp and above `y`, and `y` is below the upper one.
    have hlt : max (2 / 100) (min MAX_DRIVE y) < min MAX_DRIVE x := by
      rw [min_eq_right hy.le]
      exact lt_min (max_lt hlim hy) (max_lt hx hxy)
    exact absurd (le_trans (le_max_right _ _) h) (not_le.mpr hlt)
  · rintro (h | h | h)
    · exact max_le_max le_rfl (min_le_min le_rfl h)
    · rw [max_eq_left (le_trans (min_le_right _ _) h)]
      exact le_max_left _ _
    · rw [min_eq_left h]
      exact max_le_max le_rfl (min_le_left _ _)

/-- The duty of a regulator before the clamps, for a regulator without a derivative
term. -/
def Pid.raw (p : Pid) : ℚ := p.ePrev * p.kp + p.eSum * p.ki

/-- A regulator without a derivative term sets the clamped `raw`. -/
theorem drive_compute (p : Pid) (hkd : p.kd = 0) (actual : ℚ) (t : UInt32) :
    (p.compute actual t).drive = clampDuty (p.compute actual t).raw := by
  simp only [Pid.compute, Pid.raw, hkd, mul_zero, add_zero]

/-- The sum of the errors after one more measurement. The windup limit is a maximum. -/
theorem eSum_compute (p : Pid) (actual : ℚ) (t : UInt32) :
    (p.compute actual t).eSum = max INTEGRATOR_WINDUP_NEG (p.eSum + (p.target - actual)) := by
  simp only [Pid.compute]
  split
  · exact (max_eq_left (le_of_lt (by assumption))).symm
  · exact (max_eq_right (le_of_not_gt (by assumption))).symm

/-- The duty before the clamps, after one more measurement. -/
theorem raw_compute (p : Pid) (actual : ℚ) (t : UInt32) :
    (p.compute actual t).raw = (p.target - actual) * p.kp
      + max INTEGRATOR_WINDUP_NEG (p.eSum + (p.target - actual)) * p.ki := by
  rw [Pid.raw, eSum_compute]
  rfl

/-- The measurement `actual` does not raise the duty. The two terms do not grow
together, or the new duty is at its lower clamp, or the old one was at its upper
clamp. -/
def Pid.NotRaised (p : Pid) (actual : ℚ) : Prop :=
  let e := p.target - actual
  let eSum := max INTEGRATOR_WINDUP_NEG (p.eSum + e)
  (e - p.ePrev) * p.kp + (eSum - p.eSum) * p.ki ≤ 0 ∨
    e * p.kp + eSum * p.ki ≤ 2 / 100 ∨ MAX_DRIVE ≤ p.ePrev * p.kp + p.eSum * p.ki

instance (p : Pid) (actual : ℚ) : Decidable (p.NotRaised actual) :=
  inferInstanceAs (Decidable (_ ∨ _ ∨ _))

/-- When one more measurement does not raise the duty. -/
theorem drive_compute_le_iff (p : Pid) (hkd : p.kd = 0) (actual : ℚ) (t : UInt32) :
    (p.compute actual t).drive ≤ clampDuty p.raw ↔ p.NotRaised actual := by
  rw [drive_compute p hkd, clampDuty_le_iff, raw_compute, Pid.raw, Pid.NotRaised]
  refine or_congr ?_ Iff.rfl
  constructor
  · intro h
    linarith
  · intro h
    linarith

/-! ### The charger -/

/-- The clamp of a duty that is above `MIN_DRIVE`. -/
theorem clampDrive_of_lt (b : Battery) {d : ℚ} (h : MIN_DRIVE < d) :
    b.clampDrive d = min MAX_DRIVE d := by
  have hlim : MIN_DRIVE < MAX_DRIVE := by norm_num [MIN_DRIVE, MAX_DRIVE]
  rw [Battery.clampDrive]
  by_cases hd : MAX_DRIVE ≤ d
  · simp only [if_pos hd]
    rw [if_neg (not_le.mpr hlim), min_eq_left hd]
  · simp only [if_neg hd]
    rw [if_neg (not_le.mpr h), min_eq_right (le_of_not_ge hd)]

/-- A duty at or under `MIN_DRIVE` restarts. -/
theorem clampDrive_of_le (b : Battery) {d : ℚ} (h : d ≤ MIN_DRIVE) :
    b.clampDrive d = b.initialDrive := by
  have hlim : MIN_DRIVE < MAX_DRIVE := by norm_num [MIN_DRIVE, MAX_DRIVE]
  rw [Battery.clampDrive]
  simp only [if_neg (not_le.mpr (lt_of_le_of_lt h hlim)), if_pos h]

/-- Over a limit: the voltage or the current exceeds its target by at least its
dead band. -/
def Battery.OverLimit (b : Battery) (v i : ℚ) : Prop :=
  b.targetV + V_TSH ≤ v ∨ b.targetI * b.scaling + I_TSH ≤ i

/-- Over a limit, the branch that adds current is not taken. -/
theorem not_below_of_overLimit {b : Battery} {v i : ℚ} (h : b.OverLimit v i) :
    ¬ (i < b.targetI * b.scaling ∧ v < b.targetV) := by
  have hv : 0 < V_TSH := by norm_num [V_TSH]
  have hi : 0 < I_TSH := by norm_num [I_TSH]
  rintro ⟨hi', hv'⟩
  rcases h with h | h
  · linarith
  · linarith

/-- The overload that keeps its own duty moves toward less charge current
whenever a limit is exceeded. -/
theorem computeDriveOwn_overLimit (b : Battery) (v i : ℚ) (hs : b.scaling = 1)
    (hb : 0 ≤ b.bumpAmt) (hd : MIN_DRIVE < b.drive) (h : b.OverLimit v i) :
    (b.computeDriveOwn v i).drive = min MAX_DRIVE (b.drive + b.bumpAmt) := by
  have hnot := not_below_of_overLimit h
  rw [hs, mul_one] at hnot
  rw [Battery.computeDriveOwn]
  simp only [if_neg hnot]
  exact clampDrive_of_lt b (by linarith)

/-! #### The three branches of `compute_drive` -/

/-- One quantity inside its dead band: the duty stays. -/
theorem computeDrive_of_band (b : Battery) {v i : ℚ} (d : ℚ)
    (h : |i - b.targetI * b.scaling| < I_TSH ∨ |v - b.targetV| < V_TSH) :
    b.computeDrive v i d = b.clampDrive d :=
  congrArg b.clampDrive (if_pos h)

/-- Both quantities outside their dead bands and below their targets: the duty is
lowered, which adds current. -/
theorem computeDrive_of_below (b : Battery) {v i : ℚ} (d : ℚ)
    (hband : ¬ (|i - b.targetI * b.scaling| < I_TSH ∨ |v - b.targetV| < V_TSH))
    (h : i < b.targetI * b.scaling ∧ v < b.targetV) :
    b.computeDrive v i d = b.clampDrive (d - b.bumpAmt) :=
  congrArg b.clampDrive ((if_neg hband).trans (if_pos h))

/-- Both quantities outside their dead bands, one above its target: the duty is
raised. -/
theorem computeDrive_of_above (b : Battery) {v i : ℚ} (d : ℚ)
    (hband : ¬ (|i - b.targetI * b.scaling| < I_TSH ∨ |v - b.targetV| < V_TSH))
    (h : ¬ (i < b.targetI * b.scaling ∧ v < b.targetV)) :
    b.computeDrive v i d = b.clampDrive (d + b.bumpAmt) :=
  congrArg b.clampDrive ((if_neg hband).trans (if_neg h))

/-! #### When the charger adds current -/

/-- A charger whose restart is above the lower limit by a bump, and whose bump is
small. -/
structure Battery.Valid (b : Battery) : Prop where
  bump_pos : 0 < b.bumpAmt
  bump_le : b.bumpAmt ≤ 1 - MAX_DRIVE
  restart : MIN_DRIVE + b.bumpAmt ≤ b.initialDrive
  restart_le : b.initialDrive ≤ MAX_DRIVE

/-- The clamp of a valid charger. -/
theorem clampDrive_mem (b : Battery) (hb : b.Valid) (d : ℚ) :
    MIN_DRIVE < b.clampDrive d ∧ b.clampDrive d ≤ MAX_DRIVE := by
  have hbump := hb.bump_pos
  have hrestart := hb.restart
  by_cases hd : d ≤ MIN_DRIVE
  · -- restart
    rw [clampDrive_of_le b hd]
    exact ⟨by linarith, hb.restart_le⟩
  · rw [not_le] at hd
    rw [clampDrive_of_lt b hd]
    exact ⟨lt_min (by norm_num [MIN_DRIVE, MAX_DRIVE]) hd, min_le_left _ _⟩

/-- Every duty of a valid charger is between the two limits. -/
theorem computeDrive_mem (b : Battery) (hb : b.Valid) (v i d : ℚ) :
    MIN_DRIVE < b.computeDrive v i d ∧ b.computeDrive v i d ≤ MAX_DRIVE :=
  clampDrive_mem b hb _

/-- The charger does not add current. A measured quantity is near its target or
above, or the duty restarts. -/
def Battery.NotLowered (b : Battery) (v i d : ℚ) : Prop :=
  d - b.bumpAmt ≤ MIN_DRIVE ∨ b.targetI * b.scaling - I_TSH < i ∨ b.targetV - V_TSH < v

/-- When a valid charger does not lower the duty. -/
theorem le_computeDrive_iff (b : Battery) (hb : b.Valid) {v i d : ℚ} (hmin : MIN_DRIVE < d)
    (hmax : d ≤ MAX_DRIVE) : d ≤ b.computeDrive v i d ↔ b.NotLowered v i d := by
  have hbump := hb.bump_pos
  have hrestart := hb.restart
  by_cases hband : |i - b.targetI * b.scaling| < I_TSH ∨ |v - b.targetV| < V_TSH
  · -- In a dead band the duty stays.
    rw [computeDrive_of_band b d hband, clampDrive_of_lt b hmin, min_eq_right hmax]
    refine iff_of_true le_rfl (Or.inr ?_)
    rcases hband with h | h
    · left
      linarith [(abs_lt.mp h).1]
    · right
      linarith [(abs_lt.mp h).1]
  · by_cases hbelow : i < b.targetI * b.scaling ∧ v < b.targetV
    · -- Below both targets the duty is lowered, unless that restarts it.
      rw [computeDrive_of_below b d hband hbelow]
      rw [not_or, not_lt, not_lt, abs_of_neg (by linarith), abs_of_neg (by linarith)] at hband
      constructor
      · intro hle
        left
        by_contra hlt
        rw [not_le] at hlt
        rw [clampDrive_of_lt b hlt] at hle
        linarith [min_le_right MAX_DRIVE (d - b.bumpAmt)]
      · rintro (h | h | h)
        · rw [clampDrive_of_le b h]
          linarith
        · linarith
        · linarith
    · -- Above a target the duty is raised.
      rw [computeDrive_of_above b d hband hbelow, clampDrive_of_lt b (by linarith)]
      refine iff_of_true (le_min hmax (by linarith)) (Or.inr ?_)
      have hi : 0 < I_TSH := by norm_num [I_TSH]
      have hv : 0 < V_TSH := by norm_num [V_TSH]
      by_cases hi' : i < b.targetI * b.scaling
      · right
        have hv' : ¬ v < b.targetV := fun h => hbelow ⟨hi', h⟩
        linarith
      · left
        linarith

/-- From full duty a valid charger sets `MAX_DRIVE`. -/
theorem computeDrive_one (b : Battery) (hb : b.Valid) (v i : ℚ) :
    b.computeDrive v i 1 = MAX_DRIVE := by
  have hbump := hb.bump_pos
  have hsmall := hb.bump_le
  have hlim : MIN_DRIVE < MAX_DRIVE := by norm_num [MIN_DRIVE, MAX_DRIVE]
  have hone : MAX_DRIVE < 1 := by norm_num [MAX_DRIVE]
  -- One bump down from full duty is still above `MAX_DRIVE`.
  by_cases hband : |i - b.targetI * b.scaling| < I_TSH ∨ |v - b.targetV| < V_TSH
  · rw [computeDrive_of_band b 1 hband, clampDrive_of_lt b (by linarith), min_eq_left hone.le]
  · by_cases hbelow : i < b.targetI * b.scaling ∧ v < b.targetV
    · rw [computeDrive_of_below b 1 hband hbelow, clampDrive_of_lt b (by linarith),
        min_eq_left (by linarith)]
    · rw [computeDrive_of_above b 1 hband hbelow, clampDrive_of_lt b (by linarith),
        min_eq_left (by linarith)]

/-! #### The charger over a limit -/

/-- Over a limit `compute_drive` raises the duty by the bump exactly when the duty
is already `MAX_DRIVE` or neither quantity is inside its dead band. -/
theorem computeDrive_eq_bump_iff (b : Battery) {v i d : ℚ} (hb : 0 < b.bumpAmt)
    (hmin : MIN_DRIVE < d) (hmax : d ≤ MAX_DRIVE) (h : b.OverLimit v i) :
    b.computeDrive v i d = min MAX_DRIVE (d + b.bumpAmt) ↔
      d = MAX_DRIVE ∨
        (I_TSH ≤ |i - b.targetI * b.scaling| ∧ V_TSH ≤ |v - b.targetV|) := by
  by_cases hband : |i - b.targetI * b.scaling| < I_TSH ∨ |v - b.targetV| < V_TSH
  · -- In a dead band the duty stays, which is a bump only at `MAX_DRIVE`.
    rw [computeDrive_of_band b d hband, clampDrive_of_lt b hmin, min_eq_right hmax]
    constructor
    · intro heq
      rcases min_choice MAX_DRIVE (d + b.bumpAmt) with hm | hm
      · exact Or.inl (heq.trans hm)
      · rw [hm] at heq
        linarith
    · rintro (hd | ⟨hi, hv⟩)
      · rw [hd, min_eq_left (by linarith)]
      · rcases hband with hlt | hlt
        · exact absurd hi (not_le.mpr hlt)
        · exact absurd hv (not_le.mpr hlt)
  · -- Outside both dead bands the duty is bumped.
    rw [computeDrive_of_above b d hband (not_below_of_overLimit h),
      clampDrive_of_lt b (by linarith)]
    rw [not_or, not_lt, not_lt] at hband
    exact ⟨fun _ => Or.inr hband, fun _ => rfl⟩

/-- A charger as the code sets it up: built by the constructor, then given a
voltage, a current and a scaling. -/
def Battery.charger (junk : Int × ℚ) (volts amps s : ℚ) : Battery :=
  (((Battery.new junk.1 junk.2).setVoltage volts).setCurrent amps).setScaling s

/-- The charger over a limit, whatever its targets and its scaling are. It moves
the duty up by the bump, toward less charge current, exactly when the duty is
already `MAX_DRIVE` or neither quantity is inside its dead band. Inside a dead
band it leaves the duty alone. -/
theorem computeDrive_overLimit_iff (junk : Int × ℚ) (volts amps s v i d : ℚ)
    (hmin : MIN_DRIVE < d) (hmax : d ≤ MAX_DRIVE)
    (h : (Battery.charger junk volts amps s).OverLimit v i) :
    (Battery.charger junk volts amps s).computeDrive v i d
        = min MAX_DRIVE (d + (Battery.charger junk volts amps s).bumpAmt) ↔
      d = MAX_DRIVE ∨
        (I_TSH ≤ |i - amps * s| ∧
          V_TSH ≤ |v - (Battery.charger junk volts amps s).targetV|) :=
  computeDrive_eq_bump_iff _ (by norm_num [Battery.charger, Battery.setScaling,
    Battery.setCurrent, Battery.setVoltage, Battery.new]) hmin hmax h

/-- At 20 V and 2 A, over both limits and outside both dead bands, the duty is
bumped. -/
theorem computeDrive_overLimit_both :
    (Battery.charger (0, 0) (168 / 10) 1000 1).computeDrive 20000 2000 (8 / 10)
      = min MAX_DRIVE (8 / 10 + (Battery.charger (0, 0) (168 / 10) 1000 1).bumpAmt) :=
  (computeDrive_overLimit_iff (0, 0) (168 / 10) 1000 1 20000 2000 (8 / 10)
    (by norm_num [MIN_DRIVE]) (by norm_num [MAX_DRIVE]) (Or.inl (by decide +kernel))).mpr
    (Or.inr ⟨by decide +kernel, by decide +kernel⟩)

/-- A pack at 20 V that charges with exactly the set current, at duty 0.8: the
current sits in its dead band, so the overvoltage does not move the duty. -/
theorem computeDrive_overLimit_ignored :
    ¬ ∀ s v i d : ℚ, MIN_DRIVE < d → d ≤ MAX_DRIVE →
      (Battery.charger (0, 0) (168 / 10) 1000 s).OverLimit v i →
      (Battery.charger (0, 0) (168 / 10) 1000 s).computeDrive v i d
        = min MAX_DRIVE (d + (Battery.charger (0, 0) (168 / 10) 1000 s).bumpAmt) := by
  intro h
  have hbad := h 1 20000 1000 (8 / 10) (by norm_num [MIN_DRIVE]) (by norm_num [MAX_DRIVE])
    (Or.inl (by decide +kernel))
  exact absurd hbad (by decide +kernel)

end UpsFirmware
