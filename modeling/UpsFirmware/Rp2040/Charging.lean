import UpsFirmware.Rp2040.Duties

/-!
# `UpsFirmware.Rp2040.Charging`: the charger in the loop

BOOST charges the pack with the duty of `Battery::compute_drive`. Every iteration in
BOOST scales the charge current by the battery voltage first, and the iteration that
enters BOOST starts from full duty, which is no charge current.

`battery_loopAt` says what the charger of a run is: the one that the constructor and the
two setters leave, with some scaling. Two results follow. `softStart_and_slew` is about
the duties of a stay in BOOST: the first one is `MAX_DRIVE`, and from one to the next the
duty moves by at most `bump_amt`, unless it restarts. `chargeTapered_iff` is about the
taper near full charge. Its last stage is dead, because the comparison with 16.5 V comes
first.
-/

set_option autoImplicit false

namespace UpsFirmware

/-! ### One step of the charger -/

/-- From a duty between the limits a valid charger moves by at most the bump, or it
restarts because a bump down would leave the limits. -/
theorem computeDrive_slew (b : Battery) (hb : b.Valid) (v i : ℚ) {d : ℚ} (hmin : MIN_DRIVE < d)
    (hmax : d ≤ MAX_DRIVE) :
    |b.computeDrive v i d - d| ≤ b.bumpAmt ∨
      b.computeDrive v i d = b.initialDrive ∧ d - b.bumpAmt ≤ MIN_DRIVE := by
  have hbump := hb.bump_pos
  by_cases hband : |i - b.targetI * b.scaling| < I_TSH ∨ |v - b.targetV| < V_TSH
  · rw [computeDrive_of_band b d hband, clampDrive_of_lt b hmin, min_eq_right hmax, sub_self,
      abs_zero]
    exact Or.inl hbump.le
  · by_cases hbelow : i < b.targetI * b.scaling ∧ v < b.targetV
    · rw [computeDrive_of_below b d hband hbelow]
      by_cases hrestart : d - b.bumpAmt ≤ MIN_DRIVE
      · exact Or.inr ⟨clampDrive_of_le b hrestart, hrestart⟩
      · -- One bump down.
        rw [clampDrive_of_lt b (not_le.mp hrestart), min_eq_right (by linarith),
          sub_sub_cancel_left, abs_neg, abs_of_pos hbump]
        exact Or.inl (le_refl _)
    · -- One bump up, which `MAX_DRIVE` can cut off.
      rw [computeDrive_of_above b d hband hbelow, clampDrive_of_lt b (by linarith)]
      have hup : d ≤ min MAX_DRIVE (d + b.bumpAmt) := le_min hmax (by linarith)
      have hle : min MAX_DRIVE (d + b.bumpAmt) ≤ d + b.bumpAmt := min_le_right _ _
      rw [abs_of_nonneg (sub_nonneg.mpr hup)]
      exact Or.inl (by linarith)

/-! ### The charger of a run -/

section Runs

variable (b : BootInputs) (env : Nat → Inputs)

/-- The battery voltage that iteration `n` measures, in mV. -/
def vbatAt (n : Nat) : Int := (Adc.sampleAll (env n).reads).1.vbat

/-- The battery current that iteration `n` measures, in mA. -/
def ibatAt (n : Nat) : Int := (Adc.sampleAll (env n).reads).1.ibat

/-- Only the scaling of the charger changes in a run. -/
theorem battery_loopAt (n : Nat) :
    ∃ s, (loopAt b env n).battery = Battery.charger b.batteryJunk (168 / 10) 1000 s := by
  induction n with
  | zero => exact ⟨1, rfl⟩
  | succ n ih =>
    obtain ⟨s, hs⟩ := ih
    rcases branch_casesAt b env n with ⟨he, hp⟩ | ⟨he, hp⟩ | he
    · rw [loopAt_succ, ((loopAt b env n).iterate_buck (env n) he hp).2.1]
      exact ⟨s, hs⟩
    · rw [loopAt_succ, ((loopAt b env n).iterate_boost (env n) he hp).2.1, Buckboost.scaled, hs]
      exact ⟨_, rfl⟩
    · rw [loopAt_succ, ((loopAt b env n).iterate_error (env n) he).2.1]
      exact ⟨s, hs⟩

/-- The charger of an iteration in BOOST. -/
theorem scaled_loopAt (n : Nat) :
    (loopAt b env n).scaled (env n)
      = Battery.charger b.batteryJunk (168 / 10) 1000
          (Buckboost.chargeScaling (vbatAt env n)) := by
  obtain ⟨s, hs⟩ := battery_loopAt b env n
  rw [Buckboost.scaled, hs]
  rfl

/-- The duty that an iteration in BOOST sets. -/
theorem dutiesAt_boost {n : Nat} (h : modeAt b env n = .boost) :
    dutiesAt b env n
      = [((loopAt b env n).scaled (env n)).computeDrive (vbatAt env n) (ibatAt env n)
          (if modeBefore b env n = .boost then (loopAt b env n).drive else 1)] := by
  obtain ⟨he, hp⟩ := (modeAt_boost_iff b env n).mp h
  rw [dutiesAt_eq, h, if_neg nofun, loopAt_succ,
    ((loopAt b env n).iterate_boost (env n) he hp).2.2.2]
  simp only [state_loopAt_eq_boost_iff]
  rfl

/-! ### Soft start and slew -/

/-- An iteration that enters BOOST, from boot, from BUCK or after a fault, sets
`MAX_DRIVE`. -/
def SoftStart (n : Nat) : Prop :=
  modeAt b env n = .boost → modeBefore b env n ≠ .boost → dutiesAt b env n = [MAX_DRIVE]

/-- Of two iterations in a row in BOOST each sets one duty, and the two differ by at most
`bump_amt`, or the second one is the restart from a duty that a bump would take to
`MIN_DRIVE`. -/
def Slewed (n : Nat) : Prop :=
  modeAt b env n = .boost → modeAt b env (n + 1) = .boost →
    ∃ d d', dutiesAt b env n = [d] ∧ dutiesAt b env (n + 1) = [d'] ∧
      (|d' - d| ≤ (loopAt b env n).battery.bumpAmt ∨
        d' = (loopAt b env n).battery.initialDrive ∧
          d - (loopAt b env n).battery.bumpAmt ≤ MIN_DRIVE)

/-- The constants of the charger do not change in a run. -/
theorem battery_constants (n k : Nat) :
    ((loopAt b env n).scaled (env n)).bumpAmt = (loopAt b env k).battery.bumpAmt ∧
      ((loopAt b env n).scaled (env n)).initialDrive = (loopAt b env k).battery.initialDrive := by
  obtain ⟨s, hs⟩ := battery_loopAt b env k
  rw [scaled_loopAt, hs]
  exact ⟨rfl, rfl⟩

/-- Every entry into BOOST of every run starts softly, and every stay in BOOST is
slewed. -/
theorem softStart_and_slew (n : Nat) : SoftStart b env n ∧ Slewed b env n := by
  constructor
  · intro hmode hentry
    have hvalid := Buckboost.valid_scaled (tuned_loopAt b env n) (env n)
    rw [dutiesAt_boost b env hmode, if_neg hentry, computeDrive_one _ hvalid]
  · intro hmode hnext
    have hvalid := Buckboost.valid_scaled (tuned_loopAt b env (n + 1)) (env (n + 1))
    have hfirst : dutiesAt b env n = [(loopAt b env (n + 1)).drive] := by
      rw [dutiesAt_eq, hmode, if_neg nofun]
    have hrange := dutyRange_drive b env (n := n) (by rw [hmode]; nofun)
    rw [hmode] at hrange
    obtain ⟨hbump, hinitial⟩ := battery_constants b env (n + 1) n
    -- The second iteration starts from the duty of the first one.
    have hsecond := dutiesAt_boost b env hnext
    rw [show modeBefore b env (n + 1) = .boost from hmode, if_pos rfl] at hsecond
    refine ⟨_, _, hfirst, hsecond, ?_⟩
    rw [← hbump, ← hinitial]
    exact computeDrive_slew _ hvalid _ _ hrange.1 hrange.2

/-! ### The taper -/

/-- The charge current that iteration `n` regulates to, in mA: `tg_i` in
`Battery::compute_drive`. -/
def setPointAt (n : Nat) : ℚ :=
  (loopAt b env (n + 1)).battery.targetI * (loopAt b env (n + 1)).battery.scaling

/-- The three stages of the taper, in mA. -/
def taper (vbat : Int) : ℚ := if vbat ≤ 16500 then 1000 else if vbat ≤ 16600 then 300 else 100

/-- In BOOST the set point follows the taper. -/
def SetPointTapered (n : Nat) : Prop :=
  modeAt b env n = .boost → setPointAt b env n = taper (vbatAt env n)

/-- An iteration that stays in BOOST above 16.6 V, with the pack charging and the duty
more than a bump above `MIN_DRIVE`. -/
structure NearFull (n : Nat) : Prop where
  mode : modeAt b env n = .boost
  stays : modeBefore b env n = .boost
  duty_lt : MIN_DRIVE + (loopAt b env n).battery.bumpAmt < (loopAt b env n).drive
  duty_le : (loopAt b env n).drive ≤ MAX_DRIVE
  voltage : 16600 < vbatAt env n
  current : 0 < ibatAt env n

/-- Near full charge no current is added: the duty is not lowered. -/
def NoCurrentAdded (n : Nat) : Prop :=
  NearFull b env n → ∀ d ∈ dutiesAt b env n, (loopAt b env n).drive ≤ d

/-- The set point of an iteration in BOOST. -/
theorem setPointAt_boost {n : Nat} (h : modeAt b env n = .boost) :
    setPointAt b env n = 1000 * Buckboost.chargeScaling (vbatAt env n) := by
  obtain ⟨he, hp⟩ := (modeAt_boost_iff b env n).mp h
  rw [setPointAt, loopAt_succ, ((loopAt b env n).iterate_boost (env n) he hp).2.1, scaled_loopAt]
  rfl

/-- The scaling follows the taper up to 16.6 V only. -/
theorem chargeScaling_eq_taper_iff (vbat : Int) :
    1000 * Buckboost.chargeScaling vbat = taper vbat ↔ vbat ≤ 16600 := by
  rw [Buckboost.chargeScaling, taper]
  by_cases hfirst : vbat ≤ 16500
  · rw [if_neg (not_lt.mpr hfirst), if_neg (by omega), if_pos hfirst]
    exact iff_of_true (by norm_num) (by omega)
  · rw [if_pos (by omega), if_neg hfirst]
    by_cases hsecond : vbat ≤ 16600
    · rw [if_pos hsecond]
      exact iff_of_true (by norm_num) hsecond
    · -- The second stage goes on above 16.6 V.
      rw [if_neg hsecond]
      exact iff_of_false (by norm_num) hsecond

/-- The set point and the target of the charger above 16.6 V. -/
theorem scaled_above {n : Nat} (h : 16600 < vbatAt env n) :
    ((loopAt b env n).scaled (env n)).targetI * ((loopAt b env n).scaled (env n)).scaling = 300 ∧
      ((loopAt b env n).scaled (env n)).targetV = 16800 := by
  have htarget : truncInt (168 / 10 * 1000) = 16800 := by decide +kernel
  rw [scaled_loopAt, Buckboost.chargeScaling, if_pos (by omega)]
  exact ⟨by norm_num [Battery.charger, Battery.setScaling, Battery.setCurrent], htarget⟩

/-- Near full charge the duty is not lowered exactly when the current is less than the
dead band below the 300 mA of the second stage, or the voltage is at its target. -/
theorem noCurrentAdded_at_iff {n : Nat} (h : NearFull b env n) :
    (∀ d ∈ dutiesAt b env n, (loopAt b env n).drive ≤ d) ↔
      200 < ibatAt env n ∨ 16800 ≤ vbatAt env n := by
  have hvalid := Buckboost.valid_scaled (tuned_loopAt b env n) (env n)
  have hpos := (tuned_loopAt b env n).battery.bump_pos
  have hlow := h.duty_lt
  obtain ⟨hset, htarget⟩ := scaled_above b env h.voltage
  have hbump := (battery_constants b env n n).1
  rw [dutiesAt_boost b env h.mode, if_pos h.stays]
  simp only [List.mem_singleton, forall_eq]
  rw [le_computeDrive_iff _ hvalid (by linarith) h.duty_le, Battery.NotLowered, hset, htarget,
    hbump]
  -- The measurements are whole numbers.
  have hcurrent : 300 - I_TSH < (ibatAt env n : ℚ) ↔ 200 < ibatAt env n := by
    rw [I_TSH, ← Int.cast_lt (R := ℚ)]
    norm_num
  have hvoltage : ((16800 : Int) : ℚ) - V_TSH < (vbatAt env n : ℚ) ↔ 16800 ≤ vbatAt env n := by
    have hnext : ((16800 : Int) : ℚ) - V_TSH < (vbatAt env n : ℚ) → 16799 < vbatAt env n := by
      intro hlt
      rw [← Int.cast_lt (R := ℚ)]
      norm_num [V_TSH] at hlt ⊢
      linarith
    constructor
    · intro hlt
      exact hnext hlt
    · intro hle
      rw [← Int.cast_le (R := ℚ)] at hle
      norm_num [V_TSH] at hle ⊢
      linarith
  rw [hcurrent, hvoltage]
  -- A duty this far above `MIN_DRIVE` does not restart.
  exact or_iff_right (by linarith)

/-- The charge taper in iteration `n`: the set point and, near full charge, the duty. -/
def ChargeTapered (n : Nat) : Prop := SetPointTapered b env n ∧ NoCurrentAdded b env n

/-- The taper is right in an iteration in BOOST exactly up to 16.6 V. Above, the set
point is the one of the second stage, and current is added unless the current is above
200 mA or the voltage is at its target. -/
theorem chargeTapered_iff (n : Nat) :
    (ChargeTapered b env n ↔ (modeAt b env n = .boost → vbatAt env n ≤ 16600)) ∧
    (NoCurrentAdded b env n ↔
      (NearFull b env n → 200 < ibatAt env n ∨ 16800 ≤ vbatAt env n)) := by
  have hset : SetPointTapered b env n ↔ (modeAt b env n = .boost → vbatAt env n ≤ 16600) := by
    refine forall_congr' fun hmode => ?_
    rw [setPointAt_boost b env hmode, chargeScaling_eq_taper_iff]
  have hduty : NoCurrentAdded b env n ↔
      (NearFull b env n → 200 < ibatAt env n ∨ 16800 ≤ vbatAt env n) :=
    forall_congr' fun hnear => noCurrentAdded_at_iff b env hnear
  refine ⟨?_, hduty⟩
  rw [ChargeTapered, hset]
  constructor
  · exact And.left
  · intro hlow
    refine ⟨hlow, ?_⟩
    -- Up to 16.6 V nothing is asked of the duty.
    intro hnear
    have hle := hlow hnear.mode
    have hlt := hnear.voltage
    omega

/-- A bench with mains on which the pack is at 16655 mV and charges with 150 mA. -/
def nearlyFull (n : Nat) : Inputs :=
  { benchInputs n with
    reads := fun i => if i = CHAN_VBAT then ⟨0, 1136⟩ else ⟨0, 150⟩ }

/-- On that bench iteration 1 regulates to 300 mA and lowers the duty. -/
theorem chargeTapered_fails :
    ¬ (∀ b env n, SetPointTapered b env n) ∧ ¬ ∀ b env n, NoCurrentAdded b env n := by
  have hmode : modeAt benchBoot nearlyFull 1 = .boost := by decide +kernel
  constructor
  · intro hall
    have hset := hall benchBoot nearlyFull 1 hmode
    rw [setPointAt_boost _ _ hmode, chargeScaling_eq_taper_iff] at hset
    exact absurd hset (by decide +kernel)
  · intro hall
    have hnear : NearFull benchBoot nearlyFull 1 :=
      ⟨hmode, by decide +kernel, by decide +kernel, by decide +kernel, by decide +kernel,
        by decide +kernel⟩
    have hadded := (noCurrentAdded_at_iff _ _ hnear).mp (hall benchBoot nearlyFull 1 hnear)
    exact absurd hadded (by decide +kernel)

end Runs

end UpsFirmware
