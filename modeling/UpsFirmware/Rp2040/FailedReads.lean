import UpsFirmware.Rp2040.Modes

/-!
# `UpsFirmware.Rp2040.FailedReads`: what a failed ADC read does

`Adc::read` returns `-1` when `adc_read` fails, and the loop uses the `-1` as a
measurement of `-1` mV. `FailedReadsUnused` is what a failed read should not do:
raise the BUCK duty, lower the BOOST duty, or reach a telemetry frame.
`failedReadsUnused_iff` says in which iterations of which runs it does none of
that.

The duty of an iteration is compared with that of the last one in the same mode
(`lastIn`), which may be long ago. `duty_of_lastIn_buck` reads the last BUCK duty off the
regulator, and `duty_of_lastIn_boost` the last BOOST duty off `drive`. A BUCK duty is a
number when the time step of its iteration is not zero (`Clocked`), and the law compares
such duties. `Buckboost.Tuned` keeps the parameters of the two regulators.
-/

set_option autoImplicit false

namespace UpsFirmware

namespace Buckboost

/-! ### The regulators in an iteration -/

/-- The parameters of the two regulators. -/
structure Tuned (s : Buckboost) : Prop where
  buckPid : s.buckPid.kd = 0
  battery : s.battery.Valid

theorem tuned_boot (b : BootInputs) : (boot b).Tuned where
  buckPid := rfl
  battery := {
    bump_pos := by norm_num [boot, Battery.setCurrent, Battery.setVoltage, Battery.new]
    bump_le := by
      norm_num [boot, Battery.setCurrent, Battery.setVoltage, Battery.new, MAX_DRIVE]
    restart := by
      norm_num [boot, Battery.setCurrent, Battery.setVoltage, Battery.new, MIN_DRIVE]
    restart_le := by
      norm_num [boot, Battery.setCurrent, Battery.setVoltage, Battery.new, MAX_DRIVE] }

section Iterate

variable (s : Buckboost) (inp : Inputs)

/-- The charger with the scaling that an iteration sets. -/
def scaled : Battery :=
  s.battery.setScaling (chargeScaling (Adc.sampleAll inp.reads).1.vbat)

/-- The regulators after an iteration in BUCK. -/
theorem iterate_buck (he : s.errors inp = 0) (hp : inp.vinDetect = false) :
    (s.iterate inp).1.state = .buck ∧ (s.iterate inp).1.battery = s.battery ∧
    (s.iterate inp).1.buckPid
      = s.buckPid.compute ((Adc.sampleAll inp.reads).1.vout / 1000) inp.cycles ∧
    (s.iterate inp).1.drive = (s.iterate inp).1.buckPid.drive := by
  rw [iterate_fst, mode_buck _ inp.cycles he hp, buck_fst]
  refine ⟨rfl, telemetry_battery _ _ _, ?_, rfl⟩
  simp only [telemetry_buckPid, telemetry_adc]
  rfl

/-- The regulators after an iteration in BOOST. -/
theorem iterate_boost (he : s.errors inp = 0) (hp : inp.vinDetect = true) :
    (s.iterate inp).1.state = .boost ∧ (s.iterate inp).1.battery = s.scaled inp ∧
    (s.iterate inp).1.buckPid = s.buckPid ∧
    (s.iterate inp).1.drive
      = (s.scaled inp).computeDrive (Adc.sampleAll inp.reads).1.vbat
          (Adc.sampleAll inp.reads).1.ibat (if s.state = .boost then s.drive else 1) := by
  rw [iterate_fst, mode_boost _ inp.cycles he hp, boost_fst]
  refine ⟨rfl, ?_, telemetry_buckPid _ _ _, ?_⟩
  · simp only [telemetry_battery, telemetry_adc]
    rfl
  · simp only [telemetry_battery, telemetry_adc, telemetry_state, telemetry_drive]
    rfl

/-- The regulators after an iteration in ERROR. -/
theorem iterate_error (he : s.errors inp ≠ 0) :
    (s.iterate inp).1.state = .none ∧ (s.iterate inp).1.battery = s.battery ∧
    (s.iterate inp).1.buckPid = s.buckPid := by
  rw [iterate_fst, mode_error _ inp.cycles he, error_fst]
  exact ⟨rfl, telemetry_battery _ _ _, telemetry_buckPid _ _ _⟩

/-- Scaling the charge current keeps a charger valid. -/
theorem valid_scaled {s : Buckboost} (hs : s.Tuned) (inp : Inputs) : (s.scaled inp).Valid :=
  ⟨hs.battery.bump_pos, hs.battery.bump_le, hs.battery.restart, hs.battery.restart_le⟩

theorem tuned_iterate {s : Buckboost} (hs : s.Tuned) (inp : Inputs) :
    (s.iterate inp).1.Tuned := by
  have hpid : (s.iterate inp).1.buckPid.kd = s.buckPid.kd := by
    rcases s.branch_cases inp with ⟨he, hp⟩ | ⟨he, hp⟩ | he
    · rw [(s.iterate_buck inp he hp).2.2.1]
      rfl
    · rw [(s.iterate_boost inp he hp).2.2.1]
    · rw [(s.iterate_error inp he).2.2]
  have hbattery : (s.iterate inp).1.battery.Valid := by
    rcases s.branch_cases inp with ⟨he, hp⟩ | ⟨he, hp⟩ | he
    · rw [(s.iterate_buck inp he hp).2.1]
      exact hs.battery
    · -- Only BOOST writes the charger, and only its scaling.
      rw [(s.iterate_boost inp he hp).2.1]
      exact valid_scaled hs inp
    · rw [(s.iterate_error inp he).2.1]
      exact hs.battery
  exact ⟨hpid.trans hs.buckPid, hbattery⟩

end Iterate

end Buckboost

/-! ### The last duty of a mode -/

section Runs

variable (b : BootInputs) (env : Nat → Inputs)

theorem tuned_loopAt (n : Nat) : (loopAt b env n).Tuned :=
  Lib.stateAt_invariant env Buckboost.Tuned (Buckboost.tuned_boot b)
    (fun _ inp hs => Buckboost.tuned_iterate hs inp) n

/-- The last iteration in mode `m` before iteration `n`. -/
def lastIn (m : Mode) : Nat → Option Nat
  | 0 => none
  | n + 1 => if modeAt b env n = m then some n else lastIn m n

/-- The duty after the last BUCK iteration is what the regulator's state says. -/
theorem duty_of_lastIn_buck {n k : Nat} (h : lastIn b env .buck n = some k) :
    (outputsAt b env (k + 1)).duty = some (clampDuty (loopAt b env n).buckPid.raw) := by
  induction n with
  | zero => cases h
  | succ n ih =>
    rw [lastIn] at h
    by_cases hmode : modeAt b env n = .buck
    · obtain ⟨he, hp⟩ := (modeAt_buck_iff b env n).mp hmode
      obtain ⟨-, -, hpid, hdrive⟩ := (loopAt b env n).iterate_buck (env n) he hp
      rw [if_pos hmode, Option.some.injEq] at h
      rw [← h, outputsAt_succ, if_pos he, loopAt_succ, hdrive, hpid]
      exact congrArg some (drive_compute _ (tuned_loopAt b env n).buckPid _ _)
    · -- The other modes leave the regulator alone.
      rw [if_neg hmode] at h
      rw [ih h, loopAt_succ]
      rcases branch_casesAt b env n with hbuck | ⟨he, hp⟩ | he
      · exact absurd ((modeAt_buck_iff b env n).mpr hbuck) hmode
      · rw [((loopAt b env n).iterate_boost (env n) he hp).2.2.1]
      · rw [((loopAt b env n).iterate_error (env n) he).2.2]

/-- The BOOST duties are between the limits. -/
theorem duty_boost_mem {n k : Nat} (h : lastIn b env .boost n = some k) {d : ℚ}
    (hd : d ∈ (outputsAt b env (k + 1)).duty) : MIN_DRIVE < d ∧ d ≤ MAX_DRIVE := by
  induction n with
  | zero => cases h
  | succ n ih =>
    rw [lastIn] at h
    by_cases hmode : modeAt b env n = .boost
    · obtain ⟨he, hp⟩ := (modeAt_boost_iff b env n).mp hmode
      obtain ⟨-, -, -, hdrive⟩ := (loopAt b env n).iterate_boost (env n) he hp
      rw [if_pos hmode, Option.some.injEq] at h
      rw [← h, outputsAt_succ, if_pos he, Option.mem_some_iff] at hd
      rw [← hd, loopAt_succ, hdrive]
      exact computeDrive_mem _ (Buckboost.valid_scaled (tuned_loopAt b env n) (env n)) _ _ _
    · rw [if_neg hmode] at h
      exact ih h

/-- While the loop stays in BOOST, the last BOOST duty is in `drive`. -/
theorem duty_of_lastIn_boost {n : Nat} (h : (loopAt b env n).state = .boost) :
    ∃ k, lastIn b env .boost n = some k ∧
      (outputsAt b env (k + 1)).duty = some (loopAt b env n).drive := by
  cases n with
  | zero => cases h
  | succ n =>
    have hmode : modeAt b env n = .boost := (state_loopAt_eq_boost_iff b env (n + 1)).mp h
    refine ⟨n, by rw [lastIn, if_pos hmode], ?_⟩
    rw [outputsAt_succ, if_pos ((modeAt_boost_iff b env n).mp hmode).1]

/-! ### The law -/

/-- Some channel fails in iteration `n`. -/
def SomeFailed (n : Nat) : Prop := ∃ i, ((env n).reads i).Failed

/-- A member of a message is what `sample_all` and the tick compute from the `-1` of
a channel that failed. -/
def CarriesSentinel (reads : Fin 4 → AdcRead) (m : Msg) : Prop :=
  ((reads CHAN_VOUT).Failed ∧ m.vout = UInt16.ofInt (scaleVout (-1))) ∨
  ((reads CHAN_VBAT).Failed ∧
    (m.vbat = UInt16.ofInt (scaleVbat (-1)) ∨ m.gas = gasOf (scaleVbat (-1)))) ∨
  ((reads CHAN_IOUT).Failed ∧ m.iout = UInt16.ofInt (scaleIout (-1))) ∨
  ((reads CHAN_IBAT).Failed ∧ m.ibat = UInt16.ofInt (scaleIbat (-1)))

/-- The time step of the BUCK regulator in iteration `n` is not zero, so the duty is a
number. -/
def Clocked (n : Nat) : Prop := (loopAt b env n).buckPid.dt (env n).cycles ≠ 0

/-- If a channel fails in iteration `n`, the iteration does not raise the BUCK duty,
does not lower the BOOST duty, and sends no frame that carries the sentinel. The BUCK
duties are those of time steps that are not zero. -/
def FailedReadsUnused (n : Nat) : Prop :=
  SomeFailed env n →
    (modeAt b env n = .buck → Clocked b env n →
      ∀ k ∈ lastIn b env .buck n, Clocked b env k →
      ∀ d ∈ (outputsAt b env (k + 1)).duty, ∀ d' ∈ (outputsAt b env (n + 1)).duty, d' ≤ d) ∧
    (modeAt b env n = .boost → ∀ k ∈ lastIn b env .boost n,
      ∀ d ∈ (outputsAt b env (k + 1)).duty, ∀ d' ∈ (outputsAt b env (n + 1)).duty, d ≤ d') ∧
    ∀ m, FrameSent b env n m → ¬ CarriesSentinel (env n).reads m

/-- The BUCK part of the law in iteration `n`, against the last BUCK iteration `k`. -/
theorem buck_unused_iff {n : Nat} (hmode : modeAt b env n = .buck) {k : Nat}
    (hk : lastIn b env .buck n = some k) :
    (∀ d ∈ (outputsAt b env (k + 1)).duty, ∀ d' ∈ (outputsAt b env (n + 1)).duty, d' ≤ d) ↔
      (loopAt b env n).buckPid.NotRaised ((Adc.sampleAll (env n).reads).1.vout / 1000) := by
  obtain ⟨he, hp⟩ := (modeAt_buck_iff b env n).mp hmode
  obtain ⟨-, -, hpid, hdrive⟩ := (loopAt b env n).iterate_buck (env n) he hp
  have hle := drive_compute_le_iff (loopAt b env n).buckPid (tuned_loopAt b env n).buckPid
    ((Adc.sampleAll (env n).reads).1.vout / 1000) (env n).cycles
  have hduty : (outputsAt b env (n + 1)).duty = some (loopAt b env (n + 1)).drive := by
    rw [outputsAt_succ, if_pos he]
  rw [loopAt_succ, hdrive, hpid] at hduty
  rw [← hle, hduty, duty_of_lastIn_buck b env hk]
  simp

/-- The BOOST part. Only an iteration that stays in BOOST can lower the duty. -/
theorem boost_unused_iff {n : Nat} (hmode : modeAt b env n = .boost) :
    (∀ k ∈ lastIn b env .boost n, ∀ d ∈ (outputsAt b env (k + 1)).duty,
        ∀ d' ∈ (outputsAt b env (n + 1)).duty, d ≤ d') ↔
      ((loopAt b env n).state = .boost →
        ((loopAt b env n).scaled (env n)).NotLowered (Adc.sampleAll (env n).reads).1.vbat
          (Adc.sampleAll (env n).reads).1.ibat (loopAt b env n).drive) := by
  obtain ⟨he, hp⟩ := (modeAt_boost_iff b env n).mp hmode
  obtain ⟨-, -, -, hdrive⟩ := (loopAt b env n).iterate_boost (env n) he hp
  have hvalid := Buckboost.valid_scaled (tuned_loopAt b env n) (env n)
  have hduty : (outputsAt b env (n + 1)).duty = some (loopAt b env (n + 1)).drive := by
    rw [outputsAt_succ, if_pos he]
  rw [loopAt_succ, hdrive] at hduty
  rw [hduty]
  by_cases hstate : (loopAt b env n).state = .boost
  · -- The duty that the charger starts from is the last BOOST duty.
    obtain ⟨k, hk, hlast⟩ := duty_of_lastIn_boost b env hstate
    obtain ⟨hmin, hmax⟩ := duty_boost_mem b env hk (by rw [hlast]; rfl)
    rw [hk, if_pos hstate, ← le_computeDrive_iff _ hvalid hmin hmax]
    simp [hstate, hlast]
  · -- An entry starts from full duty, and no BOOST duty is above `MAX_DRIVE`.
    rw [if_neg hstate, computeDrive_one _ hvalid]
    refine iff_of_true ?_ (fun h => absurd h hstate)
    intro k hk d hd d' hd'
    cases hd'
    exact (duty_boost_mem b env hk hd).2

/-- A tick in an iteration with a failed channel carries the sentinel. -/
theorem carriesSentinel_telemetryAt {n : Nat} (h : SomeFailed env n) :
    CarriesSentinel (env n).reads (telemetryAt b env n) := by
  -- A failed channel reads as `-1`, and its member is the scaled `-1`.
  have hread : ∀ i, ((env n).reads i).Failed → (Adc.read (env n).reads i).1 = -1 := by
    intro i hi
    rw [Adc.read_fst, if_pos hi]
  have hvout : (telemetryAt b env n).vout
      = UInt16.ofInt (scaleVout (Adc.read (env n).reads CHAN_VOUT).1) := rfl
  have hvbat : (telemetryAt b env n).vbat
      = UInt16.ofInt (scaleVbat (Adc.read (env n).reads CHAN_VBAT).1) := rfl
  have hiout : (telemetryAt b env n).iout
      = UInt16.ofInt (scaleIout (Adc.read (env n).reads CHAN_IOUT).1) := rfl
  have hibat : (telemetryAt b env n).ibat
      = UInt16.ofInt (scaleIbat (Adc.read (env n).reads CHAN_IBAT).1) := rfl
  obtain ⟨i, hi⟩ := h
  match i, hi with
  | 0, hi => exact Or.inl ⟨hi, by rw [hvout, hread CHAN_VOUT hi]⟩
  | 1, hi => exact Or.inr (Or.inl ⟨hi, Or.inl (by rw [hvbat, hread CHAN_VBAT hi])⟩)
  | 2, hi => exact Or.inr (Or.inr (Or.inl ⟨hi, by rw [hiout, hread CHAN_IOUT hi]⟩))
  | 3, hi => exact Or.inr (Or.inr (Or.inr ⟨hi, by rw [hibat, hread CHAN_IBAT hi]⟩))

/-- The telemetry part. -/
theorem telemetry_unused_iff {n : Nat} (h : SomeFailed env n) :
    (∀ m, FrameSent b env n m → ¬ CarriesSentinel (env n).reads m) ↔ n % 1001 ≠ 0 := by
  constructor
  · intro hclean htick
    exact hclean _ ((frameSent_iff b env n _).mpr ⟨htick, rfl⟩)
      (carriesSentinel_telemetryAt b env h)
  · intro hne m hm _
    exact hne ((frameSent_iff b env n m).mp hm).1

/-- If a channel fails in iteration `n`, the iteration is not a tick. In BUCK, unless
it is the first BUCK iteration, the voltage that the iteration uses does not raise
the duty, as far as the two time steps give duties to compare. In BOOST, unless it enters
BOOST, the values that it uses do not make the charger add current. -/
def FailedReadsHidden (n : Nat) : Prop :=
  SomeFailed env n →
    n % 1001 ≠ 0 ∧
    (modeAt b env n = .buck → Clocked b env n → ∀ k ∈ lastIn b env .buck n, Clocked b env k →
      (loopAt b env n).buckPid.NotRaised ((Adc.sampleAll (env n).reads).1.vout / 1000)) ∧
    (modeAt b env n = .boost → (loopAt b env n).state = .boost →
      ((loopAt b env n).scaled (env n)).NotLowered (Adc.sampleAll (env n).reads).1.vbat
        (Adc.sampleAll (env n).reads).1.ibat (loopAt b env n).drive)

/-- In every iteration of every run, the law holds exactly when a failed read is
hidden. -/
theorem failedReadsUnused_iff (n : Nat) :
    FailedReadsUnused b env n ↔ FailedReadsHidden b env n := by
  refine forall_congr' fun hfailed => ?_
  have hbuck := forall_congr' fun h : modeAt b env n = .buck =>
    forall_congr' fun _ : Clocked b env n =>
    forall₂_congr fun k (hk : k ∈ lastIn b env .buck n) =>
    forall_congr' fun _ : Clocked b env k => buck_unused_iff b env h hk
  have hboost := forall_congr' fun h : modeAt b env n = .boost => boost_unused_iff b env h
  rw [hbuck, hboost, telemetry_unused_iff b env hfailed]
  constructor
  · rintro ⟨hb, hc, ht⟩
    exact ⟨ht, hb, hc⟩
  · rintro ⟨ht, hb, hc⟩
    exact ⟨hb, hc, ht⟩

/-- A bench without mains. The output is at 12 V in iteration 0, and channel 0 fails
afterwards. -/
def brokenChannel (n : Nat) : Inputs :=
  { benchInputs n with
    vinDetect := false
    reads := fun i => if i = CHAN_VOUT ∧ n ≠ 0 then ⟨-5, 0⟩ else ⟨0, 2322⟩ }

/-- On that bench the `-1` of iteration 1 raises the BUCK duty from the 0.02 of
iteration 0, though the output is where it should be. The counter moves on before both
iterations. -/
theorem failedReadsUnused_fails : ¬ ∀ b env n, FailedReadsUnused b env n := by
  intro hall
  have hbuck : modeAt benchBoot brokenChannel 1 = .buck := by decide +kernel
  have hlast : lastIn benchBoot brokenChannel .buck 1 = some 0 := by decide +kernel
  have hclock0 : (loopAt benchBoot brokenChannel 0).buckPid.dt (brokenChannel 0).cycles ≠ 0 := by
    decide +kernel
  have hclock1 : (loopAt benchBoot brokenChannel 1).buckPid.dt (brokenChannel 1).cycles ≠ 0 := by
    decide +kernel
  have hlaw := (hall benchBoot brokenChannel 1 ⟨CHAN_VOUT, by decide⟩).1 hbuck hclock1 0 hlast
    hclock0
  exact absurd ((buck_unused_iff _ _ hbuck hlast).mp hlaw) (by decide +kernel)

end Runs

end UpsFirmware
