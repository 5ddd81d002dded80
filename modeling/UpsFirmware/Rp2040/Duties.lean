import UpsFirmware.Rp2040.FailedReads

/-!
# `UpsFirmware.Rp2040.Duties`: the duties of a run, and when the power stage gets them

What an iteration does to the power stage comes last in it. `iterate_snd_eq` says
what that is: BUCK raises `pwm_en` and sets its duty, BOOST sets its duty and raises
`pwm_en`, ERROR lowers `pwm_en`.

Two results follow. `pwmSet_dutyRange` bounds every duty of every run.
`enablesFresh_at_iff` and `enablesFreshly_iff` are about the moments at which `pwm_en`
rises, in an iteration and in a run. The law is that the duty in force at such a moment
was set in the same iteration. BOOST keeps it. BUCK
breaks it whenever it finds `pwm_en` low, because it raises the pin one statement
before it sets the duty.

A duty of BUCK is bounded because its clamps are. The source computes no number in a
`Pid::compute` with a time step of zero, and these results say nothing about such a
call.
-/

set_option autoImplicit false

namespace UpsFirmware

/-! ### What an iteration does to the power stage -/

/-- The effects of a mode on the power stage, for the duty `d`. -/
def Mode.drives : Mode → ℚ → List Effect
  | .buck, d => [.gpioPinSet .pwmEn true, .pwmSet d]
  | .boost, d => [.pwmSet d, .gpioPinSet .pwmEn true]
  | .error, _ => [.gpioPinSet .pwmEn false]

namespace Buckboost

/-- A mode touches the power stage behind its entry only. -/
theorem mode_snd_eq (s : Buckboost) (errors : UInt8) (powered : Bool) (cycles : UInt32) :
    ∃ entry, (∀ e ∈ entry, e.Harmless) ∧
      (s.mode errors powered cycles).2
        = entry ++ (Mode.of errors powered).drives (s.mode errors powered cycles).1.drive := by
  refine mode_induction s cycles (P := fun r => ∃ entry, (∀ e ∈ entry, e.Harmless) ∧
    r.2 = entry ++ (Mode.of errors powered).drives r.1.drive) ?_ ?_ ?_
  · intro he hp
    rw [Mode.of, if_pos he, hp]
    exact ⟨s.enterBuck.2, s.harmless_enterBuck, rfl⟩
  · intro he hp
    rw [Mode.of, if_pos he, hp]
    exact ⟨s.enterBoost.2, s.harmless_enterBoost, rfl⟩
  · intro he
    rw [Mode.of, if_neg he]
    exact ⟨s.enterError.2, s.harmless_enterError, rfl⟩

/-- An iteration touches the power stage at its end only, in the order of its
mode. -/
theorem iterate_snd_eq (s : Buckboost) (inp : Inputs) :
    ∃ quiet, (∀ e ∈ quiet, e.Harmless) ∧
      (s.iterate inp).2
        = quiet ++ (Mode.of (s.errors inp) inp.vinDetect).drives (s.iterate inp).1.drive := by
  obtain ⟨entry, hentry, heq⟩ := mode_snd_eq ((s.sense inp).1.telemetry inp.vinDetect inp).1
    (s.errors inp) inp.vinDetect inp.cycles
  refine ⟨(s.sense inp).2 ++ ((s.sense inp).1.telemetry inp.vinDetect inp).2 ++ entry, ?_, ?_⟩
  · intro e he
    -- sampling and checking, telemetry, the entry
    rcases List.mem_append.mp he with he | he
    · rcases List.mem_append.mp he with he | he
      · exact s.harmless_sense inp e he
      · exact (s.sense inp).1.harmless_telemetry inp.vinDetect inp e he
    · exact hentry e he
  · rw [List.append_assoc _ entry]
    exact congrArg
      ((s.sense inp).2 ++ ((s.sense inp).1.telemetry inp.vinDetect inp).2 ++ ·) heq

end Buckboost

/-! ### The range of the duties -/

/-- The duties that a mode may set. -/
def Mode.DutyRange : Mode → ℚ → Prop
  | .buck, d => 2 / 100 ≤ d ∧ d ≤ MAX_DRIVE
  | .boost, d => MIN_DRIVE < d ∧ d ≤ MAX_DRIVE
  | .error, _ => False

/-- The two clamps of the BUCK regulator. -/
theorem clampDuty_mem (x : ℚ) : 2 / 100 ≤ clampDuty x ∧ clampDuty x ≤ MAX_DRIVE := by
  have hlim : (2 / 100 : ℚ) ≤ MAX_DRIVE := by norm_num [MAX_DRIVE]
  rw [clampDuty_eq]
  exact ⟨le_max_left _ _, max_le hlim (min_le_left _ _)⟩

section Runs

variable (b : BootInputs) (env : Nat → Inputs)

/-- Iteration `n` begins with effects that leave the power stage alone, and ends with
the ones of its mode. -/
theorem effectsAt_eq (n : Nat) :
    ∃ quiet, (∀ e ∈ quiet, e.Harmless) ∧
      effectsAt b env n
        = quiet ++ (modeAt b env n).drives (loopAt b env (n + 1)).drive :=
  (loopAt b env n).iterate_snd_eq (env n)

/-- After an iteration that is not an ERROR, `drive` is in the range of its mode. -/
theorem dutyRange_drive {n : Nat} (h : modeAt b env n ≠ .error) :
    (modeAt b env n).DutyRange (loopAt b env (n + 1)).drive := by
  rcases branch_casesAt b env n with ⟨he, hp⟩ | ⟨he, hp⟩ | he
  · obtain ⟨-, -, hpid, hdrive⟩ := (loopAt b env n).iterate_buck (env n) he hp
    rw [(modeAt_buck_iff b env n).mpr ⟨he, hp⟩, loopAt_succ, hdrive, hpid,
      drive_compute _ (tuned_loopAt b env n).buckPid]
    exact clampDuty_mem _
  · -- Whatever `drive` was before, the charger's clamps bring it into the range.
    obtain ⟨-, -, -, hdrive⟩ := (loopAt b env n).iterate_boost (env n) he hp
    rw [(modeAt_boost_iff b env n).mpr ⟨he, hp⟩, loopAt_succ, hdrive]
    exact computeDrive_mem _ (Buckboost.valid_scaled (tuned_loopAt b env n) (env n)) _ _ _
  · exact absurd ((modeAt_error_iff b env n).mpr he) h

/-- The duties that iteration `n` sets. -/
def dutiesAt (n : Nat) : List ℚ := pwmDuties (effectsAt b env n)

/-- An iteration that is not an ERROR sets one duty, the new `drive`. -/
theorem dutiesAt_eq (n : Nat) :
    dutiesAt b env n
      = if modeAt b env n = .error then [] else [(loopAt b env (n + 1)).drive] := by
  obtain ⟨quiet, hquiet, heq⟩ := effectsAt_eq b env n
  have hnone : pwmDuties quiet = [] := pwmDuties_of_harmless hquiet
  rw [dutiesAt, heq, pwmDuties, List.filterMap_append, ← pwmDuties, ← pwmDuties, hnone]
  cases modeAt b env n with
  | buck => rfl
  | boost => rfl
  | error => rfl

/-- The only duty that an iteration sets is the new `drive`. -/
theorem pwmSet_effectsAt {n : Nat} {d : ℚ} (h : .pwmSet d ∈ effectsAt b env n) :
    modeAt b env n ≠ .error ∧ d = (loopAt b env (n + 1)).drive := by
  have hmem : d ∈ dutiesAt b env n := List.mem_filterMap.mpr ⟨.pwmSet d, h, rfl⟩
  rw [dutiesAt_eq] at hmem
  split at hmem
  · cases hmem
  · rename_i hmode
    exact ⟨hmode, List.mem_singleton.mp hmem⟩

/-- Every duty that a run sets is in the range of the mode that sets it, in the first
iteration after a change of mode as in any other. -/
theorem pwmSet_dutyRange {n : Nat} {d : ℚ} (h : .pwmSet d ∈ effectsAt b env n) :
    (modeAt b env n).DutyRange d := by
  obtain ⟨hmode, hd⟩ := pwmSet_effectsAt b env h
  rw [hd]
  exact dutyRange_drive b env hmode

/-- The first iteration of a bench with mains is in BOOST, and sets the charger's upper
limit. -/
theorem pwmSet_dutyRange_bench : Mode.DutyRange .boost MAX_DRIVE := by
  have hmode : modeAt benchBoot benchInputs 0 = .boost := by decide +kernel
  have hset : .pwmSet MAX_DRIVE ∈ effectsAt benchBoot benchInputs 0 := by
    decide +kernel
  rw [← hmode]
  exact pwmSet_dutyRange benchBoot benchInputs hset

/-! ### Enabling the power stage -/

/-- The duty that the regulator of a mode computes in an iteration. -/
def Mode.regulated (s : Buckboost) (inp : Inputs) : Mode → Option ℚ
  | .buck => some (s.buckPid.compute ((Adc.sampleAll inp.reads).1.vout / 1000) inp.cycles).getDuc
  | .boost => some ((s.scaled inp).computeDrive (Adc.sampleAll inp.reads).1.vbat
      (Adc.sampleAll inp.reads).1.ibat (if s.state = .boost then s.drive else 1))
  | .error => none

/-- At every moment of iteration `n` at which `pwm_en` rises, the duty in force was set
in the same iteration, and is what the regulator of its mode computed. -/
def EnablesFresh (n : Nat) : Prop :=
  ∀ earlier later, effectsAt b env n = earlier ++ .gpioPinSet .pwmEn true :: later →
    ((outputsAt b env n).run earlier).pwmEn = false →
      ∃ d, .pwmSet d ∈ earlier ∧ ((outputsAt b env n).run earlier).duty = some d ∧
        (modeAt b env n).regulated (loopAt b env n) (env n) = some d

/-- A list split at an element that its first part does not contain. -/
theorem split_behind {α : Type} {front back earlier later : List α} {x : α} (hx : x ∉ front)
    (h : front ++ back = earlier ++ x :: later) :
    ∃ mid, earlier = front ++ mid ∧ back = mid ++ x :: later := by
  rcases List.append_eq_append_iff.mp h with ⟨mid, hearlier, hback⟩ | ⟨mid, hfront, hlater⟩
  · exact ⟨mid, hearlier, hback⟩
  · cases mid with
    | nil =>
      rw [List.append_nil] at hfront
      exact ⟨[], by rw [hfront, List.append_nil], hlater.symm⟩
    | cons y mid =>
      -- Then the element would be in the first part.
      rw [List.cons_append, List.cons.injEq] at hlater
      rw [hfront, ← hlater.1] at hx
      exact absurd (by simp) hx

/-- The regulator's duty is what an iteration leaves in `drive`. -/
theorem regulated_eq {n : Nat} (h : modeAt b env n ≠ .error) :
    (modeAt b env n).regulated (loopAt b env n) (env n)
      = some (loopAt b env (n + 1)).drive := by
  rcases branch_casesAt b env n with ⟨he, hp⟩ | ⟨he, hp⟩ | he
  · obtain ⟨-, -, hpid, hdrive⟩ := (loopAt b env n).iterate_buck (env n) he hp
    rw [(modeAt_buck_iff b env n).mpr ⟨he, hp⟩, loopAt_succ, hdrive, hpid]
    rfl
  · obtain ⟨-, -, -, hdrive⟩ := (loopAt b env n).iterate_boost (env n) he hp
    rw [(modeAt_boost_iff b env n).mpr ⟨he, hp⟩, loopAt_succ, hdrive]
    rfl
  · exact absurd ((modeAt_error_iff b env n).mpr he) h

/-- Before the loop nothing raises `pwm_en`. -/
theorem not_mem_bootEffects : .gpioPinSet .pwmEn true ∉ Buckboost.bootEffects b := by
  intro h
  simp only [Buckboost.bootEffects, List.mem_append] at h
  rcases h with (((h | h) | h) | h) | h
  · simp at h
  · -- `Adc::Adc` prints, and does nothing else.
    simp only [Adc.setup, List.mem_flatMap, List.mem_append] at h
    obtain ⟨i, -, h | h⟩ := h
    · split at h
      · simp at h
      · cases h
    · split at h
      · simp at h
      · cases h
  · obtain ⟨err, heq⟩ := Adc.printk_of_mem_sampleAll b.reads _ h
    cases heq
  · split at h
    · simp at h
    · cases h
  · split at h
    · simp at h
    · cases h

/-- Effects that do not raise `pwm_en` leave it low. -/
theorem pwmEn_run {fx : List Effect} (h : .gpioPinSet .pwmEn true ∉ fx) (o : Outputs)
    (ho : o.pwmEn = false) : (o.run fx).pwmEn = false := by
  induction fx generalizing o with
  | nil => exact ho
  | cons e fx ih =>
    rw [List.mem_cons, not_or] at h
    refine ih h.2 (o.apply e) ?_
    cases e with
    | gpioPinSet pin value =>
      cases pin with
      | pwmEn =>
        cases value with
        | false => rfl
        | true => exact absurd rfl h.1
      | _ => exact ho
    | _ => exact ho

/-- Before iteration `n`, `pwm_en` is high exactly when the iteration before was not
an ERROR. -/
theorem pwmEn_outputsAt (n : Nat) :
    (outputsAt b env n).pwmEn = false ↔ modeBefore b env n = .error := by
  cases n with
  | zero => exact iff_of_true (pwmEn_run (not_mem_bootEffects b) _ rfl) rfl
  | succ n =>
    show _ ↔ modeAt b env n = .error
    rw [pwmEn_after, modeAt_error_iff, decide_eq_false_iff_not]

/-- What a mode does before it raises `pwm_en`: BUCK nothing, BOOST sets its duty. -/
theorem Mode.drives_split {m : Mode} {d : ℚ} {mid later : List Effect}
    (h : m.drives d = mid ++ .gpioPinSet .pwmEn true :: later) :
    (m = .buck ∧ mid = []) ∨ (m = .boost ∧ mid = [.pwmSet d]) := by
  have hmem : .gpioPinSet .pwmEn true ∈ m.drives d := by
    rw [h]
    simp
  cases m with
  | buck =>
    cases mid with
    | nil => exact Or.inl ⟨rfl, rfl⟩
    | cons e mid =>
      -- Behind its first effect BUCK raises nothing.
      rw [Mode.drives, List.cons_append, List.cons.injEq] at h
      have hlater : .gpioPinSet .pwmEn true ∈ [Effect.pwmSet d] := by
        rw [h.2]
        simp
      simp at hlater
  | boost =>
    cases mid with
    | nil => simp [Mode.drives] at h
    | cons e mid =>
      rw [Mode.drives, List.cons_append, List.cons.injEq, ← List.nil_append [_]] at h
      cases mid with
      | nil => exact Or.inr ⟨rfl, by rw [h.1]⟩
      | cons e' mid => simp at h
  | error => simp [Mode.drives] at hmem

/-- Iteration `n` enables the power stage with a fresh duty unless it is a BUCK
iteration that finds `pwm_en` low. -/
theorem enablesFresh_at_iff (n : Nat) :
    EnablesFresh b env n ↔ (modeAt b env n = .buck → modeBefore b env n ≠ .error) := by
  obtain ⟨quiet, hquiet, heq⟩ := effectsAt_eq b env n
  have hrun := Outputs.run_of_harmless (outputsAt b env n) hquiet
  have hbefore := pwmEn_outputsAt b env n
  have hnot : .gpioPinSet .pwmEn true ∉ quiet := fun h => hquiet _ h
  constructor
  · intro hfresh hbuck herror
    -- The pin rises when only the quiet effects have run, and none of them sets a duty.
    rw [hbuck] at heq
    obtain ⟨d, hset, -⟩ := hfresh quiet [.pwmSet (loopAt b env (n + 1)).drive] heq
      (by rw [hrun]; exact hbefore.mpr herror)
    exact hquiet _ hset
  · intro hhigh earlier later hsplit hlow
    rw [heq] at hsplit
    obtain ⟨mid, rfl, hmid⟩ := split_behind hnot hsplit
    rw [Outputs.run_append, hrun] at hlow ⊢
    rcases Mode.drives_split hmid with ⟨hmode, rfl⟩ | ⟨hmode, rfl⟩
    · exact absurd (hbefore.mp hlow) (hhigh hmode)
    · refine ⟨(loopAt b env (n + 1)).drive, by simp, rfl, ?_⟩
      exact regulated_eq b env (by rw [hmode]; nofun)

/-- Nothing raises `pwm_en` before the loop, and every iteration that raises it does so
with a fresh duty. -/
def EnablesFreshly : Prop :=
  .gpioPinSet .pwmEn true ∉ Buckboost.bootEffects b ∧ ∀ n, EnablesFresh b env n

/-- The law holds in a run exactly when no BUCK iteration finds `pwm_en` low, that is,
none is the first iteration or follows an ERROR. -/
theorem enablesFreshly_iff :
    EnablesFreshly b env ↔ ∀ n, modeAt b env n = .buck → modeBefore b env n ≠ .error := by
  constructor
  · intro hlaw n
    exact (enablesFresh_at_iff b env n).mp (hlaw.2 n)
  · intro hruns
    exact ⟨not_mem_bootEffects b, fun n => (enablesFresh_at_iff b env n).mpr (hruns n)⟩

/-- Without mains at power-up, the first iteration raises `pwm_en` when no duty has been
set at all. -/
theorem enablesFreshly_fails : ¬ ∀ b env, EnablesFreshly b env := by
  intro hall
  obtain ⟨env, henv⟩ : ∃ env : Nat → Inputs,
      env = fun n => { benchInputs n with vinDetect := false } := ⟨_, rfl⟩
  have hbuck : modeAt benchBoot env 0 = .buck := by
    rw [henv]
    decide +kernel
  exact (enablesFresh_at_iff benchBoot env 0).mp ((hall benchBoot env).2 0) hbuck rfl

end Runs

end UpsFirmware
