import UpsFirmware.Rp2040.Buckboost

/-!
# `UpsFirmware.Rp2040.Modes`: mode, power stage and telemetry agree

`buckboost` writes `msg_out.state` only when it enters a mode, and sends a frame
before it updates the mode. `Reports` is the invariant that carries the report
from the entry on: between iterations the report is the one of the mode variable,
and the mode variable is never ERROR.

`Mode` is the view from outside: what an iteration with the given result of
`check` and the given `vin_detect` should leave behind. `mode_agreement` says that
every iteration leaves exactly its own mode behind, and that a frame tells the
mode of the iteration before it.
-/

set_option autoImplicit false

namespace UpsFirmware

/-! ### The report of the mode variable -/

/-- The report that goes with a value of `state`. -/
def State.report : State → UInt8
  | .none => MSG_STATE_ERROR
  | .buck => MSG_STATE_DISCHARGING
  | .boost => MSG_STATE_CHARGING
  | .error => MSG_STATE_ERROR

/-- Between two iterations the report is the one of the mode. Nobody writes the
last two members of `msg_out`. -/
structure Buckboost.Reports (s : Buckboost) : Prop where
  ne_error : s.state ≠ .error
  state : s.msgOut.state = s.state.report
  pad : s.msgOut.pad = 0
  powerDwn : s.msgOut.powerDwn = 0

namespace Buckboost

theorem reports_boot (b : BootInputs) : (boot b).Reports where
  ne_error := nofun
  state := rfl
  pad := rfl
  powerDwn := rfl

/-- Sampling, checking and telemetry change nothing here. -/
theorem reports_telemetry {s : Buckboost} (hs : s.Reports) (inp : Inputs) :
    (((s.sense inp).1.telemetry inp.vinDetect inp).1).Reports := by
  have hmsg := telemetry_msgOut (s.sense inp).1 inp.vinDetect inp
  refine ⟨?_, ?_, ?_, ?_⟩
  · show (telemetry _ _ _).1.state ≠ .error
    rw [telemetry_state]
    exact hs.ne_error
  · show (telemetry _ _ _).1.msgOut.state = State.report (telemetry _ _ _).1.state
    rw [telemetry_state, hmsg]
    -- A tick fills in the measurements, the report is not one of them.
    split
    · exact hs.state
    · exact hs.state
  · show (telemetry _ _ _).1.msgOut.pad = 0
    rw [hmsg]
    split
    · exact hs.pad
    · exact hs.pad
  · show (telemetry _ _ _).1.msgOut.powerDwn = 0
    rw [hmsg]
    split
    · exact hs.powerDwn
    · exact hs.powerDwn

/-- The mode variable after a branch. -/
def nextState (errors : UInt8) (powered : Bool) : State :=
  if errors = 0 then if powered then .boost else .buck else .none

/-- A branch leaves its mode and the report of it. -/
theorem reports_mode {s : Buckboost} (hs : s.Reports) (errors : UInt8) (powered : Bool)
    (cycles : UInt32) :
    (s.mode errors powered cycles).1.Reports ∧
      (s.mode errors powered cycles).1.state = nextState errors powered := by
  refine mode_induction s cycles (P := fun r => r.1.Reports ∧
    r.1.state = nextState errors powered) ?_ ?_ ?_
  · intro he hp
    rw [buck_fst, nextState, if_pos he, hp]
    refine ⟨⟨nofun, ?_, hs.pad, hs.powerDwn⟩, rfl⟩
    show (if s.state = .buck then s.msgOut.state else MSG_STATE_DISCHARGING) = _
    split
    · -- staying in BUCK: the report is from the entry
      rename_i h
      rw [hs.state, h]
    · rfl
  · intro he hp
    rw [boost_fst, nextState, if_pos he, hp]
    refine ⟨⟨nofun, ?_, hs.pad, hs.powerDwn⟩, rfl⟩
    show (if s.state = .boost then s.msgOut.state else MSG_STATE_CHARGING) = _
    split
    · -- staying in BOOST
      rename_i h
      rw [hs.state, h]
    · rfl
  · intro he
    rw [error_fst, nextState, if_neg he]
    refine ⟨⟨nofun, ?_, hs.pad, hs.powerDwn⟩, rfl⟩
    -- The mode is never ERROR between iterations, so every trip writes the report.
    show (if s.state = .error then s.msgOut.state else MSG_STATE_ERROR) = _
    rw [if_neg hs.ne_error]
    rfl

/-- An iteration leaves the mode of its readings and the report of it. -/
theorem reports_iterate {s : Buckboost} (hs : s.Reports) (inp : Inputs) :
    (s.iterate inp).1.Reports ∧
      (s.iterate inp).1.state = nextState (s.errors inp) inp.vinDetect :=
  reports_mode (reports_telemetry hs inp) _ _ _

end Buckboost

/-! ### Modes -/

/-- What the UPS does in an iteration. -/
inductive Mode where
  | buck
  | boost
  | error
deriving DecidableEq, Repr

/-- The mode that the readings of an iteration ask for. -/
def Mode.of (errors : UInt8) (powered : Bool) : Mode :=
  if errors = 0 then if powered then .boost else .buck else .error

/-- How a frame describes a mode. -/
def Mode.code : Mode → UInt8
  | .buck => MSG_STATE_DISCHARGING
  | .boost => MSG_STATE_CHARGING
  | .error => MSG_STATE_ERROR

/-- At the end of an iteration with the given readings, the variables `s` and the
power stage `o` show a mode. -/
def Mode.Shown (m : Mode) (errors : UInt8) (powered : Bool) (s : Buckboost) (o : Outputs) :
    Prop :=
  match m with
  | .buck => errors = 0 ∧ powered = false ∧
      s.state = .buck ∧ o.pwmEn = true ∧ s.msgOut.state = MSG_STATE_DISCHARGING
  | .boost => errors = 0 ∧ powered = true ∧
      s.state = .boost ∧ o.pwmEn = true ∧ s.msgOut.state = MSG_STATE_CHARGING
  | .error => errors ≠ 0 ∧
      s.state = .none ∧ o.pwmEn = false ∧ s.msgOut.state = MSG_STATE_ERROR ∧
      s.hwErrors.curErrorCount = 0 ∧ s.hwErrors.errorCode = 0

/-- A mode that is shown is the one a frame describes next. -/
theorem Mode.report_of_shown {m : Mode} {errors : UInt8} {powered : Bool} {s : Buckboost}
    {o : Outputs} (h : m.Shown errors powered s o) : s.msgOut.state = m.code := by
  cases m with
  | buck => exact h.2.2.2.2
  | boost => exact h.2.2.2.2
  | error => exact h.2.2.2.1

/-- Only the mode of the readings can be shown. -/
theorem Mode.eq_of_shown {m : Mode} {errors : UInt8} {powered : Bool} {s : Buckboost}
    {o : Outputs} (h : m.Shown errors powered s o) : m = Mode.of errors powered := by
  cases m with
  | buck => rw [Mode.of, if_pos h.1, h.2.1]; rfl
  | boost => rw [Mode.of, if_pos h.1, h.2.1]; rfl
  | error => rw [Mode.of, if_neg h.1]

section Runs

variable (b : BootInputs) (env : Nat → Inputs)

theorem reports_loopAt (n : Nat) : (loopAt b env n).Reports :=
  Lib.stateAt_invariant env Buckboost.Reports (Buckboost.reports_boot b)
    (fun _ inp hs => (Buckboost.reports_iterate hs inp).1) n

/-- The mode of iteration `n`. -/
def modeAt (n : Nat) : Mode := Mode.of (errorsAt b env n) (env n).vinDetect

theorem modeAt_buck_iff (n : Nat) :
    modeAt b env n = .buck ↔ errorsAt b env n = 0 ∧ (env n).vinDetect = false := by
  unfold modeAt Mode.of
  rcases branch_casesAt b env n with ⟨he, hp⟩ | ⟨he, hp⟩ | he
  all_goals simp [*]

theorem modeAt_boost_iff (n : Nat) :
    modeAt b env n = .boost ↔ errorsAt b env n = 0 ∧ (env n).vinDetect = true := by
  unfold modeAt Mode.of
  rcases branch_casesAt b env n with ⟨he, hp⟩ | ⟨he, hp⟩ | he
  all_goals simp [*]

theorem modeAt_error_iff (n : Nat) : modeAt b env n = .error ↔ errorsAt b env n ≠ 0 := by
  unfold modeAt Mode.of
  rcases branch_casesAt b env n with ⟨he, hp⟩ | ⟨he, hp⟩ | he
  all_goals simp [*]

/-- The counters after an iteration that tripped. -/
theorem hwErrors_of_trip {n : Nat} (h : errorsAt b env n ≠ 0) :
    (loopAt b env (n + 1)).hwErrors.curErrorCount = 0 ∧
      (loopAt b env (n + 1)).hwErrors.errorCode = 0 := by
  rw [loopAt_succ, Buckboost.iterate_hwErrors, HwErrors.pass_of_trip h]
  exact ⟨rfl, rfl⟩

/-- An iteration shows the mode of its readings. -/
theorem shown_after (n : Nat) :
    (Mode.of (errorsAt b env n) (env n).vinDetect).Shown (errorsAt b env n) (env n).vinDetect
      (loopAt b env (n + 1)) (outputsAt b env (n + 1)) := by
  have hstate : (loopAt b env (n + 1)).state
      = Buckboost.nextState (errorsAt b env n) (env n).vinDetect :=
    (Buckboost.reports_iterate (reports_loopAt b env n) (env n)).2
  have hmsg := (reports_loopAt b env (n + 1)).state
  have hpwm := pwmEn_after b env n
  rw [hstate] at hmsg
  show (modeAt b env n).Shown _ _ _ _
  rcases branch_casesAt b env n with ⟨he, hp⟩ | ⟨he, hp⟩ | he
  · rw [Buckboost.nextState, if_pos he, hp] at hstate hmsg
    rw [decide_eq_true he] at hpwm
    rw [(modeAt_buck_iff b env n).mpr ⟨he, hp⟩]
    exact ⟨he, hp, hstate, hpwm, hmsg⟩
  · rw [Buckboost.nextState, if_pos he, hp] at hstate hmsg
    rw [decide_eq_true he] at hpwm
    rw [(modeAt_boost_iff b env n).mpr ⟨he, hp⟩]
    exact ⟨he, hp, hstate, hpwm, hmsg⟩
  · rw [Buckboost.nextState, if_neg he] at hstate hmsg
    rw [decide_eq_false he] at hpwm
    rw [(modeAt_error_iff b env n).mpr he]
    obtain ⟨hcount, hcode⟩ := hwErrors_of_trip b env he
    exact ⟨he, hstate, hpwm, hmsg, hcount, hcode⟩

/-- The mode of the iteration before iteration `n`. Before the first one, it is
ERROR. -/
def modeBefore : Nat → Mode
  | 0 => .error
  | n + 1 => Mode.of (errorsAt b env n) (env n).vinDetect

/-- The mode variable says whether the iteration before was in BOOST. -/
theorem state_loopAt_eq_boost_iff (n : Nat) :
    (loopAt b env n).state = .boost ↔ modeBefore b env n = .boost := by
  cases n with
  | zero => exact iff_of_false nofun nofun
  | succ n =>
    show _ ↔ modeAt b env n = .boost
    have hstate := (Buckboost.reports_iterate (reports_loopAt b env n) (env n)).2
    rw [loopAt_succ, hstate, modeAt]
    unfold Buckboost.nextState Mode.of
    show (if errorsAt b env n = 0 then _ else _) = _ ↔ _
    rcases branch_casesAt b env n with ⟨he, hp⟩ | ⟨he, hp⟩ | he
    all_goals simp [*]

/-- The report between two iterations describes the mode of the one before. -/
theorem report_loopAt (n : Nat) :
    (loopAt b env n).msgOut.state = (modeBefore b env n).code := by
  cases n with
  | zero => rfl
  | succ n =>
    exact Mode.report_of_shown (shown_after b env n)

/-- In every run, an iteration ends showing exactly one mode, the one its readings
ask for. Every 1001st iteration sends one frame. It describes the mode of the
iteration before, ERROR in the first one, and its last two members are zero. The
other iterations send nothing. -/
theorem mode_agreement (n : Nat) :
    (∀ m : Mode,
      m.Shown (errorsAt b env n) (env n).vinDetect (loopAt b env (n + 1))
          (outputsAt b env (n + 1)) ↔
        m = Mode.of (errorsAt b env n) (env n).vinDetect) ∧
    if n % 1001 = 0 then
      ∃ m, FrameSent b env n m ∧ m.state = (modeBefore b env n).code ∧
        m.pad = 0 ∧ m.powerDwn = 0
    else uartBytes (effectsAt b env n) = [] := by
  constructor
  · intro m
    constructor
    · exact Mode.eq_of_shown
    · rintro rfl
      exact shown_after b env n
  · by_cases htick : n % 1001 = 0
    · -- The frame goes out before the mode is updated.
      rw [if_pos htick]
      have hreports := reports_loopAt b env n
      refine ⟨telemetryAt b env n, (frameSent_iff b env n _).mpr ⟨htick, rfl⟩, ?_, ?_, ?_⟩
      · exact report_loopAt b env n
      · exact hreports.pad
      · exact hreports.powerDwn
    · rw [if_neg htick]
      exact uartBytes_effectsAt b env htick

end Runs

end UpsFirmware
