import UpsFirmware.Link.SerialCb
import UpsFirmware.Rp2040.Adc
import UpsFirmware.Rp2040.HwErrors

/-!
# `UpsFirmware.Rp2040.Buckboost`: the control loop

`buckboost` (`rp2040-app/src/main.cpp`). `Buckboost.boot` is the part before
`while (true)` and `Buckboost.iterate` one iteration. An iteration samples the
ADC, reads `vin_detect`, checks the fault inputs, sends telemetry every 1001
iterations, and then runs one of three modes. `Buckboost` holds the variables
that survive an iteration, and `Inputs` what the environment supplies to one.

The outcome of `k_msgq_get` is an input here: the message it delivers, or `none`
when the queue stays empty. The duty of an `Effect.pwmSet` is the `drive` of the
call `pwm_set_dt(&pwm, PERIOD, PERIOD * drive)`.

`iterate_fst` takes the state behind an iteration apart, and the mode lemmas say
what each branch does. An endless run is `loopAt`. `effectsAt` is what an
iteration does to the outside and `outputsAt` the power stage before it.
`pwmEn_after` and `frameSent_iff` hold in every run: `pwm_en` follows the result of
`check`, and every 1001st iteration sends one frame, which decodes to the message
of its tick.
-/

set_option autoImplicit false

namespace UpsFirmware

open Lib Lib.Stuffing

/-- `enum State`. -/
inductive State where
  | none
  | buck
  | boost
  | error
deriving DecidableEq, Repr

/-- What the environment supplies to one iteration. `received` is the message
that `k_msgq_get` delivers, if the iteration has a telemetry tick. `tail` is the
padding byte of the message that is passed to `msg_cobs_encode`. -/
structure Inputs where
  reads : Fin 4 → AdcRead
  vinDetect : Bool
  faults : FaultPins
  cycles : UInt32
  received : Option Image
  tail : UInt8

/-- The variables of `buckboost` that survive an iteration, and the static
`state`. -/
structure Buckboost where
  state : State
  drive : ℚ
  countdown : Int
  msgOut : Msg
  msgIn : Msg
  uartbuf : Vector UInt8 64
  hwErrors : HwErrors
  buckPid : Pid
  battery : Battery
  adc : Adc

/-- `CONFIG_FORCE_PACK` (`prj.conf`). -/
def CONFIG_FORCE_PACK : Bool := true

/-! ### The telemetry tick -/

/-- `print_voltages`. -/
def printVoltages (adc : Adc) (drive : ℚ) : List Effect :=
  [.printk "Vout : %d mV\t" [.int adc.vout],
    .printk "Vbat : %d mV\t" [.int adc.vbat],
    .printk "Iout : %d mA\t" [.int adc.iout],
    .printk "Ibat : %d mA\t" [.int adc.ibat],
    .printk "Drve : %f\n" [.float drive]]

/-- `msg_out.gas`. -/
def gasOf (vbat : Int) : UInt16 :=
  if vbat < 12000 then 0 else UInt16.ofInt ((vbat - 12000).tdiv 48)

/-- The members of `msg_out` that a tick fills in. -/
def Msg.fill (m : Msg) (adc : Adc) : Msg :=
  { m with
    vout := UInt16.ofInt adc.vout
    vbat := UInt16.ofInt adc.vbat
    iout := UInt16.ofInt adc.iout
    ibat := UInt16.ofInt adc.ibat
    gas := gasOf adc.vbat }

def EAGAIN : Int := 11

/-- `k_msgq_get(&msgq, &msg_in, K_MSEC(10))`: its return value and `msg_in`. -/
def kMsgqGet (received : Option Image) (msgIn : Msg) : Int × Msg :=
  match received with
  | some img => (0, Msg.ofImage img)
  | Option.none => (-EAGAIN, msgIn)

/-- The end of a tick: get a message, and look at `power_dwn`. The first component is
the new `msg_in`. -/
def receive (msgIn : Msg) (powered : Bool) (received : Option Image) : Msg × List Effect :=
  let (ret, msgIn) := kMsgqGet received msgIn
  -- The source tests `ret != 0`: the branch is taken when nothing was delivered.
  if ret ≠ 0 then
    if msgIn.powerDwn ≠ 0 ∧ powered = false then
      ({ msgIn with powerDwn := 0 }, [.printk "Power Down Requested @ \n" []])
    else (msgIn, [])
  else (msgIn, [])

namespace Buckboost

/-- A tick up to `print_uart`. -/
def report (s : Buckboost) (tail : UInt8) : Buckboost × List Effect :=
  let msgOut := s.msgOut.fill s.adc
  let r := msgCobsEncode (msgOut.image tail) s.uartbuf frame_fits
  ({ s with countdown := 1000, msgOut := msgOut, uartbuf := r.1 },
    printVoltages s.adc s.drive ++ (printUart r.1 r.2).map .uartPollOut)

/-- `if (!countdown--)` and its block. -/
def telemetry (s : Buckboost) (powered : Bool) (inp : Inputs) : Buckboost × List Effect :=
  -- The decrement happens on every pass; a tick then sets the counter to 1000.
  let expired := s.countdown = 0
  let s := { s with countdown := s.countdown - 1 }
  if expired then
    let r := s.report inp.tail
    let r' := receive r.1.msgIn powered inp.received
    ({ r.1 with msgIn := r'.1 }, r.2 ++ r'.2)
  else (s, [])

/-! ### The three modes -/

/-- `if (state != BUCK)`. -/
def enterBuck (s : Buckboost) : Buckboost × List Effect :=
  if s.state ≠ .buck then
    ({ s with
        state := .buck
        msgOut := { s.msgOut with state := MSG_STATE_DISCHARGING } },
      [.printk "Entering Buck State\n" [], .kSleep 5])
  else (s, [])

/-- Buck State. -/
def buck (s : Buckboost) (cycles : UInt32) : Buckboost × List Effect :=
  let (s, fx) := s.enterBuck
  -- `vout` is a `float`, so the division is not an integer division.
  let vout : ℚ := s.adc.vout
  let vout := vout / 1000
  let buckPid := s.buckPid.compute vout cycles
  let drive := buckPid.getDuc
  ({ s with buckPid := buckPid, drive := drive },
    fx ++ [.gpioPinSet .pwmEn true, .pwmSet drive])

/-- `if (state != BOOST)`. -/
def enterBoost (s : Buckboost) : Buckboost × List Effect :=
  if s.state ≠ .boost then
    ({ s with
        drive := 1
        state := .boost
        msgOut := { s.msgOut with state := MSG_STATE_CHARGING } },
      [.printk "Entering Boost State\n" [], .kSleep 5] ++
        if CONFIG_FORCE_PACK then
          [.gpioPinSet .packBoot true, .kSleep 100, .gpioPinSet .packBoot false]
        else [])
  else (s, [])

/-- The scaling of the charge current. The second branch is dead. -/
def chargeScaling (vbat : Int) : ℚ :=
  if vbat > 16500 then 3 / 10 else if vbat > 16600 then 1 / 10 else 1

/-- Boost State (Charging). -/
def boost (s : Buckboost) : Buckboost × List Effect :=
  let (s, fx) := s.enterBoost
  -- Unlike BUCK, this branch sets the duty before it raises `pwm_en`.
  let battery := s.battery.setScaling (chargeScaling s.adc.vbat)
  let drive := battery.computeDrive s.adc.vbat s.adc.ibat s.drive
  ({ s with battery := battery, drive := drive },
    fx ++ [.pwmSet drive, .gpioPinSet .pwmEn true])

/-- `if (state != ERROR)`. -/
def enterError (s : Buckboost) : Buckboost × List Effect :=
  if s.state ≠ .error then
    ({ s with state := .error, msgOut := { s.msgOut with state := MSG_STATE_ERROR } },
      [.printk "Entering Error State\n" []])
  else (s, [])

/-- Error State. -/
def error (s : Buckboost) : Buckboost × List Effect :=
  let (s, fx) := s.enterError
  -- ERROR is left again at once: the next iteration starts from NONE.
  ({ s with hwErrors := s.hwErrors.clear, state := .none },
    fx ++ [.gpioPinSet .pwmEn false])

/-- The branch an iteration takes. -/
def mode (s : Buckboost) (errors : UInt8) (powered : Bool) (cycles : UInt32) :
    Buckboost × List Effect :=
  if errors = 0 ∧ powered = false then s.buck cycles
  else if errors = 0 ∧ powered = true then s.boost
  else s.error

/-! ### The loop -/

/-- The head of an iteration: `adc.sample_all()` and `hw_errors.check()`. -/
def sense (s : Buckboost) (inp : Inputs) : Buckboost × List Effect :=
  let sampled := Adc.sampleAll inp.reads
  let checked := s.hwErrors.check inp.faults
  ({ s with adc := sampled.1, hwErrors := checked.1 }, sampled.2 ++ checked.2)

/-- One iteration of `while (true)`. -/
def iterate (s : Buckboost) (inp : Inputs) : Buckboost × List Effect :=
  let powered := inp.vinDetect
  let sensed := s.sense inp
  let errors := sensed.1.hwErrors.errorCode
  let ticked := sensed.1.telemetry powered inp
  let ran := ticked.1.mode errors powered inp.cycles
  (ran.1, sensed.2 ++ ticked.2 ++ ran.2)

end Buckboost

/-- What the environment supplies to the part before the loop. `pidJunk` and
`batteryJunk` are the members that the constructors leave uninitialised. -/
structure BootInputs where
  pidJunk : ℚ × ℚ × ℚ
  batteryJunk : Int × ℚ
  cycles : UInt32
  adcName : Fin 4 → String
  adcReady : Fin 4 → Bool
  setupErr : Fin 4 → Int
  reads : Fin 4 → AdcRead
  pwmName : String
  pwmReady : Bool
  uartReady : Bool

/-- `Adc::Adc`: what it prints while it sets up the channels. -/
def Adc.setup (b : BootInputs) : List Effect :=
  (List.finRange 4).flatMap fun i =>
    (if !b.adcReady i then
      [.printk "ADC controller device %s not ready\n" [.str (b.adcName i)]] else []) ++
    if b.setupErr i < 0 then
      [.printk "Could not setup channel #%d (%d)\n" [.int i.val, .int (b.setupErr i)]] else []

namespace Buckboost

/-- The variables before the first iteration. -/
def boot (b : BootInputs) : Buckboost where
  state := .none
  drive := 8 / 10
  countdown := 0
  msgOut := ⟨0, 0, 0, 0, 0, 0, 0, 0⟩
  msgIn := ⟨0, 0, 0, 0, 0, 0, 0, 0⟩
  uartbuf := Vector.replicate 64 0
  hwErrors := HwErrors.new
  buckPid := Pid.new 12 (3 / 100) (1 / 10000) 0 b.pidJunk b.cycles
  battery := ((Battery.new b.batteryJunk.1 b.batteryJunk.2).setVoltage (168 / 10)).setCurrent 1000
  adc := (Adc.sampleAll b.reads).1

/-- The effects of the part before the loop. -/
def bootEffects (b : BootInputs) : List Effect :=
  [.printk "~~~ Protectli UPS ~~~\n" [], .gpioPinSet .loadOcLed false,
    .gpioPinSet .battOcLed false, .gpioPinSet .battOvLed false, .gpioPinSet .pwmEn false,
    .kSleep 1000] ++
  Adc.setup b ++ (Adc.sampleAll b.reads).2 ++
  (if !b.pwmReady then
    [.printk "Error: PWM device %s is not ready\n" [.str b.pwmName]] else []) ++
  if !b.uartReady then [.printk "UART device not found!" []] else []

/-! ### The telemetry block -/

theorem mem_printVoltages {adc : Adc} {drive : ℚ} {e : Effect}
    (he : e ∈ printVoltages adc drive) : ∃ fmt args, e = .printk fmt args := by
  simp only [printVoltages, List.mem_cons, List.not_mem_nil, or_false] at he
  rcases he with rfl | rfl | rfl | rfl | rfl
  all_goals exact ⟨_, _, rfl⟩

/-- A tick's receive prints the power-down line or nothing. -/
theorem mem_receive {msgIn : Msg} {powered : Bool} {received : Option Image} {e : Effect}
    (he : e ∈ (receive msgIn powered received).2) :
    e = .printk "Power Down Requested @ \n" [] := by
  simp only [receive] at he
  split at he
  · split at he
    · exact List.mem_singleton.mp he
    · cases he
  · cases he

theorem uartBytes_receive (msgIn : Msg) (powered : Bool) (received : Option Image) :
    uartBytes (receive msgIn powered received).2 = [] := by
  simp only [receive]
  split
  · split
    · rfl
    · rfl
  · rfl

section Telemetry

variable (s : Buckboost) (powered : Bool) (inp : Inputs)

/-- The variables after the telemetry block. -/
theorem telemetry_fst :
    (s.telemetry powered inp).1
      = if s.countdown = 0 then
          { s with
            countdown := 1000
            msgOut := s.msgOut.fill s.adc
            uartbuf := (msgCobsEncode ((s.msgOut.fill s.adc).image inp.tail) s.uartbuf
              frame_fits).1
            msgIn := (receive s.msgIn powered inp.received).1 }
        else { s with countdown := s.countdown - 1 } := by
  rw [telemetry]
  split
  · rfl
  · rfl

@[simp] theorem telemetry_state : (s.telemetry powered inp).1.state = s.state := by
  rw [telemetry_fst]
  split <;> rfl

@[simp] theorem telemetry_drive : (s.telemetry powered inp).1.drive = s.drive := by
  rw [telemetry_fst]
  split <;> rfl

@[simp] theorem telemetry_hwErrors : (s.telemetry powered inp).1.hwErrors = s.hwErrors := by
  rw [telemetry_fst]
  split <;> rfl

@[simp] theorem telemetry_buckPid : (s.telemetry powered inp).1.buckPid = s.buckPid := by
  rw [telemetry_fst]
  split <;> rfl

@[simp] theorem telemetry_battery : (s.telemetry powered inp).1.battery = s.battery := by
  rw [telemetry_fst]
  split <;> rfl

@[simp] theorem telemetry_adc : (s.telemetry powered inp).1.adc = s.adc := by
  rw [telemetry_fst]
  split <;> rfl

theorem telemetry_countdown :
    (s.telemetry powered inp).1.countdown
      = if s.countdown = 0 then 1000 else s.countdown - 1 := by
  rw [telemetry_fst]
  split <;> rfl

theorem telemetry_msgIn :
    (s.telemetry powered inp).1.msgIn
      = if s.countdown = 0 then (receive s.msgIn powered inp.received).1 else s.msgIn := by
  rw [telemetry_fst]
  split <;> rfl

theorem telemetry_msgOut :
    (s.telemetry powered inp).1.msgOut
      = if s.countdown = 0 then s.msgOut.fill s.adc else s.msgOut := by
  rw [telemetry_fst]
  split <;> rfl

/-- The effects of the telemetry block. -/
theorem telemetry_snd :
    (s.telemetry powered inp).2
      = if s.countdown = 0 then
          (s.report inp.tail).2 ++ (receive s.msgIn powered inp.received).2
        else [] := by
  rw [telemetry]
  split
  · rfl
  · rfl

/-- The telemetry block prints and transmits. -/
theorem harmless_telemetry : ∀ e ∈ (s.telemetry powered inp).2, e.Harmless := by
  intro e he
  rw [telemetry_snd] at he
  split at he
  · simp only [report, List.mem_append, List.mem_map] at he
    rcases he with (he | ⟨b, -, rfl⟩) | he
    · -- the console lines
      obtain ⟨fmt, args, rfl⟩ := mem_printVoltages he
      exact trivial
    · -- the frame
      exact trivial
    · -- the power-down line
      rw [mem_receive he]
      exact trivial
  · cases he

/-- What the telemetry block transmits. -/
theorem uartBytes_telemetry :
    uartBytes (s.telemetry powered inp).2
      = if s.countdown = 0 then stuffed ((s.msgOut.fill s.adc).image inp.tail).toList ++ [0]
        else [] := by
  rw [telemetry_snd]
  split
  · -- The console lines add nothing to the bytes of the frame.
    simp only [report, uartBytes_append, uartBytes_map_uartPollOut, printUart_msgCobsEncode,
      uartBytes_receive, List.append_nil]
    rfl
  · rfl

end Telemetry

/-! ### The modes -/

section Modes

variable (s : Buckboost) (cycles : UInt32) (o : Outputs)

/-- The variables after the BUCK branch. -/
theorem buck_fst :
    (s.buck cycles).1
      = { s with
          state := .buck
          msgOut := { s.msgOut with
            state := if s.state = .buck then s.msgOut.state else MSG_STATE_DISCHARGING }
          buckPid := s.buckPid.compute (s.adc.vout / 1000) cycles
          drive := (s.buckPid.compute (s.adc.vout / 1000) cycles).drive } := by
  unfold buck enterBuck
  by_cases h : s.state = .buck
  · -- Staying in the mode leaves the report alone.
    simp only [h, ne_eq, not_true_eq_false, if_false, if_true]
    rfl
  · simp only [h, ne_eq, not_false_eq_true, if_false, if_true]
    rfl

/-- The variables after the BOOST branch. -/
theorem boost_fst :
    s.boost.1
      = { s with
          state := .boost
          msgOut := { s.msgOut with
            state := if s.state = .boost then s.msgOut.state else MSG_STATE_CHARGING }
          battery := s.battery.setScaling (chargeScaling s.adc.vbat)
          drive := (s.battery.setScaling (chargeScaling s.adc.vbat)).computeDrive s.adc.vbat
            s.adc.ibat (if s.state = .boost then s.drive else 1) } := by
  unfold boost enterBoost
  by_cases h : s.state = .boost
  · simp only [h, ne_eq, not_true_eq_false, if_false, if_true]
  · simp only [h, ne_eq, not_false_eq_true, if_false, if_true]

/-- The variables after the ERROR branch. -/
theorem error_fst :
    s.error.1
      = { s with
          state := .none
          msgOut := { s.msgOut with
            state := if s.state = .error then s.msgOut.state else MSG_STATE_ERROR }
          hwErrors := s.hwErrors.clear } := by
  unfold error enterError
  by_cases h : s.state = .error
  · simp only [h, ne_eq, not_true_eq_false, if_false, if_true]
  · simp only [h, ne_eq, not_false_eq_true, if_false, if_true]

/-- Entering BUCK prints and waits. -/
theorem harmless_enterBuck : ∀ e ∈ s.enterBuck.2, e.Harmless := by
  unfold enterBuck
  split
  · simp [Effect.Harmless]
  · simp

/-- Entering BOOST prints, waits and boots the pack. -/
theorem harmless_enterBoost : ∀ e ∈ s.enterBoost.2, e.Harmless := by
  unfold enterBoost
  split
  · simp [Effect.Harmless, CONFIG_FORCE_PACK]
  · simp

theorem harmless_enterError : ∀ e ∈ s.enterError.2, e.Harmless := by
  unfold enterError
  split
  · simp [Effect.Harmless]
  · simp

/-- BUCK enables the power stage, and sets the regulator's duty. -/
theorem run_buck : o.run (s.buck cycles).2 = ⟨true, some (s.buck cycles).1.drive⟩ := by
  show o.run (s.enterBuck.2 ++ _) = _
  rw [Outputs.run_append, Outputs.run_of_harmless o s.harmless_enterBuck]
  rfl

/-- BOOST sets the charger's duty, and enables the power stage. -/
theorem run_boost : o.run s.boost.2 = ⟨true, some s.boost.1.drive⟩ := by
  show o.run (s.enterBoost.2 ++ _) = _
  rw [Outputs.run_append, Outputs.run_of_harmless o s.harmless_enterBoost]
  rfl

/-- ERROR disables the power stage. -/
theorem run_error : o.run s.error.2 = { o with pwmEn := false } := by
  show o.run (s.enterError.2 ++ _) = _
  rw [Outputs.run_append, Outputs.run_of_harmless o s.harmless_enterError]
  rfl

variable {errors : UInt8} {powered : Bool}

theorem mode_buck (he : errors = 0) (hp : powered = false) :
    s.mode errors powered cycles = s.buck cycles := if_pos ⟨he, hp⟩

theorem mode_boost (he : errors = 0) (hp : powered = true) :
    s.mode errors powered cycles = s.boost := by
  rw [mode, if_neg (by simp [hp]), if_pos ⟨he, hp⟩]

theorem mode_error (he : errors ≠ 0) : s.mode errors powered cycles = s.error := by
  rw [mode, if_neg (fun h => he h.1), if_neg (fun h => he h.1)]

/-- A property of the three branches is one of the mode. -/
theorem mode_induction {P : Buckboost × List Effect → Prop}
    (hbuck : errors = 0 → powered = false → P (s.buck cycles))
    (hboost : errors = 0 → powered = true → P s.boost)
    (herror : errors ≠ 0 → P s.error) : P (s.mode errors powered cycles) := by
  by_cases he : errors = 0
  · cases hp : powered with
    | false =>
      rw [mode_buck s cycles he rfl]
      exact hbuck he hp
    | true =>
      rw [mode_boost s cycles he rfl]
      exact hboost he hp
  · rw [mode_error s cycles he]
    exact herror he

/-- The power stage after a mode. Without an error it is enabled with the new
duty, otherwise it is disabled. -/
theorem run_mode (errors : UInt8) (powered : Bool) :
    o.run (s.mode errors powered cycles).2
      = if errors = 0 then ⟨true, some (s.mode errors powered cycles).1.drive⟩
        else { o with pwmEn := false } := by
  refine mode_induction s cycles (P := fun r => o.run r.2 = if errors = 0 then
    ⟨true, some r.1.drive⟩ else { o with pwmEn := false }) ?_ ?_ ?_
  · intro he _
    rw [run_buck, if_pos he]
  · intro he _
    rw [run_boost, if_pos he]
  · intro he
    rw [run_error, if_neg he]

/-- The modes do not transmit. -/
theorem uartBytes_mode (errors : UInt8) (powered : Bool) :
    uartBytes (s.mode errors powered cycles).2 = [] := by
  refine mode_induction s cycles (P := fun r => uartBytes r.2 = []) ?_ ?_ ?_
  · intro _ _
    simp only [buck, enterBuck]
    split
    · rfl
    · rfl
  · intro _ _
    simp only [boost, enterBoost]
    split
    · rfl
    · rfl
  · intro _
    simp only [error, enterError]
    split
    · rfl
    · rfl

/-- Only the ERROR branch touches the fault counters. -/
theorem mode_hwErrors (errors : UInt8) (powered : Bool) :
    (s.mode errors powered cycles).1.hwErrors
      = if errors = 0 then s.hwErrors else s.hwErrors.clear := by
  refine mode_induction s cycles (P := fun r => r.1.hwErrors = if errors = 0 then s.hwErrors
    else s.hwErrors.clear) ?_ ?_ ?_
  · intro he _
    rw [buck_fst, if_pos he]
  · intro he _
    rw [boost_fst, if_pos he]
  · intro he
    rw [error_fst, if_neg he]

/-- No mode touches the tick counter and the message received last. -/
theorem mode_frame (errors : UInt8) (powered : Bool) :
    (s.mode errors powered cycles).1.countdown = s.countdown ∧
      (s.mode errors powered cycles).1.msgIn = s.msgIn := by
  refine mode_induction s cycles (P := fun r => r.1.countdown = s.countdown ∧
    r.1.msgIn = s.msgIn) ?_ ?_ ?_
  · intro _ _
    rw [buck_fst]
    exact ⟨rfl, rfl⟩
  · intro _ _
    rw [boost_fst]
    exact ⟨rfl, rfl⟩
  · intro _
    rw [error_fst]
    exact ⟨rfl, rfl⟩

end Modes

/-! ### One iteration -/

section Iterate

variable (s : Buckboost) (inp : Inputs)

/-- The result of `check` in an iteration. -/
def errors : UInt8 := (s.hwErrors.check inp.faults).1.errorCode

/-- The branches of an iteration: BUCK, BOOST, ERROR. -/
theorem branch_cases :
    (s.errors inp = 0 ∧ inp.vinDetect = false) ∨ (s.errors inp = 0 ∧ inp.vinDetect = true) ∨
      s.errors inp ≠ 0 := by
  by_cases he : s.errors inp = 0
  · cases hp : inp.vinDetect with
    | false => exact Or.inl ⟨he, rfl⟩
    | true => exact Or.inr (Or.inl ⟨he, rfl⟩)
  · exact Or.inr (Or.inr he)

/-- The variables after an iteration: sample and check, telemetry, mode. -/
theorem iterate_fst :
    (s.iterate inp).1
      = (((s.sense inp).1.telemetry inp.vinDetect inp).1.mode (s.errors inp) inp.vinDetect
          inp.cycles).1 := rfl

/-- Sampling and checking leave the power stage alone. -/
theorem harmless_sense : ∀ e ∈ (s.sense inp).2, e.Harmless := by
  intro e he
  rcases List.mem_append.mp he with he | he
  · obtain ⟨err, rfl⟩ := Adc.printk_of_mem_sampleAll inp.reads e he
    exact trivial
  · exact HwErrors.harmless_check s.hwErrors inp.faults e he

/-- Sampling and checking do not transmit. -/
theorem uartBytes_sense : uartBytes (s.sense inp).2 = [] := by
  refine uartBytes_eq_nil fun e he b => ?_
  rcases List.mem_append.mp he with he | he
  · obtain ⟨err, rfl⟩ := Adc.printk_of_mem_sampleAll inp.reads e he
    exact Effect.noConfusion
  · -- LEDs and console lines
    rcases HwErrors.mem_check he with ⟨led, -, value, rfl⟩ | ⟨text, -, rfl⟩
    · exact Effect.noConfusion
    · exact Effect.noConfusion

/-- The power stage after an iteration. -/
theorem run_iterate (o : Outputs) :
    o.run (s.iterate inp).2
      = if s.errors inp = 0 then ⟨true, some (s.iterate inp).1.drive⟩
        else { o with pwmEn := false } := by
  show o.run ((s.sense inp).2 ++ _ ++ _) = _
  -- Only the effects of the mode reach the power stage.
  rw [Outputs.run_append, Outputs.run_append, Outputs.run_of_harmless o (s.harmless_sense inp),
    Outputs.run_of_harmless o ((s.sense inp).1.harmless_telemetry inp.vinDetect inp)]
  exact run_mode _ _ o _ _

/-- What an iteration transmits. -/
theorem uartBytes_iterate :
    uartBytes (s.iterate inp).2
      = if s.countdown = 0 then
          stuffed ((s.msgOut.fill (Adc.sampleAll inp.reads).1).image inp.tail).toList ++ [0]
        else [] := by
  show uartBytes ((s.sense inp).2 ++ _ ++ _) = _
  rw [uartBytes_append, uartBytes_append, uartBytes_sense, uartBytes_telemetry, uartBytes_mode,
    List.nil_append, List.append_nil]
  rfl

/-- The fault counters make one pass. -/
theorem iterate_hwErrors : (s.iterate inp).1.hwErrors = s.hwErrors.pass inp.faults := by
  rw [iterate_fst, mode_hwErrors, telemetry_hwErrors]
  rfl

theorem iterate_countdown :
    (s.iterate inp).1.countdown = if s.countdown = 0 then 1000 else s.countdown - 1 := by
  rw [iterate_fst, (mode_frame _ _ _ _).1, telemetry_countdown]
  rfl

theorem iterate_msgIn :
    (s.iterate inp).1.msgIn
      = if s.countdown = 0 then (receive s.msgIn inp.vinDetect inp.received).1 else s.msgIn := by
  rw [iterate_fst, (mode_frame _ _ _ _).2, telemetry_msgIn]
  rfl

end Iterate

end Buckboost

/-! ### Endless runs -/

section Loop

variable (b : BootInputs) (env : Nat → Inputs)

/-- The variables before iteration `n`. -/
def loopAt (n : Nat) : Buckboost :=
  stateAt (fun s inp => (s.iterate inp).1) (Buckboost.boot b) env n

theorem loopAt_succ (n : Nat) : loopAt b env (n + 1) = ((loopAt b env n).iterate (env n)).1 :=
  rfl

/-- What iteration `n` does to the outside. -/
def effectsAt (n : Nat) : List Effect := ((loopAt b env n).iterate (env n)).2

/-- The result of `check` in iteration `n`. -/
def errorsAt (n : Nat) : UInt8 := (loopAt b env n).errors (env n)

/-- The branch of iteration `n`. -/
theorem branch_casesAt (n : Nat) :
    (errorsAt b env n = 0 ∧ (env n).vinDetect = false) ∨
      (errorsAt b env n = 0 ∧ (env n).vinDetect = true) ∨ errorsAt b env n ≠ 0 :=
  (loopAt b env n).branch_cases (env n)

/-- The power stage before iteration `n`. -/
def outputsAt : Nat → Outputs
  | 0 => Outputs.run ⟨false, Option.none⟩ (Buckboost.bootEffects b)
  | n + 1 => (outputsAt n).run (effectsAt b env n)

theorem outputsAt_succ (n : Nat) :
    outputsAt b env (n + 1)
      = if errorsAt b env n = 0 then ⟨true, some (loopAt b env (n + 1)).drive⟩
        else { outputsAt b env n with pwmEn := false } :=
  Buckboost.run_iterate _ _ _

/-- At the end of an iteration `pwm_en` is high exactly when its `check` was
zero. -/
theorem pwmEn_after (n : Nat) :
    (outputsAt b env (n + 1)).pwmEn = decide (errorsAt b env n = 0) := by
  rw [outputsAt_succ]
  by_cases h : errorsAt b env n = 0
  · show (if errorsAt b env n = 0 then _ else _ : Outputs).pwmEn = _
    rw [if_pos h, decide_eq_true h]
  · rw [if_neg h, decide_eq_false h]

/-- The fault counters of a run are a run of passes. -/
theorem hwErrors_loopAt (n : Nat) :
    (loopAt b env n).hwErrors = HwErrors.new.before (fun k => (env k).faults) n :=
  stateAt_map (fun s : Buckboost => s.hwErrors) (fun inp : Inputs => inp.faults)
    Buckboost.iterate_hwErrors (Buckboost.boot b) env n

theorem errorsAt_eq (n : Nat) :
    errorsAt b env n
      = ((HwErrors.new.before (fun k => (env k).faults) n).check (env n).faults).1.errorCode := by
  rw [errorsAt, Buckboost.errors, hwErrors_loopAt]

/-- The tick counter runs down from 1000 to 0 and starts again. -/
theorem countdown_loopAt (n : Nat) :
    (loopAt b env n).countdown = ((1001 - n % 1001) % 1001 : Nat) := by
  induction n with
  | zero => rfl
  | succ n ih =>
    rw [loopAt_succ, Buckboost.iterate_countdown, ih]
    split
    · omega
    · omega

/-- The telemetry ticks are the iterations 0, 1001, 2002, … -/
theorem expired_iff (n : Nat) : (loopAt b env n).countdown = 0 ↔ n % 1001 = 0 := by
  rw [countdown_loopAt]
  omega

/-! #### Telemetry frames -/

/-- Iteration `n` puts one frame on the UART and nothing else, and the frame decodes
to `m`. -/
def FrameSent (n : Nat) (m : Msg) : Prop :=
  ∃ (frame : Vector UInt8 16) (img : Image) (buf : Vector UInt8 16),
    uartBytes (effectsAt b env n) = frame.toList ∧
    msgCobsDecode frame (by decide) = some (img, buf) ∧ Msg.ofImage img = m

/-- The message of a tick in iteration `n`. -/
def telemetryAt (n : Nat) : Msg :=
  (loopAt b env n).msgOut.fill (Adc.sampleAll (env n).reads).1

/-- A tick sends a frame, and the frame decodes to the message of the tick. -/
theorem frameSent_iff (n : Nat) (m : Msg) :
    FrameSent b env n m ↔ n % 1001 = 0 ∧ m = telemetryAt b env n := by
  have hbytes := Buckboost.uartBytes_iterate (loopAt b env n) (env n)
  by_cases htick : n % 1001 = 0
  · rw [if_pos ((expired_iff b env n).mpr htick)] at hbytes
    obtain ⟨image, himage⟩ : ∃ image, image = (telemetryAt b env n).image (env n).tail :=
      ⟨_, rfl⟩
    have hsent : uartBytes (effectsAt b env n) = stuffed image.toList ++ [0] := by
      rw [himage]
      exact hbytes
    have hlen : (stuffed image.toList ++ [0]).length = 16 := by
      rw [List.length_append, length_stuffed_image]
      rfl
    -- The decoder reads any frame with these bytes as the message.
    have hdecode : ∀ frame : Vector UInt8 16, stuffed image.toList ++ [0] = frame.toList →
        ∃ buf, msgCobsDecode frame (by decide) = some (image, buf) := by
      intro frame hframe
      exact msgCobsDecode_eq_some frame (by decide) image [] hframe.symm
    have hread : Msg.ofImage image = telemetryAt b env n := by
      rw [himage]
      exact Msg.ofImage_image _ _
    constructor
    · rintro ⟨frame, img, buf, huart, hdec, hm⟩
      obtain ⟨buf', hdec'⟩ := hdecode frame (hsent.symm.trans huart)
      rw [hdec, Option.some.injEq, Prod.mk.injEq] at hdec'
      rw [← hm, hdec'.1, hread]
      exact ⟨htick, rfl⟩
    · rintro ⟨-, rfl⟩
      obtain ⟨frame, hframe⟩ : ∃ frame : Vector UInt8 16,
          stuffed image.toList ++ [0] = frame.toList :=
        ⟨⟨(stuffed image.toList ++ [0]).toArray, by simpa using hlen⟩, rfl⟩
      obtain ⟨buf, hdec⟩ := hdecode frame hframe
      exact ⟨frame, image, buf, hsent.trans hframe, hdec, hread⟩
  · rw [if_neg (fun h => htick ((expired_iff b env n).mp h))] at hbytes
    constructor
    · rintro ⟨frame, img, buf, huart, -, -⟩
      have hzero := congrArg List.length (hbytes.symm.trans huart)
      rw [Vector.length_toList] at hzero
      cases hzero
    · rintro ⟨htick', -⟩
      exact absurd htick' htick

/-- Between ticks nothing is sent. -/
theorem uartBytes_effectsAt {n : Nat} (h : n % 1001 ≠ 0) :
    uartBytes (effectsAt b env n) = [] := by
  have hbytes := Buckboost.uartBytes_iterate (loopAt b env n) (env n)
  rw [if_neg (fun h0 => h ((expired_iff b env n).mp h0))] at hbytes
  exact hbytes

end Loop

/-! ### A bench -/

/-- A boot with every device ready and every read at 0 mV. -/
def benchBoot : BootInputs where
  pidJunk := (0, 0, 0)
  batteryJunk := (0, 0)
  cycles := 0
  adcName := fun _ => "adc"
  adcReady := fun _ => true
  setupErr := fun _ => 0
  reads := fun _ => ⟨0, 0⟩
  pwmName := "pwm"
  pwmReady := true
  uartReady := true

/-- Iterations with mains power, no fault and no message, every read at 0 mV. The counter
moves on by a millisecond from one to the next. -/
def benchInputs (n : Nat) : Inputs where
  reads := fun _ => ⟨0, 0⟩
  vinDetect := true
  faults := ⟨false, false, false⟩
  cycles := UInt32.ofNat (125000 * (n + 1))
  received := Option.none
  tail := 0

end UpsFirmware
