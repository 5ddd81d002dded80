import UpsFirmware.Lib.Runs
import UpsFirmware.Lib.Streaks
import UpsFirmware.Link.Delivery

/-!
# `UpsFirmware.Esp32.PowerButton`: the button that asks for a shutdown

The main loop of the ESP32 (`esp32-app/src/main.c`) runs ten times a second. It counts
down while the button is held, and sends a message with `power_dwn` set when the countdown
has run out. Below that it looks for the edges of the button, toggles the LED and tells
the screen thread.

One pass of the loop reads the button three or four times. `Pass` gives all these
readings, so that the button may change in the middle of a pass. Only the first one is
the sample of the countdown.

`powerDown_hold` says which samples lead to a frame. The countdown is one of
`Lib.Streaks`, for the streak of pressed samples. `requests_received` follows the frames
to the RP2040: its `serial_cb` hands over one request for every one that was sent.
-/

set_option autoImplicit false

namespace UpsFirmware.Esp32

open Lib Lib.Stuffing

def LOOP_SLEEP_MS : Nat := 100
def PB_HOLD_PD_MS : Nat := 1000
def PWR_DWN_INIT : Nat := PB_HOLD_PD_MS / LOOP_SLEEP_MS

/-- What a pass does to the outside. `setPbRe` is the store to `pb_re`, which the screen
thread reads and clears. -/
inductive MainEffect where
  | printk (text : String)
  | uartPollOut (b : UInt8)
  | setPbRe
  | gpioPinToggle
deriving DecidableEq

/-- The inputs of a pass: what `gpio_pin_get_dt(&pb)` returns when it is called the `k`th
time, which is negative if the driver fails, and the padding byte of the message that is
passed by value. -/
structure Pass where
  pb : Nat → Int
  tail : UInt8

/-- The locals of `main` that survive a pass. -/
structure MainLoop where
  pwrDwn : Int
  prevPbState : Bool
  uartbuf : Vector UInt8 64

/-- `main` before its loop, where `pb` is the first reading of the button. -/
def MainLoop.start (pb : Int) : MainLoop where
  pwrDwn := PWR_DWN_INIT
  prevPbState := pb ≠ 0
  uartbuf := Vector.replicate 64 0

/-- The message that `main` sends: `memset` to zero, and `power_dwn` set. -/
def powerDownMsg : Msg where
  vout := 0
  vbat := 0
  iout := 0
  ibat := 0
  gas := 0
  state := 0
  pad := 0
  powerDwn := 1

/-- The countdown at the top of a pass. -/
def MainLoop.hold (s : MainLoop) (p : Pass) : MainLoop × List MainEffect :=
  if p.pb 0 ≠ 0 then
    -- `pwr_dwn--` gives the old value. At zero the new one is overwritten at once.
    if s.pwrDwn = 0 then
      let r := msgCobsEncode (powerDownMsg.image p.tail) s.uartbuf frame_fits
      ({ s with uartbuf := r.1, pwrDwn := PWR_DWN_INIT },
        .printk "Power Down Requested" :: (printUart r.1 r.2).map .uartPollOut)
    else ({ s with pwrDwn := s.pwrDwn - 1 }, [])
  else ({ s with pwrDwn := PWR_DWN_INIT }, [])

/-- The edges of the button. `&&` reads the button first, so the second condition reads
it again. -/
def MainLoop.edges (s : MainLoop) (p : Pass) : MainLoop × List MainEffect :=
  if p.pb 1 ≠ 0 ∧ s.prevPbState = false then
    -- Rising Edge
    ({ s with prevPbState := p.pb 2 ≠ 0 }, [.setPbRe, .gpioPinToggle])
  else if p.pb 2 = 0 ∧ s.prevPbState = true then
    -- Falling Edge
    ({ s with prevPbState := p.pb 3 ≠ 0 }, [])
  else (s, [])

/-- One pass of the loop. -/
def MainLoop.iterate (s : MainLoop) (p : Pass) : MainLoop × List MainEffect :=
  let (s, holdEffects) := s.hold p
  let (s, edgeEffects) := s.edges p
  (s, holdEffects ++ edgeEffects)

/-- The bytes that effects put on the UART. -/
def sentBytes (fx : List MainEffect) : List UInt8 :=
  fx.filterMap fun
    | .uartPollOut b => some b
    | _ => none

/-! ### Runs -/

section Runs

variable (pb : Int) (passes : Nat → Pass)

/-- The loop before pass `n`. -/
def mainAt (n : Nat) : MainLoop :=
  stateAt (fun s p => (s.iterate p).1) (MainLoop.start pb) passes n

/-- The bytes that pass `n` puts on the UART. -/
def sentAt (n : Nat) : List UInt8 := sentBytes ((mainAt pb passes n).iterate (passes n)).2

/-- The sample of a pass is pressed. -/
abbrev Pass.Pressed (p : Pass) : Prop := p.pb 0 ≠ 0

/-- The length of the unbroken run of pressed samples that ends with sample `n`. -/
def holdLength (n : Nat) : Nat := streak (fun k => (passes k).Pressed) (n + 1)

/-- A frame has the bytes that the decoder copies. -/
theorem message_fits_frame : sizeofMsg + 1 ≤ 16 := by decide

/-- These bytes are one frame, and it decodes to `m`. -/
def IsFrame (bytes : List UInt8) (m : Msg) : Prop :=
  ∃ (frame : Vector UInt8 16) (img : Image) (buf : Vector UInt8 16),
    bytes = frame.toList ∧ msgCobsDecode frame message_fits_frame = some (img, buf) ∧
      Msg.ofImage img = m

/-- What the edges do not touch. -/
theorem MainLoop.edges_pwrDwn (s : MainLoop) (p : Pass) : (s.edges p).1.pwrDwn = s.pwrDwn := by
  rw [edges]
  split
  · rfl
  · split
    · rfl
    · rfl

theorem MainLoop.sentBytes_edges (s : MainLoop) (p : Pass) : sentBytes (s.edges p).2 = [] := by
  rw [edges]
  split
  · rfl
  · split
    · rfl
    · rfl

theorem sentBytes_map (bytes : List UInt8) :
    sentBytes (bytes.map .uartPollOut) = bytes := by
  rw [sentBytes, List.filterMap_map]
  exact List.filterMap_some

/-- The countdown in one pass. -/
theorem MainLoop.iterate_pwrDwn (s : MainLoop) (p : Pass) :
    (s.iterate p).1.pwrDwn
      = if p.Pressed ∧ s.pwrDwn ≠ 0 then s.pwrDwn - 1 else PWR_DWN_INIT := by
  show ((s.hold p).1.edges p).1.pwrDwn = _
  rw [edges_pwrDwn, hold]
  by_cases hp : p.pb 0 ≠ 0
  · rw [if_pos hp]
    by_cases hzero : s.pwrDwn = 0
    · rw [if_pos hzero, if_neg (fun h => h.2 hzero)]
    · rw [if_neg hzero, if_pos ⟨hp, hzero⟩]
  · rw [if_neg hp, if_neg (fun h => hp h.1)]

/-- The bytes that one pass sends: the frame of the message, if the button is pressed and
the countdown has run out. -/
theorem MainLoop.sentBytes_iterate (s : MainLoop) (p : Pass) :
    sentBytes (s.iterate p).2
      = if p.Pressed ∧ s.pwrDwn = 0 then
          stuffed (powerDownMsg.image p.tail).toList ++ [0]
        else [] := by
  show sentBytes ((s.hold p).2 ++ ((s.hold p).1.edges p).2) = _
  have happend : ∀ fx gx : List MainEffect, sentBytes (fx ++ gx) = sentBytes fx ++ sentBytes gx :=
    fun fx gx => List.filterMap_append
  rw [happend, sentBytes_edges, List.append_nil, hold]
  by_cases hp : p.pb 0 ≠ 0
  · rw [if_pos hp]
    by_cases hzero : s.pwrDwn = 0
    · rw [if_pos hzero, if_pos ⟨hp, hzero⟩, ← printUart_msgCobsEncode _ s.uartbuf frame_fits]
      exact sentBytes_map _
    · rw [if_neg hzero, if_neg (fun h => hzero h.2)]
      rfl
  · rw [if_neg hp, if_neg (fun h => hp h.1)]
    rfl

/-- The frame of a message decodes to the message. -/
theorem isFrame_stuffed (m : Msg) (tail : UInt8) :
    IsFrame (stuffed (m.image tail).toList ++ [0]) m := by
  have hlen : (stuffed (m.image tail).toList ++ [0]).toArray.size = 16 := by
    rw [List.size_toArray, List.length_append, length_stuffed_image]
    rfl
  obtain ⟨buf, hdecode⟩ := msgCobsDecode_eq_some
    ⟨(stuffed (m.image tail).toList ++ [0]).toArray, hlen⟩ message_fits_frame (m.image tail) []
    rfl
  exact ⟨_, _, buf, rfl, hdecode, Msg.ofImage_image m tail⟩

/-- The countdown of the loop is a countdown of `Lib.Streaks`. -/
theorem mainAt_pwrDwn_succ (n : Nat) :
    (mainAt pb passes (n + 1)).pwrDwn
      = if (passes n).Pressed ∧ (mainAt pb passes n).pwrDwn ≠ 0 then
          (mainAt pb passes n).pwrDwn - 1
        else PWR_DWN_INIT :=
  MainLoop.iterate_pwrDwn _ _

/-- What pass `n` sends. -/
theorem sentAt_eq (n : Nat) :
    sentAt pb passes n
      = if (passes n).Pressed ∧ (mainAt pb passes n).pwrDwn = 0 then
          stuffed (powerDownMsg.image (passes n).tail).toList ++ [0]
        else [] :=
  MainLoop.sentBytes_iterate _ _

/-- A pass sends bytes exactly when its sample is pressed and ends a run of pressed
samples whose length is a multiple of 11. -/
theorem sentAt_ne_nil_iff (n : Nat) :
    sentAt pb passes n ≠ [] ↔ (passes n).Pressed ∧ 11 ∣ holdLength passes n := by
  have hfires := countdown_fires_iff (fun k => (mainAt pb passes k).pwrDwn) rfl
    (mainAt_pwrDwn_succ pb passes) n
  refine Iff.trans ?_ hfires
  rw [sentAt_eq]
  split
  · next h => exact iff_of_true (by simp) h
  · next h => exact iff_of_false (fun hne => hne rfl) h

/-- Short presses do not add up: behind a frame there are eleven pressed samples in a
row. -/
theorem pressed_of_sentAt {n : Nat} (h : sentAt pb passes n ≠ []) :
    10 ≤ n ∧ ∀ i ≤ n, n ≤ i + 10 → (passes i).Pressed := by
  obtain ⟨hp, hdvd⟩ := (sentAt_ne_nil_iff pb passes n).mp h
  have hpos : 0 < holdLength passes n := by
    rw [holdLength, streak_succ, if_pos hp]
    exact Nat.succ_pos _
  have hlong : 11 ≤ holdLength passes n := Nat.le_of_dvd hpos hdvd
  obtain ⟨hn, hrun⟩ := (le_streak_iff (fun k => (passes k).Pressed) (n + 1) 11).mp hlong
  exact ⟨by omega, fun i hi hlast => hrun i (by omega) (by omega)⟩

/-- The bytes of the first `n` passes. -/
def sentBefore (n : Nat) : List UInt8 := (List.range n).flatMap (sentAt pb passes)

/-- The request of pass `n`: there is one at every eleventh sample of a run of pressed
samples. -/
def requestAt (n : Nat) : List Image :=
  if (passes n).Pressed ∧ 11 ∣ holdLength passes n then [powerDownMsg.image (passes n).tail]
  else []

/-- The requests of the first `n` passes. -/
def requestsBefore (n : Nat) : List Image := (List.range n).flatMap (requestAt passes)

theorem sentBefore_succ (n : Nat) :
    sentBefore pb passes (n + 1) = sentBefore pb passes n ++ sentAt pb passes n := by
  rw [sentBefore, List.range_succ, List.flatMap_append, List.flatMap_singleton, ← sentBefore]

theorem requestsBefore_succ (n : Nat) :
    requestsBefore passes (n + 1) = requestsBefore passes n ++ requestAt passes n := by
  rw [requestsBefore, List.range_succ, List.flatMap_append, List.flatMap_singleton,
    ← requestsBefore]

/-- A receiver that is ready hands over the request of a pass. -/
theorem ready_sentAt {cap : ℕ+} {p : SerialPort cap} (hp : Ready p) (n : Nat) :
    ∃ p', runLog receiveByte p (sentAt pb passes n) = some (p', requestAt passes n) ∧
      Ready p' := by
  have hiff := sentAt_ne_nil_iff pb passes n
  rw [sentAt_eq] at hiff ⊢
  rw [requestAt]
  split
  · next h =>
    rw [if_pos h] at hiff
    obtain ⟨p', hrun, hready, -⟩ := ready_frame hp (powerDownMsg.image (passes n).tail)
    refine ⟨p', ?_, hready⟩
    rw [runLog_receiveByte, hrun, if_pos (hiff.mp (by simp)), Option.map_some,
      handedOver_completes]
  · next h =>
    rw [if_neg h] at hiff
    refine ⟨p, ?_, hp⟩
    rw [runLog_nil, if_neg (fun hsend => hiff.mpr hsend rfl)]

/-- And so it does for any number of passes. -/
theorem ready_sentBefore {cap : ℕ+} {p : SerialPort cap} (hp : Ready p) (n : Nat) :
    ∃ p', runLog receiveByte p (sentBefore pb passes n) = some (p', requestsBefore passes n) ∧
      Ready p' := by
  induction n with
  | zero => exact ⟨p, rfl, hp⟩
  | succ n ih =>
    obtain ⟨p₁, hrun₁, hready₁⟩ := ih
    obtain ⟨p₂, hrun₂, hready₂⟩ := ready_sentAt pb passes hready₁ n
    refine ⟨p₂, ?_, hready₂⟩
    rw [sentBefore_succ, requestsBefore_succ, runLog_append_of_some receiveByte _ hrun₁, hrun₂]
    rfl

/-- The RP2040 receives what the button asks for. However the bytes of the first `n`
passes are split over interrupts, `k_msgq_put` takes exactly their requests. -/
theorem requests_received {cap : ℕ+} (q : MsgQueue Image cap) (n : Nat)
    (irqs : List Interrupt) (hbytes : irqs.flatMap Interrupt.bytes = sentBefore pb passes n) :
    ∃ p log, runLog serialCb (SerialPort.powerUp q) irqs = some (p, log) ∧
      handedOver log = requestsBefore passes n ∧
      ∀ img ∈ requestsBefore passes n, Msg.ofImage img = powerDownMsg := by
  obtain ⟨p', hreceive, -⟩ := ready_sentBefore pb passes (ready_powerUp q) n
  rw [runLog_receiveByte, Option.map_eq_some_iff] at hreceive
  obtain ⟨⟨p, log⟩, hrun, heq⟩ := hreceive
  rw [Prod.mk.injEq] at heq
  refine ⟨p, log, by rw [runLog_serialCb, hbytes, hrun], heq.2, fun img himg => ?_⟩
  obtain ⟨k, -, himg⟩ := List.mem_flatMap.mp himg
  rw [requestAt] at himg
  split at himg
  · rw [List.mem_singleton.mp himg]
    exact Msg.ofImage_image _ _
  · cases himg

/-- A pass sends bytes exactly when its sample is pressed and ends a run of pressed
samples whose length is a multiple of 11. What it sends is one frame with the request to
power down, and the countdown is between 0 and 10 before every pass. -/
theorem powerDown_hold (n : Nat) :
    (sentAt pb passes n ≠ [] ↔ (passes n).Pressed ∧ 11 ∣ holdLength passes n) ∧
      (sentAt pb passes n ≠ [] → IsFrame (sentAt pb passes n) powerDownMsg) ∧
      0 ≤ (mainAt pb passes n).pwrDwn ∧ (mainAt pb passes n).pwrDwn ≤ 10 := by
  have hframe : sentAt pb passes n ≠ [] → IsFrame (sentAt pb passes n) powerDownMsg := by
    intro hne
    rw [sentAt_eq] at hne ⊢
    split
    · exact isFrame_stuffed powerDownMsg (passes n).tail
    · next h =>
      rw [if_neg h] at hne
      exact absurd rfl hne
  have hbounds := countdown_bounds (fun k => (mainAt pb passes k).pwrDwn) rfl
    (mainAt_pwrDwn_succ pb passes) n
  exact ⟨sentAt_ne_nil_iff pb passes n, hframe, hbounds⟩

end Runs

end UpsFirmware.Esp32
