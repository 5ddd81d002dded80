import UpsFirmware.Lib.Wire
import UpsFirmware.System.Requests

/-!
# `UpsFirmware.System.Shutdown`: from the button to the battery monitor

A press of the button passes three MCUs before the battery is disconnected. The ESP32
sends a frame when the button was held, the RP2040 decodes it and prints a line with `@`
on its console when mains is absent, and the STM32 shuts the battery monitor down when it
reads that byte.

`Ups` is the three loops with the two lines between them, and `Ups.step` is one pass of
one of the loops. A run is any sequence of such passes, and each of them takes as many
bytes from its line as it likes. What the outside supplies to the loops is in `World`.

`Sound` is the invariant of the runs, and it keeps the accounts of the requests: each of
them was sent, decoded, and then lost, printed or still pending. `shutdown_cause` is what
follows for safety, and `hold_shutsDown` what follows for liveness.
-/

set_option autoImplicit false

namespace UpsFirmware

open Lib Lib.Stuffing
open Stm32 (SHUTDOWN_BYTE SHUTDOWN_WRITES)

/-! ### The three MCUs -/

/-- What the outside supplies: the readings of the button, the inputs of the RP2040 but
for its messages, the inputs of the STM32 but for its bytes, and how `printk` writes a
number. `heard` is how much of the RP2040's first lines the STM32 reads before its
loop. -/
structure World where
  pb : Int
  passes : Nat → Esp32.Pass
  boot : BootInputs
  rp2040 : Nat → Inputs
  format : NumberFormat
  bmsBoot : Stm32.BootInputs
  heard : Nat
  stm32 : Nat → Stm32.Inputs

/-- The three loops, how many passes each of them has made, and the lines between them. -/
structure Ups where
  main : Esp32.MainLoop
  passes : Nat
  uplink : Wire UInt8
  port : SerialPort Rp2040.MSGQ_SIZE
  loop : Buckboost
  iterations : Nat
  console : Wire UInt8
  bms : Stm32.Bms
  rounds : Nat

/-- A pass of one of the loops. The RP2040 takes some bytes before its telemetry block
and some from there on, the STM32 takes some before it tests its flag and some after. -/
inductive Move where
  | esp32
  | rp2040 (before during : Nat)
  | stm32 (before after : Nat)
deriving DecidableEq

def Move.isRp2040 : Move → Bool
  | .rp2040 _ _ => true
  | _ => false

namespace Ups

variable (w : World)

/-- The console before the loops. -/
def bootConsole : Wire UInt8 :=
  Wire.idle.send (w.format.consoleBytes (Buckboost.bootEffects w.boot))

/-- The MCUs before their loops. `none` is `hard_fault` on the STM32. -/
def start : Option Ups :=
  let heard := (bootConsole w).receive w.heard
  (Stm32.startUp { w.bmsBoot with rx := heard.1 }).1.map fun bms =>
    { main := Esp32.MainLoop.start w.pb
      passes := 0
      uplink := Wire.idle
      port := SerialPort.powerUp MsgQueue.empty
      loop := Buckboost.boot w.boot
      iterations := 0
      console := heard.2
      bms := bms
      rounds := 0 }

/-- A pass of the RP2040's loop, when `serial_cb` has decoded these messages. -/
def iterate (s : Ups) (before during : List Image) : Rp2040 × List Effect :=
  let mcu : Rp2040 := ⟨s.loop, s.port.msgq⟩
  let t : Traffic := ⟨w.rp2040 s.iterations, before, during⟩
  (mcu.step t, (s.loop.iterate (mcu.inputs t)).2)

/-- One pass, and the register writes of the STM32 in it. `none` is an access outside
`rx_buf` in `serial_cb`. -/
def step (s : Ups) : Move → Option (Ups × List (List (UInt8 × UInt8)))
  | .esp32 =>
    let r := s.main.iterate (w.passes s.passes)
    some ({ s with
        main := r.1
        passes := s.passes + 1
        uplink := s.uplink.send (Esp32.sentBytes r.2) }, [])
  | .rp2040 before during =>
    let early := s.uplink.receive before
    let late := early.2.receive during
    -- What is in the queue does not matter to the decoding.
    (runLog receiveByte s.port early.1).bind fun r₁ =>
      (runLog receiveByte r₁.1 late.1).map fun r₂ =>
        let r := s.iterate w r₁.2 r₂.2
        ({ s with
            uplink := late.2
            port := { r₂.1 with msgq := r.1.msgq }
            loop := r.1.loop
            iterations := s.iterations + 1
            console := s.console.send (w.format.consoleBytes r.2) }, [])
  | .stm32 before after =>
    let early := s.console.receive before
    let late := early.2.receive after
    let r := s.bms.iterate { w.stm32 s.rounds with rxBefore := early.1, rxAfter := late.1 }
    some ({ s with console := late.2, bms := r.1, rounds := s.rounds + 1 },
      [Stm32.writes r.2])

end Ups

/-! ### The accounts -/

namespace Ups

/-- The RP2040 with its queue. -/
def mcu (s : Ups) : Rp2040 := ⟨s.loop, s.port.msgq⟩

/-- How often the RP2040 has written the byte. -/
def lines (s : Ups) : Nat := s.console.sent.count SHUTDOWN_BYTE

/-- The receiver of the RP2040 has decoded these requests. Each of them was printed, is
in `msg_in` or in the queue, or is lost, and not all of them are lost. -/
structure Accounts (s : Ups) (ms : List Image) : Prop where
  decoded : ∃ p : SerialPort Rp2040.MSGQ_SIZE,
    runLog receiveByte (SerialPort.powerUp MsgQueue.empty) s.uplink.arrived = some (p, ms) ∧
      s.port = { p with msgq := s.port.msgq }
  items : ∀ img ∈ s.port.msgq.items, (Msg.ofImage img).powerDwn ≠ 0
  le : s.lines + s.loop.msgIn.asks + s.port.msgq.items.length ≤ ms.length
  kept : ms ≠ [] → 0 < s.lines ∨ s.mcu.Pending

/-- The invariant of the runs. -/
structure Sound (w : World) (s : Ups) : Prop where
  main_eq : s.main = Esp32.mainAt w.pb w.passes s.passes
  uplink_eq : s.uplink.sent = Esp32.sentBefore w.pb w.passes s.passes
  absent : s.port.msgq.waiter = .absent
  countdown_nonneg : 0 ≤ s.loop.countdown
  countdown_le : s.loop.countdown ≤ 1000
  accounts : ∃ ms, s.Accounts ms
  counter : s.bms.faultCounter.toNat = min 10 (Nat.count (Stm32.Faulty w.stm32) s.rounds)
  flag : s.bms.shutdown = s.console.arrived.foldl Stm32.usart2Isr false

variable {w : World}

theorem start_eq_some {s : Ups} (h : start w = some s) : s.passes = 0 ∧ s.rounds = 0 := by
  obtain ⟨bms, -, rfl⟩ := Option.map_eq_some_iff.mp h
  exact ⟨rfl, rfl⟩

/-- Before the loops nothing was sent. -/
theorem sound_start (hnames : NamesHidden w.boot) {s : Ups} (h : start w = some s) :
    s.Sound w := by
  obtain ⟨bms, hbms, rfl⟩ := Option.map_eq_some_iff.mp h
  obtain ⟨hcounter, hflag⟩ := Stm32.startUp_eq_some _ hbms
  have hlines : (bootConsole w).sent.count SHUTDOWN_BYTE = 0 := by
    show ([] ++ _ : List UInt8).count SHUTDOWN_BYTE = 0
    rw [List.nil_append]
    exact count_bootEffects w.format hnames
  refine
    { main_eq := rfl
      uplink_eq := rfl
      absent := rfl
      countdown_nonneg := Int.le_refl 0
      countdown_le := (by decide : (0 : Int) ≤ 1000)
      accounts := ⟨[], ⟨_, rfl, rfl⟩, fun _ h => absurd h List.not_mem_nil, ?_,
        fun h => absurd rfl h⟩
      counter := ?_
      flag := ?_ }
  · show (bootConsole w).sent.count SHUTDOWN_BYTE + 0 + 0 ≤ 0
    omega
  · show bms.faultCounter.toNat = min 10 0
    rw [hcounter]
    rfl
  · show bms.shutdown = (((bootConsole w).receive w.heard).2.arrived).foldl _ false
    rw [hflag, Wire.arrived_receive]
    rfl

section Steps

variable {s : Ups} (h : s.Sound w)

include h

/-- A pass of the ESP32's loop. -/
theorem sound_esp32 : ∃ s', s.step w .esp32 = some (s', []) ∧ s'.Sound w ∧
    s'.passes = s.passes + 1 ∧ s'.iterations = s.iterations ∧ s'.rounds = s.rounds ∧
      s'.uplink = s.uplink.send (Esp32.sentAt w.pb w.passes s.passes) ∧ s'.mcu = s.mcu ∧
      s'.console = s.console := by
  have hsent : Esp32.sentBytes (s.main.iterate (w.passes s.passes)).2
      = Esp32.sentAt w.pb w.passes s.passes := by
    rw [h.main_eq]
    rfl
  refine ⟨_, rfl, { h with main_eq := ?_, uplink_eq := ?_, accounts := ?_ }, rfl, rfl, rfl,
    by rw [hsent], rfl, rfl⟩
  · show (s.main.iterate (w.passes s.passes)).1 = _
    rw [h.main_eq]
    rfl
  · show s.uplink.sent ++ Esp32.sentBytes (s.main.iterate (w.passes s.passes)).2 = _
    rw [h.uplink_eq, hsent, Esp32.sentBefore_succ]
  · -- What is sent has not arrived.
    obtain ⟨ms, haccounts⟩ := h.accounts
    obtain ⟨p, hrun, hport⟩ := haccounts.decoded
    refine ⟨ms, { haccounts with decoded := ⟨p, ?_, hport⟩ }⟩
    show runLog receiveByte _ (s.uplink.send _).arrived = _
    rw [Wire.arrived_send]
    exact hrun

/-- A pass of the STM32's loop. -/
theorem sound_stm32 (before after : Nat) :
    ∃ s' ws, s.step w (.stm32 before after) = some (s', [ws]) ∧ s'.Sound w ∧
      s'.passes = s.passes ∧ s'.iterations = s.iterations ∧ s'.rounds = s.rounds + 1 ∧
      s'.uplink = s.uplink ∧ s'.mcu = s.mcu ∧ s'.lines = s.lines ∧
      (SHUTDOWN_WRITES <:+: ws ↔
        (Stm32.Faulty w.stm32 s.rounds ∧ 10 ≤ Nat.count (Stm32.Faulty w.stm32) s.rounds) ∨
          (w.stm32 s.rounds).pa0 = false ∨
          SHUTDOWN_BYTE ∈ (s.console.receive before).2.arrived) := by
  have hcounter := h.counter
  refine ⟨_, _, rfl, { h with accounts := ?_, counter := ?_, flag := ?_ }, rfl, rfl, rfl,
    rfl, rfl, rfl, ?_⟩
  · obtain ⟨ms, haccounts⟩ := h.accounts
    exact ⟨ms, haccounts.decoded, haccounts.items, haccounts.le, haccounts.kept⟩
  · show (Stm32.Bms.iterate s.bms _).1.faultCounter.toNat = _
    rw [Stm32.Bms.iterate_faultCounter (by omega), h.counter, Nat.count_succ]
    show min 10 (min 10 (Nat.count (Stm32.Faulty w.stm32) s.rounds) +
      if Stm32.Faulty w.stm32 s.rounds then 1 else 0) = _
    omega
  · show (Stm32.Bms.iterate s.bms _).1.shutdown = _
    rw [Stm32.Bms.iterate_shutdown, h.flag, ← List.foldl_append, ← List.append_assoc,
      ← Wire.arrived_receive, ← Wire.arrived_receive]
  · have hten : (10 : UInt8).toNat = 10 := rfl
    have hfull : ¬ s.bms.faultCounter < 10 ↔ 10 ≤ Nat.count (Stm32.Faulty w.stm32) s.rounds := by
      rw [UInt8.lt_iff_toNat_lt, h.counter, hten]
      omega
    have htest : SHUTDOWN_BYTE ∈ (s.console.receive before).2.arrived ↔
        ((s.console.receive before).1.foldl Stm32.usart2Isr s.bms.shutdown) = true := by
      rw [h.flag, ← List.foldl_append, ← Wire.arrived_receive, Stm32.foldl_usart2Isr]
      simp
    rw [Stm32.Bms.shutsDown_iterate_iff, hfull, htest]
    exact Iff.rfl

/-- What `serial_cb` decodes in a pass of the RP2040's loop. -/
theorem decode_rp2040 {ms : List Image} (haccounts : s.Accounts ms) (before during : Nat) :
    ∃ r₁ r₂ new₁ new₂,
      runLog receiveByte s.port (s.uplink.receive before).1 = some (r₁, new₁) ∧
      runLog receiveByte r₁ ((s.uplink.receive before).2.receive during).1 = some (r₂, new₂) ∧
      (∃ p : SerialPort Rp2040.MSGQ_SIZE,
        runLog receiveByte (SerialPort.powerUp MsgQueue.empty)
            ((s.uplink.receive before).2.receive during).2.arrived
          = some (p, ms ++ new₁ ++ new₂) ∧
        r₂ = { p with msgq := r₂.msgq }) ∧
      ms ++ new₁ ++ new₂ <+: Esp32.requestsBefore w.passes s.passes := by
  obtain ⟨p, hrun, hport⟩ := haccounts.decoded
  have hfront := Wire.isPrefix_arrived ((s.uplink.receive before).2.receive during).2
  rw [Wire.sent_receive, Wire.sent_receive, h.uplink_eq] at hfront
  obtain ⟨q, decoded, hall, hrequests, -⟩ :=
    Esp32.decoded_of_isPrefix w.pb w.passes s.passes hfront
  have hwhole := hall
  rw [Wire.arrived_receive, Wire.arrived_receive] at hwhole
  -- The bytes before, the early ones, and the late ones.
  obtain ⟨⟨p₁, ms₁⟩, hfirst⟩ := runLog_of_append receiveByte hwhole
  have hearly := hfirst
  rw [runLog_append_of_some receiveByte _ hrun] at hearly
  obtain ⟨⟨p₁', new₁⟩, hnew₁, heq₁⟩ := Option.map_eq_some_iff.mp hearly
  cases heq₁
  rw [runLog_append_of_some receiveByte _ hfirst] at hwhole
  obtain ⟨⟨p₂, new₂⟩, hnew₂, heq₂⟩ := Option.map_eq_some_iff.mp hwhole
  cases heq₂
  obtain ⟨r₁, hr₁, hsame₁⟩ := runLog_of_sameBuffer hport hnew₁
  obtain ⟨r₂, hr₂, hsame₂⟩ := runLog_of_sameBuffer hsame₁ hnew₂
  exact ⟨r₁, r₂, new₁, new₂, hr₁, hr₂, ⟨_, hall, hsame₂⟩, hrequests⟩

/-- A pass of the RP2040's loop. -/
theorem sound_rp2040 (before during : Nat) :
    ∃ s' t, s.step w (.rp2040 before during) = some (s', []) ∧ s'.Sound w ∧
      s'.passes = s.passes ∧ s'.iterations = s.iterations + 1 ∧ s'.rounds = s.rounds ∧
      s'.uplink = ((s.uplink.receive before).2.receive during).2 ∧
      s'.mcu = s.mcu.step t ∧ s'.lines = s.lines + s.mcu.lines t ∧
      t.inputs = w.rp2040 s.iterations ∧
      (s.uplink.inFlight = [] → t.before = [] ∧ t.during = []) := by
  obtain ⟨ms, haccounts⟩ := h.accounts
  obtain ⟨r₁, r₂, new₁, new₂, hr₁, hr₂, hdecoded, hrequests⟩ :=
    decode_rp2040 h haccounts before during
  have hasks : ∀ img ∈ s.mcu.items ++ new₁ ++ new₂, (Msg.ofImage img).powerDwn ≠ 0 := by
    intro img himg
    rw [List.append_assoc, List.mem_append] at himg
    rcases himg with himg | himg
    · exact haccounts.items img himg
    · refine Esp32.asks_of_mem_requestsBefore (hrequests.subset ?_)
      rw [List.append_assoc]
      exact List.mem_append_right _ himg
  have hstep : s.step w (.rp2040 before during)
      = some ({ s with
          uplink := ((s.uplink.receive before).2.receive during).2
          port := { r₂ with msgq := (s.iterate w new₁ new₂).1.msgq }
          loop := (s.iterate w new₁ new₂).1.loop
          iterations := s.iterations + 1
          console := s.console.send
            (w.format.consoleBytes (s.iterate w new₁ new₂).2) }, []) := by
    show (runLog receiveByte s.port _).bind _ = _
    rw [hr₁]
    show (runLog receiveByte r₁ _).map _ = _
    rw [hr₂]
    rfl
  have hqueue : s.mcu.msgq.waiter = .absent := h.absent
  obtain ⟨hsub, habsent, -, -⟩ :=
    Rp2040.dequeue_spec (t := ⟨w.rp2040 s.iterations, new₁, new₂⟩) hqueue
  have hlines : (s.console.sent ++ w.format.consoleBytes (s.iterate w new₁ new₂).2).count
      SHUTDOWN_BYTE = s.lines + s.mcu.lines ⟨w.rp2040 s.iterations, new₁, new₂⟩ := by
    rw [List.count_append]
    show _ + (w.format.consoleBytes (s.loop.iterate _).2).count SHUTDOWN_BYTE = _
    rw [count_iterate]
    rfl
  refine ⟨_, ⟨w.rp2040 s.iterations, new₁, new₂⟩, hstep, ?_, rfl, rfl, rfl, rfl, rfl, hlines, rfl,
    ?_⟩
  · refine
      { main_eq := h.main_eq
        uplink_eq := h.uplink_eq
        absent := habsent
        countdown_nonneg := ?_
        countdown_le := ?_
        accounts := ⟨ms ++ new₁ ++ new₂, ?_⟩
        counter := h.counter
        flag := ?_ }
    · show 0 ≤ (s.mcu.step _).loop.countdown
      rw [Rp2040.countdown_step]
      have hnonneg : 0 ≤ s.mcu.loop.countdown := h.countdown_nonneg
      split
      · decide
      · omega
    · show (s.mcu.step _).loop.countdown ≤ 1000
      rw [Rp2040.countdown_step]
      have hupper : s.mcu.loop.countdown ≤ 1000 := h.countdown_le
      split
      · decide
      · omega
    · obtain ⟨q, hrun, hsame⟩ := hdecoded
      refine ⟨⟨q, hrun, by rw [hsame]⟩, fun img himg => ?_, ?_, fun hsome => ?_⟩
      · exact hasks img (hsub.subset (List.mem_append_right _ himg))
      · have hle := haccounts.le
        have hmoved := Rp2040.lines_add_le (t := ⟨w.rp2040 s.iterations, new₁, new₂⟩) hqueue
        show (s.console.sent ++ _).count SHUTDOWN_BYTE
          + (s.mcu.step _).loop.msgIn.asks + (s.mcu.step _).items.length ≤ _
        rw [hlines, List.length_append, List.length_append]
        show _ ≤ ms.length + new₁.length + new₂.length
        have hmsgIn : s.mcu.loop.msgIn.asks = s.loop.msgIn.asks := rfl
        have hitems : s.mcu.items.length = s.port.msgq.items.length := rfl
        dsimp only at hmoved
        omega
      · show 0 < (s.console.sent ++ _).count SHUTDOWN_BYTE ∨ (s.mcu.step _).Pending
        rw [hlines]
        -- A line stays on the console, and a pending request is taken on by the step.
        have hbefore : 0 < s.lines ∨ s.mcu.Pending ∨ new₁ ++ new₂ ≠ [] := by
          by_cases hms : ms = []
          · rw [hms, List.nil_append] at hsome
            exact Or.inr (Or.inr hsome)
          · exact (haccounts.kept hms).imp id Or.inl
        rcases hbefore with hline | hpending
        · exact Or.inl (by omega)
        · exact (Rp2040.pending_step hqueue hasks hpending).imp (fun hline => by omega) id
    · show s.bms.shutdown = (s.console.send _).arrived.foldl _ false
      rw [Wire.arrived_send]
      exact h.flag
  · intro hnone
    rw [s.uplink.receive_of_inFlight hnone] at hr₁ hr₂
    cases hr₁
    rw [s.uplink.receive_of_inFlight hnone] at hr₂
    cases hr₂
    exact ⟨rfl, rfl⟩

end Steps

/-- The RP2040 writes the byte at most once for every hold. -/
theorem lines_le {s : Ups} (h : s.Sound w) :
    s.lines ≤ Nat.count (Esp32.HoldEnds w.passes) s.passes := by
  obtain ⟨ms, haccounts⟩ := h.accounts
  obtain ⟨p, hrun, -⟩ := haccounts.decoded
  have hfront := s.uplink.isPrefix_arrived
  rw [h.uplink_eq] at hfront
  obtain ⟨q, ms', hrun', hrequests, -⟩ := Esp32.decoded_of_isPrefix w.pb w.passes s.passes hfront
  rw [hrun] at hrun'
  cases hrun'
  have hlen := hrequests.length_le
  rw [Esp32.length_requestsBefore] at hlen
  have hle := haccounts.le
  omega

/-- The STM32 has a reason for a shutdown in its round `k`: an eleventh fault, its own
button, or a hold of the ESP32's button before pass `n`. -/
def Cause (w : World) (n k : Nat) : Prop :=
  (Stm32.Faulty w.stm32 k ∧ 10 ≤ Nat.count (Stm32.Faulty w.stm32) k) ∨
    (w.stm32 k).pa0 = false ∨ ∃ i < n, Esp32.HoldEnds w.passes i

theorem Cause.mono {n n' k : Nat} (h : Cause w n k) (hle : n ≤ n') : Cause w n' k := by
  rcases h with hfault | hbutton | ⟨i, hi, hhold⟩
  · exact Or.inl hfault
  · exact Or.inr (Or.inl hbutton)
  · exact Or.inr (Or.inr ⟨i, Nat.lt_of_lt_of_le hi hle, hhold⟩)

/-- Behind a byte on the console there is a hold. -/
theorem hold_of_lines {s : Ups} (h : s.Sound w) (hlines : 0 < s.lines) :
    ∃ i < s.passes, Esp32.HoldEnds w.passes i := by
  have hcount := lines_le h
  exact Nat.count_ne_iff_exists.mp (by omega)

/-- Every pass can be made, and keeps the invariant. -/
theorem sound_step {s : Ups} (h : s.Sound w) (m : Move) :
    ∃ s' out, s.step w m = some (s', out) ∧ s'.Sound w ∧ s.passes ≤ s'.passes ∧
      s'.rounds = s.rounds + out.length ∧ out.length ≤ 1 ∧
      ∀ ws ∈ out, SHUTDOWN_WRITES <:+: ws → Cause w s.passes s.rounds := by
  cases m with
  | esp32 =>
    obtain ⟨s', hstep, hsound, hpasses, -, hrounds, -⟩ := sound_esp32 h
    exact ⟨s', [], hstep, hsound, by omega, hrounds, Nat.zero_le 1,
      fun _ h => absurd h List.not_mem_nil⟩
  | rp2040 before during =>
    obtain ⟨s', -, hstep, hsound, hpasses, -, hrounds, -⟩ := sound_rp2040 h before during
    exact ⟨s', [], hstep, hsound, by omega, hrounds, Nat.zero_le 1,
      fun _ h => absurd h List.not_mem_nil⟩
  | stm32 before after =>
    obtain ⟨s', ws, hstep, hsound, hpasses, -, hrounds, -, -, -, hshut⟩ :=
      sound_stm32 h before after
    refine ⟨s', [ws], hstep, hsound, by omega, hrounds, Nat.le_refl 1, fun ws' hws' hpart => ?_⟩
    rw [List.mem_singleton.mp hws'] at hpart
    rcases hshut.mp hpart with hfault | hbutton | hbyte
    · exact Or.inl hfault
    · exact Or.inr (Or.inl hbutton)
    · -- What the STM32 has read was written by the RP2040.
      have hwritten : SHUTDOWN_BYTE ∈ s.console.sent :=
        (Wire.isPrefix_arrived (s.console.receive before).2).subset hbyte
      exact Or.inr (Or.inr (hold_of_lines h (List.count_pos_iff.mpr hwritten)))

/-- So every run goes through. -/
theorem sound_run {s : Ups} (h : s.Sound w) (moves : List Move) :
    ∃ s' log, runLog (step w) s moves = some (s', log) ∧ s'.Sound w := by
  induction moves generalizing s with
  | nil => exact ⟨s, [], rfl, h⟩
  | cons m moves ih =>
    obtain ⟨s₁, out, hstep, hsound, -⟩ := sound_step h m
    obtain ⟨s₂, log, hrun, hsound'⟩ := ih hsound
    refine ⟨s₂, out ++ log, ?_, hsound'⟩
    rw [runLog_cons_of_some (step w) moves hstep, hrun]
    rfl

section Runs

variable {s₀ s : Ups} {moves : List Move} {log : List (List (UInt8 × UInt8))}

/-- The bytes that ask for a shutdown, in whatever order the three MCUs work. Every run
goes through without an access outside `rx_buf`, and the RP2040 has written the byte at
most as often as the button was held. -/
theorem lines_le_holds (hnames : NamesHidden w.boot) (hstart : start w = some s₀)
    (moves : List Move) :
    ∃ s log, runLog (step w) s₀ moves = some (s, log) ∧
      s.lines ≤ Nat.count (Esp32.HoldEnds w.passes) s.passes := by
  obtain ⟨s, log, hrun, hsound⟩ := sound_run (sound_start hnames hstart) moves
  exact ⟨s, log, hrun, lines_le hsound⟩

/-- No shutdown comes out of nothing, in whatever order the three MCUs work. Entry `k` of
the log is what round `k` of the STM32 writes, and if that shuts the battery monitor down
then there was a fault, or its button was pressed, or the ESP32's button was held. -/
theorem shutdown_cause (hnames : NamesHidden w.boot) (hstart : start w = some s₀)
    (hrun : runLog (step w) s₀ moves = some (s, log)) :
    log.length = s.rounds ∧
      ∀ k ws, log[k]? = some ws → SHUTDOWN_WRITES <:+: ws → Cause w s.passes k := by
  obtain ⟨-, hrounds⟩ := start_eq_some hstart
  have hinv : s.Sound w ∧ log.length = s.rounds ∧
      ∀ k ws, log[k]? = some ws → SHUTDOWN_WRITES <:+: ws → Cause w s.passes k := by
    refine runLog_history (J := fun s log => s.Sound w ∧ log.length = s.rounds ∧
      ∀ k ws, log[k]? = some ws → SHUTDOWN_WRITES <:+: ws → Cause w s.passes k) (step w) ?_
      ⟨sound_start hnames hstart, hrounds.symm, fun k ws hk => by cases hk⟩ hrun
    rintro s log m s' out ⟨hsound, hlength, hcause⟩ hstep
    obtain ⟨s₁, out₁, hstep₁, hsound', hpasses, hrounds', hone, hnew⟩ := sound_step hsound m
    rw [hstep] at hstep₁
    cases hstep₁
    refine ⟨hsound', by rw [List.length_append]; omega, fun k ws hk hshut => ?_⟩
    by_cases hold : k < log.length
    · rw [List.getElem?_append_left hold] at hk
      exact (hcause k ws hk hshut).mono hpasses
    · -- The last round is the one that this pass adds.
      rw [List.getElem?_append_right (by omega)] at hk
      have hlast : k - log.length < out.length := (List.getElem?_eq_some_iff.mp hk).1
      have hk' : k = s.rounds := by omega
      rw [hk']
      exact (hnew ws (List.mem_of_getElem? hk) hshut).mono hpasses
  exact hinv.2

/-- The queue holds two messages, so a request waits for three ticks at most. -/
theorem wait_le (h : s.Sound w) : s.mcu.wait ≤ 3003 := by
  have hcountdown : s.mcu.loop.countdown ≤ 1000 := h.countdown_le
  have hfits : s.mcu.items.length ≤ 2 := s.mcu.msgq.fits
  rw [Rp2040.wait]
  omega

/-- Once all bytes have arrived and no hold adds to them, a pending request is printed
when the RP2040 has made enough iterations without mains. -/
theorem lines_of_wait (h : s.Sound w) (hidle : s.uplink.inFlight = [])
    (hreleased : ∀ k, s.passes ≤ k → ¬ Esp32.HoldEnds w.passes k)
    (hmains : ∀ k, s.iterations ≤ k → (w.rp2040 k).vinDetect = false)
    (hdue : 0 < s.lines ∨ (s.mcu.Pending ∧ s.mcu.wait ≤ moves.countP Move.isRp2040))
    {s' : Ups} (hrun : runLog (step w) s moves = some (s', log)) : 0 < s'.lines := by
  induction moves generalizing s log with
  | nil =>
    cases hrun
    refine hdue.resolve_right fun hwait => ?_
    rw [Rp2040.wait] at hwait
    exact absurd hwait.2 (Nat.not_succ_le_zero _)
  | cons m moves ih =>
    obtain ⟨⟨s₁, out₁⟩, ⟨s₂, log₂⟩, hfirst, hrest, heq⟩ := runLog_cons_eq_some (step w) hrun
    cases heq
    cases m with
    | esp32 =>
      obtain ⟨s', hstep, hsound, hpasses, hiterations, -, huplink, hmcu, hconsole⟩ :=
        sound_esp32 h
      rw [hfirst] at hstep
      cases hstep
      -- Without a hold the ESP32 sends nothing.
      have hsent : Esp32.sentAt w.pb w.passes s.passes = [] := by
        by_contra hne
        exact hreleased s.passes (Nat.le_refl _) ((Esp32.sentAt_ne_nil_iff _ _ _).mp hne)
      rw [hsent, Wire.send_nil] at huplink
      have hlines : s₁.lines = s.lines := by rw [lines, hconsole, lines]
      refine ih hsound (by rw [huplink, hidle]) (fun k hk => hreleased k (by omega))
        (fun k hk => hmains k (by omega)) ?_ hrest
      rw [hlines, hmcu]
      exact hdue
    | rp2040 before during =>
      obtain ⟨s', t, hstep, hsound, hpasses, hiterations, -, huplink, hmcu, hlines, hinputs,
        hnothing⟩ := sound_rp2040 h before during
      rw [hfirst] at hstep
      cases hstep
      obtain ⟨hbefore, hduring⟩ := hnothing hidle
      rw [Wire.receive_of_inFlight _ hidle, Wire.receive_of_inFlight _ hidle] at huplink
      refine ih hsound (by rw [huplink, hidle]) (fun k hk => hreleased k (by omega))
        (fun k hk => hmains k (by omega)) ?_ hrest
      rcases hdue with hdone | ⟨hpending, hwait⟩
      · exact Or.inl (by omega)
      · obtain ⟨ms, haccounts⟩ := h.accounts
        have hcloser := @Rp2040.wait_step s.mcu t h.absent haccounts.items h.countdown_nonneg
          hbefore hduring (by rw [hinputs]; exact hmains _ (Nat.le_refl _)) hpending
        rw [List.countP_cons_of_pos rfl] at hwait
        rcases hcloser with hline | ⟨hpending', hwait'⟩
        · exact Or.inl (by omega)
        · rw [hmcu]
          exact Or.inr ⟨hpending', by omega⟩
    | stm32 before after =>
      obtain ⟨s', ws, hstep, hsound, hpasses, hiterations, -, huplink, hmcu, hlines, -⟩ :=
        sound_stm32 h before after
      rw [hfirst] at hstep
      cases hstep
      refine ih hsound (by rw [huplink, hidle]) (fun k hk => hreleased k (by omega))
        (fun k hk => hmains k (by omega)) ?_ hrest
      rw [hlines, hmcu]
      exact hdue

/-- A request that was decoded reaches the battery monitor. -/
theorem shutsDown_of_hold (h : s.Sound w) {n : Nat} (hn : n < s.passes)
    (hhold : Esp32.HoldEnds w.passes n) (hidle : s.uplink.inFlight = [])
    (hreleased : ∀ k, s.passes ≤ k → ¬ Esp32.HoldEnds w.passes k)
    (hmains : ∀ k, s.iterations ≤ k → (w.rp2040 k).vinDetect = false)
    {more : List Move} (hlong : 3003 ≤ more.countP Move.isRp2040) :
    ∃ s' log', runLog (step w) s more = some (s', log') ∧ 0 < s'.lines ∧
      ∀ before after, s'.console.inFlight.length ≤ before →
        SHUTDOWN_BYTE ∈ (s'.console.receive before).2.arrived ∧
        ∃ s'' ws, s'.step w (.stm32 before after) = some (s'', [ws]) ∧
          s''.lines = s'.lines ∧ SHUTDOWN_WRITES <:+: ws := by
  obtain ⟨s', log', hrun', hsound'⟩ := sound_run h more
  -- The request of the hold was decoded.
  obtain ⟨ms, haccounts⟩ := h.accounts
  obtain ⟨p, hdecoded, -⟩ := haccounts.decoded
  have hsent : s.uplink.arrived = Esp32.sentBefore w.pb w.passes s.passes := by
    rw [s.uplink.arrived_of_inFlight hidle, h.uplink_eq]
  have hfront : s.uplink.arrived <+: Esp32.sentBefore w.pb w.passes s.passes := by rw [hsent]
  obtain ⟨q, ms', hdecoded', -, hms⟩ :=
    Esp32.decoded_of_isPrefix w.pb w.passes s.passes hfront
  rw [hdecoded] at hdecoded'
  cases hdecoded'
  have hne : ms ≠ [] := by
    intro hnil
    have hcount := Esp32.length_requestsBefore w.passes s.passes
    rw [← hms hsent, hnil] at hcount
    exact Nat.count_ne_iff_exists.mpr ⟨n, hn, hhold⟩ hcount.symm
  have hdue : 0 < s.lines ∨ (s.mcu.Pending ∧ s.mcu.wait ≤ more.countP Move.isRp2040) := by
    refine (haccounts.kept hne).imp id fun hpending => ⟨hpending, ?_⟩
    have hwait := wait_le h
    omega
  have hlines := lines_of_wait h hidle hreleased hmains hdue hrun'
  refine ⟨s', log', hrun', hlines, fun before after hall => ?_⟩
  have hread : SHUTDOWN_BYTE ∈ (s'.console.receive before).2.arrived := by
    rw [Wire.arrived_of_inFlight _ (s'.console.inFlight_receive hall)]
    exact List.count_pos_iff.mp hlines
  obtain ⟨s'', ws, hstep, -, -, -, -, -, -, hsame, hshut⟩ := sound_stm32 hsound' before after
  exact ⟨hread, s'', ws, hstep, hsame, hshut.mpr (Or.inr (Or.inr hread))⟩

/-- A hold is not forgotten, in whatever order the three MCUs work. When the button was
held, all bytes of the ESP32 have arrived and no further hold follows, then after three
ticks of the RP2040 without mains the byte is on the console. As soon as the STM32 has
read what is there, it finds the byte and shuts the battery monitor down. -/
theorem hold_shutsDown (hnames : NamesHidden w.boot) (hstart : start w = some s₀)
    (hrun : runLog (step w) s₀ moves = some (s, log)) {n : Nat} (hn : n < s.passes)
    (hhold : Esp32.HoldEnds w.passes n) (hidle : s.uplink.inFlight = [])
    (hreleased : ∀ k, s.passes ≤ k → ¬ Esp32.HoldEnds w.passes k)
    (hmains : ∀ k, s.iterations ≤ k → (w.rp2040 k).vinDetect = false)
    {more : List Move} (hlong : 3003 ≤ more.countP Move.isRp2040) :
    ∃ s' log', runLog (step w) s more = some (s', log') ∧ SHUTDOWN_BYTE ∈ s'.console.sent ∧
      ∀ before after, s'.console.inFlight.length ≤ before →
        SHUTDOWN_BYTE ∈ (s'.console.receive before).2.arrived ∧
        ∃ s'' ws, s'.step w (.stm32 before after) = some (s'', [ws]) ∧
          SHUTDOWN_WRITES <:+: ws := by
  obtain ⟨s₁, log₁, hrun₁, hsound⟩ := sound_run (sound_start hnames hstart) moves
  rw [hrun] at hrun₁
  cases hrun₁
  obtain ⟨s', log', hrun', hlines, hround⟩ :=
    shutsDown_of_hold hsound hn hhold hidle hreleased hmains hlong
  refine ⟨s', log', hrun', List.count_pos_iff.mp hlines, fun before after hall => ?_⟩
  obtain ⟨hread, s'', ws, hstep, -, hpart⟩ := hround before after hall
  exact ⟨hread, s'', ws, hstep, hpart⟩

end Runs

/-! #### One hold -/

/-- The button is held for eleven passes. There is no mains, and the battery is fine. -/
def heldOnce : World where
  pb := 0
  passes n := ⟨fun _ => if n < 11 then 1 else 0, 0⟩
  boot := benchBoot
  rp2040 n := { benchInputs n with vinDetect := false }
  format := NumberFormat.decimal
  bmsBoot := ⟨0x19, fun _ _ => 0, []⟩
  heard := 0
  stm32 _ := ⟨fun _ _ => 0, true, [], []⟩

theorem namesHidden_heldOnce : NamesHidden heldOnce.boot := ⟨fun _ _ => rfl, fun _ => rfl⟩

theorem exists_start_heldOnce : ∃ s₀, start heldOnce = some s₀ :=
  Option.isSome_iff_exists.mp (by decide)

/-- Some passes of the ESP32's loop. -/
theorem run_esp32 {w : World} {s : Ups} (h : s.Sound w) (n : Nat) :
    ∃ s', runLog (step w) s (List.replicate n .esp32) = some (s', []) ∧ s'.Sound w ∧
      s'.passes = s.passes + n := by
  induction n generalizing s with
  | zero => exact ⟨s, rfl, h, rfl⟩
  | succ n ih =>
    obtain ⟨s₁, hstep, hsound, hpasses, -⟩ := sound_esp32 h
    obtain ⟨s₂, hrun, hsound', hpasses'⟩ := ih hsound
    refine ⟨s₂, ?_, hsound', by omega⟩
    rw [List.replicate_succ, runLog_cons_of_some (step w) _ hstep, hrun]
    rfl

/-- The hold, and an iteration of the RP2040 that takes all its bytes. -/
theorem run_heldOnce :
    ∃ s₀ moves s, start heldOnce = some s₀ ∧
      runLog (step heldOnce) s₀ moves = some (s, []) ∧ s.Sound heldOnce ∧ s.passes = 11 ∧
      s.uplink.inFlight = [] := by
  obtain ⟨s₀, hstart⟩ := exists_start_heldOnce
  obtain ⟨hpasses, -⟩ := start_eq_some hstart
  obtain ⟨s₁, hheld, hsound₁, hpasses₁⟩ := run_esp32 (sound_start namesHidden_heldOnce hstart) 11
  obtain ⟨s₂, -, hstep, hsound₂, hpasses₂, -, -, huplink, -⟩ :=
    sound_rp2040 hsound₁ s₁.uplink.inFlight.length 0
  have hnone := s₁.uplink.inFlight_receive (Nat.le_refl _)
  rw [Wire.receive_of_inFlight _ hnone] at huplink
  refine ⟨s₀, List.replicate 11 .esp32 ++ [.rp2040 s₁.uplink.inFlight.length 0], s₂, hstart, ?_,
    hsound₂, by omega, by rw [huplink]; exact hnone⟩
  rw [runLog_append_of_some (step heldOnce) _ hheld, runLog_singleton, hstep]
  rfl

/-- After the eleven passes no hold ends. -/
theorem released_heldOnce {k : Nat} (hk : 11 ≤ k) : ¬ Esp32.HoldEnds heldOnce.passes k :=
  fun hhold => hhold.1 (if_neg (Nat.not_lt.mpr hk))

theorem countP_replicate_rp2040 (n : Nat) :
    (List.replicate n (Move.rp2040 0 0)).countP Move.isRp2040 = n := by
  rw [List.countP_replicate]
  rfl

/-- The hold, three ticks, and the round of the STM32 that shuts down. -/
theorem run_heldOnce_shutDown :
    ∃ s₀ moves s log ws, start heldOnce = some s₀ ∧
      runLog (step heldOnce) s₀ moves = some (s, log ++ [ws]) ∧ SHUTDOWN_WRITES <:+: ws ∧
      0 < s.lines := by
  obtain ⟨s₀, moves, s, hstart, hrun, hsound, hpasses, hidle⟩ := run_heldOnce
  obtain ⟨s', log, hrun', hlines, hround⟩ := shutsDown_of_hold hsound (n := 10) (by omega)
    (by decide) hidle (fun k hk => released_heldOnce (by omega)) (fun _ _ => rfl)
    (Nat.le_of_eq (countP_replicate_rp2040 3003).symm)
  obtain ⟨-, s'', ws, hstep, hsame, hpart⟩ :=
    hround s'.console.inFlight.length 0 (Nat.le_refl _)
  have hall := runLog_append_of_some (step heldOnce) (List.replicate 3003 (.rp2040 0 0)) hrun
  rw [hrun'] at hall
  refine ⟨s₀, moves ++ List.replicate 3003 (.rp2040 0 0) ++ [.stm32 s'.console.inFlight.length 0],
    s'', log, ws, hstart, ?_, hpart, by omega⟩
  rw [runLog_append_of_some (step heldOnce) [.stm32 s'.console.inFlight.length 0] hall,
    runLog_singleton, hstep]
  rfl

/-- In that run the line is printed, and it is not printed more often than the button was
held. -/
theorem lines_le_holds_once :
    ∃ s₀ moves s log, start heldOnce = some s₀ ∧
      runLog (step heldOnce) s₀ moves = some (s, log) ∧ 0 < s.lines ∧
      s.lines ≤ Nat.count (Esp32.HoldEnds heldOnce.passes) s.passes := by
  obtain ⟨s₀, moves, s, log, ws, hstart, hrun, -, hlines⟩ := run_heldOnce_shutDown
  obtain ⟨s', log', hrun', hle⟩ := lines_le_holds namesHidden_heldOnce hstart moves
  rw [hrun] at hrun'
  cases hrun'
  exact ⟨s₀, moves, s, _, hstart, hrun, hlines, hle⟩

/-- Its last round shuts down, and has a cause. -/
theorem shutdown_cause_once :
    ∃ s₀ moves s log ws, start heldOnce = some s₀ ∧
      runLog (step heldOnce) s₀ moves = some (s, log ++ [ws]) ∧ SHUTDOWN_WRITES <:+: ws ∧
      Cause heldOnce s.passes log.length := by
  obtain ⟨s₀, moves, s, log, ws, hstart, hrun, hpart, -⟩ := run_heldOnce_shutDown
  have hcause := (shutdown_cause namesHidden_heldOnce hstart hrun).2 log.length ws
    (by rw [List.getElem?_append_right (Nat.le_refl _), Nat.sub_self]; rfl) hpart
  exact ⟨s₀, moves, s, log, ws, hstart, hrun, hpart, hcause⟩

/-- Three ticks after the hold the byte is on the console, and the STM32 shuts down. -/
theorem hold_shutsDown_once :
    ∃ s₀ moves s log before s' ws, start heldOnce = some s₀ ∧
      runLog (step heldOnce) s₀ moves = some (s, log) ∧ SHUTDOWN_BYTE ∈ s.console.sent ∧
      s.step heldOnce (.stm32 before 0) = some (s', [ws]) ∧ SHUTDOWN_WRITES <:+: ws := by
  obtain ⟨s₀, moves, s, hstart, hrun, -, hpasses, hidle⟩ := run_heldOnce
  obtain ⟨s', log, hrun', hbyte, hround⟩ := hold_shutsDown namesHidden_heldOnce hstart hrun
    (n := 10) (by omega) (by decide) hidle (fun k hk => released_heldOnce (by omega))
    (fun _ _ => rfl) (Nat.le_of_eq (countP_replicate_rp2040 3003).symm)
  obtain ⟨-, s'', ws, hstep, hpart⟩ := hround s'.console.inFlight.length 0 (Nat.le_refl _)
  have hall := runLog_append_of_some (step heldOnce) (List.replicate 3003 (.rp2040 0 0)) hrun
  rw [hrun'] at hall
  exact ⟨s₀, _, s', _, s'.console.inFlight.length, s'', ws, hstart, hall, hbyte, hstep, hpart⟩

end Ups

end UpsFirmware
