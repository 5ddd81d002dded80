import UpsFirmware.Esp32.Pages
import UpsFirmware.Lib.Wire
import UpsFirmware.Link.Transfer
import UpsFirmware.Rp2040.Modes
import UpsFirmware.System.Requests

/-!
# `UpsFirmware.System.Telemetry`: from the measurement to the screen

The RP2040 sends a message with its measurements in every telemetry tick. On the ESP32,
`serial_cb` decodes it, `screen_thread` takes it out of the queue, and every now and then
it draws a page with the message that it has just taken.

`Display` is both loops with the line and the queue between them, and a run is any
sequence of iterations of the RP2040, received bytes, passes of the ESP32's main loop and
turns of its screen thread. A `k_msgq_get` of the ESP32 writes 32 bytes to a `struct Msg` of
14. The 18 bytes behind the struct are left out here, and so is what they overwrite. They
are the subject of `Link.Transfer`.

`Truthful` is the invariant of the runs. `shown_reported` follows from it: what is drawn
are messages of the ticks in their order, none of them twice. `drawn_measured` says what
the pages show of a tick.
-/

set_option autoImplicit false

namespace UpsFirmware

open Lib Lib.QueueEvent Lib.Stuffing

/-! ### What the RP2040 sends -/

/-- The bytes on the wire, whatever is in the buffer of the sender. -/
theorem sendMsgs_eq_flatMap (uartbuf : Vector UInt8 64) (ms : List Image) :
    sendMsgs uartbuf ms = ms.flatMap fun m => stuffed m.toList ++ [0] := by
  induction ms generalizing uartbuf with
  | nil => rfl
  | cons m ms ih =>
    obtain ⟨uartbuf', hcons⟩ := sendMsgs_cons uartbuf m ms
    rw [hcons, ih, List.flatMap_cons]

section Reports

variable (b : BootInputs) (env : Nat → Inputs)

/-- The message that iteration `n` sends, if any, as it lies in memory. -/
def reportAt (n : Nat) : List Image :=
  if n % 1001 = 0 then [(telemetryAt b env n).image (env n).tail] else []

/-- The messages of the ticks among the first `n` iterations. -/
def reportedBefore (n : Nat) : List Msg :=
  ((List.range n).filter fun k => k % 1001 = 0).map (telemetryAt b env)

/-- What an iteration transmits is the frame of its message. -/
theorem uartBytes_effectsAt_eq (n : Nat) :
    uartBytes (effectsAt b env n)
      = (reportAt b env n).flatMap fun m => stuffed m.toList ++ [0] := by
  rw [effectsAt, Buckboost.uartBytes_iterate, reportAt]
  simp only [expired_iff]
  split
  · rw [List.flatMap_singleton]
    rfl
  · rfl

/-- The bytes of the first `n` iterations. -/
def framesBefore (n : Nat) : List UInt8 :=
  (List.range n).flatMap fun k => uartBytes (effectsAt b env k)

theorem framesBefore_succ (n : Nat) :
    framesBefore b env (n + 1) = framesBefore b env n ++ uartBytes (effectsAt b env n) := by
  rw [framesBefore, List.range_succ, List.flatMap_append, List.flatMap_singleton]
  rfl

/-- A receiver decodes what has arrived to messages of the ticks, in order. -/
theorem decoded_of_isPrefix_framesBefore {cap : ℕ+} (n : Nat) {cs : List UInt8}
    (hcs : cs <+: framesBefore b env n) :
    ∃ p ms, runLog receiveByte (SerialPort.powerUp (MsgQueue.empty : MsgQueue Image cap)) cs
        = some (p, ms) ∧ ms.map Msg.ofImage <+: reportedBefore b env n := by
  have hframes : framesBefore b env n
      = sendMsgs (Vector.replicate 64 0) ((List.range n).flatMap (reportAt b env)) := by
    rw [sendMsgs_eq_flatMap, List.flatMap_assoc, framesBefore]
    simp only [uartBytes_effectsAt_eq]
  have hreports : ((List.range n).flatMap (reportAt b env)).map Msg.ofImage
      = reportedBefore b env n := by
    rw [reportedBefore, List.map_flatMap]
    induction List.range n with
    | nil => rfl
    | cons k ks ih =>
      rw [List.flatMap_cons, ih, List.filter_cons, reportAt]
      by_cases htick : k % 1001 = 0
      · rw [if_pos htick, if_pos (decide_eq_true htick), List.map_cons, Msg.ofImage_image]
        rfl
      · rw [if_neg htick, if_neg (by simpa using htick)]
        rfl
  obtain ⟨q, hall, -⟩ := receive_sendMsgs (ready_powerUp (MsgQueue.empty : MsgQueue Image cap))
    (Vector.replicate 64 0) ((List.range n).flatMap (reportAt b env))
  rw [← hframes] at hall
  obtain ⟨p, ms, hrun, hfront, -⟩ := runLog_of_isPrefix receiveByte hall hcs
  refine ⟨p, ms, hrun, ?_⟩
  rw [← hreports]
  exact hfront.map Msg.ofImage

end Reports

/-! ### The two MCUs -/

/-- The loop of the RP2040 and the number of its iterations, the line to the ESP32, the
receiver of the ESP32 with its queue, and its two threads. -/
structure Display where
  loop : Buckboost
  iterations : Nat
  downlink : Wire UInt8
  port : SerialPort (Mcu.capacity .esp32)
  front : Esp32.Front

/-- An iteration of the RP2040, the next byte of the line, a pass of the main loop, or a
turn of the screen thread. -/
inductive DisplayAct where
  | rp2040
  | byte
  | main (p : Esp32.Pass)
  | screen

/-- What happens at the receiver, and what is drawn. -/
inductive DisplayEvent where
  | link (e : LinkEvent)
  | drawn (page : Esp32.Page)

namespace Display

/-- What happened at the receiver. -/
def links (log : List DisplayEvent) : List LinkEvent :=
  log.filterMap fun e =>
    match e with
    | .link e => some e
    | .drawn _ => none

/-- The pages that were drawn. -/
def pages (log : List DisplayEvent) : List Esp32.Page :=
  log.filterMap fun e =>
    match e with
    | .link _ => none
    | .drawn page => some page

variable (b : BootInputs) (env : Nat → Inputs)

/-- The RP2040 and the ESP32 before their loops, where `pb` is the first reading of the
button. -/
def start (pb : Int) : Display where
  loop := Buckboost.boot b
  iterations := 0
  downlink := Wire.idle
  port := SerialPort.powerUp MsgQueue.empty
  front := Esp32.Front.start pb

/-- A turn of the screen thread, where `got` is what `k_msgq_get` returns. -/
def turn (s : Display) (got : Option Msg) : Display × List DisplayEvent :=
  let r := s.front.step (.screen got)
  ({ s with front := r.1 }, r.2.map .drawn)

/-- The screen thread enters `k_msgq_get`, or comes out of it. -/
def getAct (q : MsgQueue Image (Mcu.capacity .esp32)) : LinkAct :=
  match q.waiter with
  | .absent => .get
  | _ => .resume

/-- `k_msgq_get` on the ESP32. It waits for as long as nothing comes out of it. -/
def kMsgqGet (s : Display) : Option (Display × List DisplayEvent) :=
  (s.port.act (getAct s.port.msgq)).map fun r =>
    let t := if r.2.isEmpty then ({ s with port := r.1 }, [])
      else turn { s with port := r.1 } ((gots (queueLog r.2)).head?.map Msg.ofImage)
    (t.1, r.2.map .link ++ t.2)

/-- A step, and what happens in it. `none` is an access outside `rx_buf`. -/
def step (s : Display) : DisplayAct → Option (Display × List DisplayEvent)
  | .rp2040 =>
    let r := s.loop.iterate (env s.iterations)
    some ({ s with
        loop := r.1
        iterations := s.iterations + 1
        downlink := s.downlink.send (uartBytes r.2) }, [])
  | .byte =>
    let r := s.downlink.receive 1
    (runLog SerialPort.act s.port (r.1.map .byte)).map fun a =>
      ({ s with downlink := r.2, port := a.1 }, a.2.map .link)
  | .main p => some ({ s with front := (s.front.step (.main p)).1 }, [])
  | .screen => if s.front.screen.pc = .get then s.kMsgqGet else some (s.turn none)

/-! ### The invariant -/

/-- The messages that were drawn. -/
def shown (log : List DisplayEvent) : List Msg := (pages log).filterMap Esp32.Page.msg

/-- The messages that the screen thread took out of the queue. -/
def taken (log : List DisplayEvent) : List Msg := (gots (queueLog (links log))).map Msg.ofImage

/-- The invariant of the runs. -/
structure Truthful (s : Display) (log : List DisplayEvent) : Prop where
  loop_eq : s.loop = loopAt b env s.iterations
  downlink_eq : s.downlink.sent = framesBefore b env s.iterations
  decoded : ∃ p : SerialPort (Mcu.capacity .esp32),
    runLog receiveByte (SerialPort.powerUp MsgQueue.empty) s.downlink.arrived
        = some (p, handedOver (links log)) ∧
      s.port = { p with msgq := s.port.msgq }
  disciplined : s.port.Disciplined (links log)
  shown : (shown log ++ s.front.screen.held).Sublist (taken log)

theorem links_append (log out : List DisplayEvent) :
    links (log ++ out) = links log ++ links out :=
  List.filterMap_append

@[simp] theorem links_map_link (es : List LinkEvent) : links (es.map .link) = es := by
  rw [links, List.filterMap_map]
  exact List.filterMap_some

@[simp] theorem links_map_drawn (ps : List Esp32.Page) : links (ps.map .drawn) = [] := by
  rw [links, List.filterMap_map]
  exact List.filterMap_none ps

theorem shown_append (log out : List DisplayEvent) :
    shown (log ++ out) = shown log ++ shown out := by
  rw [shown, pages, List.filterMap_append, List.filterMap_append]
  rfl

@[simp] theorem shown_map_link (es : List LinkEvent) : shown (es.map .link) = [] := by
  rw [shown, pages, List.filterMap_map, List.filterMap_filterMap]
  exact List.filterMap_none es

@[simp] theorem shown_map_drawn (ps : List Esp32.Page) :
    shown (ps.map .drawn) = ps.filterMap Esp32.Page.msg := by
  rw [shown, pages, List.filterMap_map]
  exact congrArg _ List.filterMap_some

theorem taken_append (log out : List DisplayEvent) :
    taken (log ++ out) = taken log ++ taken out := by
  rw [taken, links_append, queueLog_append, gots_append, List.map_append]
  rfl

variable {b env}

theorem truthful_start (pb : Int) : (start b pb).Truthful b env [] where
  loop_eq := rfl
  downlink_eq := rfl
  decoded := ⟨_, rfl, rfl⟩
  disciplined := SerialPort.disciplined_powerUp
  shown := List.Sublist.refl _

section Steps

variable {s : Display} {log : List DisplayEvent} (h : s.Truthful b env log)

include h

/-- An iteration of the RP2040 adds its bytes to the line. -/
theorem truthful_rp2040 :
    ∃ s' out, s.step env .rp2040 = some (s', out) ∧ s'.Truthful b env (log ++ out) := by
  refine ⟨_, _, rfl, ?_⟩
  rw [List.append_nil]
  refine { h with loop_eq := ?_, downlink_eq := ?_, decoded := ?_ }
  · show (s.loop.iterate (env s.iterations)).1 = _
    rw [h.loop_eq]
    rfl
  · show s.downlink.sent ++ uartBytes (s.loop.iterate (env s.iterations)).2 = _
    rw [h.downlink_eq, framesBefore_succ, h.loop_eq]
    rfl
  · -- What is sent has not arrived.
    obtain ⟨p, hrun, hport⟩ := h.decoded
    refine ⟨p, ?_, hport⟩
    show runLog receiveByte _ (s.downlink.send _).arrived = _
    rw [Wire.arrived_send]
    exact hrun

/-- The next byte goes through the receiver. -/
theorem truthful_byte :
    ∃ s' out, s.step env .byte = some (s', out) ∧ s'.Truthful b env (log ++ out) := by
  obtain ⟨p, hrun, hport⟩ := h.decoded
  -- With this byte, what arrived is still a front of the frames.
  have hfront := Wire.isPrefix_arrived (s.downlink.receive 1).2
  rw [Wire.sent_receive, h.downlink_eq] at hfront
  obtain ⟨q, ms, hall, -⟩ := decoded_of_isPrefix_framesBefore b env s.iterations hfront
  have hwhole := hall
  rw [Wire.arrived_receive, runLog_append_of_some receiveByte _ hrun] at hwhole
  obtain ⟨⟨p₁, new⟩, hnew, heq⟩ := Option.map_eq_some_iff.mp hwhole
  cases heq
  obtain ⟨r, hr, hsame⟩ := runLog_of_sameBuffer hport hnew
  rw [runLog_receiveByte, Option.map_eq_some_iff] at hr
  obtain ⟨⟨r, es⟩, hes, heq⟩ := hr
  rw [Prod.mk.injEq] at heq
  obtain ⟨rfl, hputs⟩ := heq
  rw [← runLog_act_bytes] at hes
  have hstep : s.step env .byte
      = some ({ s with downlink := (s.downlink.receive 1).2, port := r }, es.map .link) := by
    show (runLog SerialPort.act s.port _).map _ = _
    rw [hes]
    rfl
  refine ⟨_, _, hstep, ?_⟩
  refine
    { loop_eq := h.loop_eq
      downlink_eq := h.downlink_eq
      decoded := ⟨_, ?_, hsame⟩
      disciplined := ?_
      shown := ?_ }
  · rw [links_append, links_map_link, handedOver_append, hputs]
    exact hall
  · rw [links_append, links_map_link]
    refine runLog_history (J := fun p out => p.Disciplined (links log ++ out)) SerialPort.act
      ?_ ?_ hes
    · intro p₂ out a p₃ out' hkeeps hact
      rw [← List.append_assoc]
      exact SerialPort.disciplined_act hkeeps hact
    · rw [List.append_nil]
      exact h.disciplined
  · rw [shown_append, shown_map_link, List.append_nil, taken_append]
    exact h.shown.trans (List.sublist_append_left _ _)

/-- A pass of the main loop. -/
theorem truthful_main (p : Esp32.Pass) :
    ∃ s' out, s.step env (.main p) = some (s', out) ∧ s'.Truthful b env (log ++ out) := by
  refine ⟨_, _, rfl, ?_⟩
  rw [List.append_nil]
  exact { h with }

/-- A turn of the screen thread. What `k_msgq_get` returns in it was just taken out of the
queue. -/
theorem truthful_turn {got : Option Msg}
    (hgot : s.front.screen.pc = .get → (shown log ++ got.toList).Sublist (taken log)) :
    (s.turn got).1.Truthful b env (log ++ (s.turn got).2) := by
  have hlinks : links (log ++ (s.turn got).2) = links log := by
    rw [links_append, turn, links_map_drawn, List.append_nil]
  refine
    { loop_eq := h.loop_eq
      downlink_eq := h.downlink_eq
      decoded := ?_
      disciplined := ?_
      shown := ?_ }
  · rw [hlinks]
    exact h.decoded
  · rw [hlinks]
    exact h.disciplined
  · rw [taken, hlinks, shown_append, turn, shown_map_drawn, List.append_assoc]
    have hturn := s.front.shown_step got
    by_cases hpc : s.front.screen.pc = .get
    · -- At `k_msgq_get` the thread holds nothing.
      have hheld : s.front.screen.held = [] := by rw [Esp32.Screen.held, hpc]
      rw [hheld, List.nil_append, if_pos hpc] at hturn
      exact (hturn.append_left _).trans (hgot hpc)
    · rw [if_neg hpc, List.append_nil] at hturn
      exact (hturn.append_left _).trans h.shown

end Steps

/-- The screen thread can enter `k_msgq_get`, and it can come out when it waits there. -/
theorem act_getAct (p : SerialPort (Mcu.capacity .esp32)) :
    ∃ a q out, p.msgq.act a = some (q, out) ∧
      p.act (getAct p.msgq) = some ({ p with msgq := q }, out.map .queue) := by
  rw [getAct]
  cases hw : p.msgq.waiter with
  | absent =>
    obtain ⟨⟨q, out⟩, hget⟩ := MsgQueue.exists_act_get hw
    refine ⟨.get, q, out, hget, ?_⟩
    rw [SerialPort.act, hget]
    rfl
  | waiting =>
    obtain ⟨⟨q, out⟩, hresume⟩ := MsgQueue.exists_act_resume (q := p.msgq) (by simp [hw])
    refine ⟨.resume, q, out, hresume, ?_⟩
    rw [SerialPort.act, hresume]
    rfl
  | handed m =>
    obtain ⟨⟨q, out⟩, hresume⟩ := MsgQueue.exists_act_resume (q := p.msgq) (by simp [hw])
    refine ⟨.resume, q, out, hresume, ?_⟩
    rw [SerialPort.act, hresume]
    rfl

section Steps

variable {s : Display} {log : List DisplayEvent} (h : s.Truthful b env log)

include h

/-- What `k_msgq_get` does at the queue, before the screen thread goes on. -/
theorem truthful_act {a : ConsumerAct} {q : MsgQueue Image (Mcu.capacity .esp32)}
    {out : List (QueueEvent Image)} (hpc : s.front.screen.pc = .get)
    (hact : s.port.msgq.act a = some (q, out)) :
    let log' := log ++ (out.map LinkEvent.queue).map .link
    ({ s with port := { s.port with msgq := q } } : Display).Truthful b env log' ∧
      (shown log' ++ (gots out).map Msg.ofImage).Sublist (taken log') := by
  have hlinks : links (log ++ (out.map LinkEvent.queue).map .link)
      = links log ++ out.map .queue := by rw [links_append, links_map_link]
  have htaken : taken (log ++ (out.map LinkEvent.queue).map .link)
      = taken log ++ (gots out).map Msg.ofImage := by
    rw [taken_append, taken, taken, links_map_link, queueLog_map_queue]
  have hshown : shown (log ++ (out.map LinkEvent.queue).map .link) = shown log := by
    rw [shown_append, shown_map_link, List.append_nil]
  have hheld : s.front.screen.held = [] := by rw [Esp32.Screen.held, hpc]
  have hold := h.shown
  rw [hheld, List.append_nil] at hold
  obtain ⟨p, hrun, hport⟩ := h.decoded
  refine ⟨?_, ?_⟩
  · refine
      { loop_eq := h.loop_eq
        downlink_eq := h.downlink_eq
        decoded := ⟨p, ?_, ?_⟩
        disciplined := ?_
        shown := ?_ }
    · rw [hlinks, handedOver_append, handedOver, handedOver, queueLog_map_queue,
        (MsgQueue.puts_act hact).1, List.append_nil]
      exact hrun
    · show ({ s.port with msgq := q } : SerialPort _) = _
      rw [hport]
    · rw [hlinks]
      exact SerialPort.disciplined_consumer h.disciplined hact
    · show (shown _ ++ s.front.screen.held).Sublist _
      rw [hheld, List.append_nil, hshown, htaken]
      exact hold.trans (List.sublist_append_left _ _)
  · rw [hshown, htaken]
    exact hold.append_right _

/-- A turn of the screen thread. -/
theorem truthful_screen :
    ∃ s' out, s.step env .screen = some (s', out) ∧ s'.Truthful b env (log ++ out) := by
  by_cases hpc : s.front.screen.pc = .get
  · obtain ⟨a, q, es, hact, hget⟩ := act_getAct s.port
    obtain ⟨hkeeps, htaken⟩ := truthful_act h hpc hact
    obtain ⟨-, hone⟩ := MsgQueue.pending_act hact
    have hgot : ((gots (queueLog (es.map .queue))).head?.map Msg.ofImage).toList
        = (gots es).map Msg.ofImage := by
      rw [queueLog_map_queue]
      match gots es, hone with
      | [], _ => rfl
      | [m], _ => rfl
    have hstep : s.step env .screen = s.kMsgqGet := if_pos hpc
    rw [hstep, kMsgqGet, hget]
    refine ⟨_, _, rfl, ?_⟩
    show Truthful b env _ _
    by_cases hnone : (es.map LinkEvent.queue).isEmpty
    · simp only [hnone, if_true, List.append_nil]
      exact hkeeps
    · simp only [hnone]
      rw [← List.append_assoc]
      exact truthful_turn hkeeps (fun _ => by rw [hgot]; exact htaken)
  · refine ⟨(s.turn none).1, (s.turn none).2, if_neg hpc, truthful_turn h ?_⟩
    exact fun hget => absurd hget hpc

/-- Every step can be taken, and keeps the invariant. -/
theorem truthful_step (a : DisplayAct) :
    ∃ s' out, s.step env a = some (s', out) ∧ s'.Truthful b env (log ++ out) := by
  cases a with
  | rp2040 => exact truthful_rp2040 h
  | byte => exact truthful_byte h
  | main p => exact truthful_main h p
  | screen => exact truthful_screen h

/-- Every run goes through, and keeps the invariant. -/
theorem truthful_run (acts : List DisplayAct) :
    ∃ s' out, runLog (step env) s acts = some (s', out) ∧ s'.Truthful b env (log ++ out) := by
  induction acts generalizing s log with
  | nil => exact ⟨s, [], rfl, by rw [List.append_nil]; exact h⟩
  | cons a acts ih =>
    obtain ⟨s₁, out₁, hstep, hkeeps⟩ := truthful_step h a
    obtain ⟨s₂, out₂, hrun, hkeeps'⟩ := ih hkeeps
    refine ⟨s₂, out₁ ++ out₂, ?_, by rw [← List.append_assoc]; exact hkeeps'⟩
    rw [runLog_cons_of_some (step env) acts hstep, hrun]
    rfl

/-- What was drawn are messages of the ticks, in order. -/
theorem shown_sublist : (shown log).Sublist (reportedBefore b env s.iterations) := by
  obtain ⟨p, hrun, -⟩ := h.decoded
  have hfront := s.downlink.isPrefix_arrived
  rw [h.downlink_eq] at hfront
  obtain ⟨q, ms, hrun', hms⟩ := decoded_of_isPrefix_framesBefore b env s.iterations hfront
  rw [hrun] at hrun'
  cases hrun'
  -- Shown, taken, handed over, reported.
  have htaken : (taken log).Sublist ((handedOver (links log)).map Msg.ofImage) :=
    ((List.sublist_append_left _ _).trans h.disciplined.accounted.order).map _
  exact (((List.sublist_append_left _ _).trans h.shown).trans htaken).trans hms.sublist

end Steps

/-! ### What a page says of a tick -/

/-- The capacity in a message, in percent of the 4.8 V above 12 V. -/
theorem toNat_gasOf (vbat : Int) :
    ((gasOf vbat).toNat : Int) = if vbat < 12000 then 0 else (vbat - 12000) / 48 % 65536 := by
  rw [gasOf]
  split
  · rfl
  · rw [Stm32.toNat_ofInt, Int.tdiv_eq_ediv_of_nonneg (by omega)]

variable (b env)

/-- A reading in thousandths, as far as it fits into 16 bits. -/
def figure (reading : Int) : Esp32.TextArg := .float (((reading % 65536 : Int) : ℚ) / 1000)

/-- What the message has of a reading. -/
theorem float_ofInt (reading : Int) :
    .float (((UInt16.ofInt reading).toNat : ℚ) / 1000) = figure reading := by
  rw [figure, ← Stm32.toNat_ofInt, Int.cast_natCast]

/-- A page shows the measurements of iteration `n`. The columns of the gauge are filled up to
the battery voltage, the banner says whether the iteration before was in BOOST, and the
figures are the readings at the battery or those at the output. -/
structure Shows (page : Esp32.Page) (n : Nat) : Prop where
  gauge : ∀ x : Nat, .line x 50 x 60 ∈ page.draws ↔
    98 ≤ x ∧ x ≤ 120 ∧ 12000 ≤ (Adc.sampleAll (env n).reads).1.vbat ∧
      100 * ((x : Int) - 97) ≤ 22 * (((Adc.sampleAll (env n).reads).1.vbat - 12000) / 48 % 65536)
  banner : ∀ t, .text t [] 0 46 ∈ page.draws ↔
    t = if modeBefore b env n = .boost then "Char" else "Dischar"
  figures :
    (.text "Vbat: %.2fV" [figure (Adc.sampleAll (env n).reads).1.vbat] 0 0 ∈ page.draws ∧
      .text "Ichg: %.1fA" [figure (Adc.sampleAll (env n).reads).1.ibat] 0 20 ∈ page.draws) ∨
    (.text "Vout: %.2fV" [figure (Adc.sampleAll (env n).reads).1.vout] 0 0 ∈ page.draws ∧
      .text "Idis: %.1fA" [figure (Adc.sampleAll (env n).reads).1.iout] 0 20 ∈ page.draws)

section Shows

variable {page : Esp32.Page} {n : Nat} (hpage : page.msg = some (telemetryAt b env n))

include hpage

theorem gauge_of_msg (x : Nat) :
    .line x 50 x 60 ∈ page.draws ↔
      98 ≤ x ∧ x ≤ 120 ∧ 12000 ≤ (Adc.sampleAll (env n).reads).1.vbat ∧
        100 * ((x : Int) - 97)
          ≤ 22 * (((Adc.sampleAll (env n).reads).1.vbat - 12000) / 48 % 65536) := by
  have hfits : (telemetryAt b env n).gas.toNat < 2 ^ 16 := (telemetryAt b env n).gas.toNat_lt
  have hgas : ((telemetryAt b env n).gas.toNat : Int) = _ :=
    toNat_gasOf (Adc.sampleAll (env n).reads).1.vbat
  rw [Esp32.mem_draws_iff hpage (by simp) (by simp) (by simp),
    Esp32.line_mem_screenDrawBanner_iff, Esp32.line_mem_screenFillBattery_iff hfits]
  split at hgas
  · omega
  · omega

theorem banner_of_msg (t : String) :
    .text t [] 0 46 ∈ page.draws ↔
      t = if modeBefore b env n = .boost then "Char" else "Dischar" := by
  have hstate : (telemetryAt b env n).state = (modeBefore b env n).code := report_loopAt b env n
  have hboost : (telemetryAt b env n).state = MSG_STATE_CHARGING ↔
      modeBefore b env n = .boost := by
    rw [hstate]
    cases modeBefore b env n with
    | boost => exact iff_of_true rfl rfl
    | buck => exact iff_of_false (by decide) (by decide)
    | error => exact iff_of_false (by decide) (by decide)
  rw [Esp32.mem_draws_iff hpage (by simp) (by simp) (by simp),
    Esp32.text_mem_screenDrawBanner_iff]
  simp only [hboost]

theorem shows_of_msg : Shows b env page n where
  gauge := gauge_of_msg b env hpage
  banner := banner_of_msg b env hpage
  figures := by
    simp only [← float_ofInt]
    cases page with
    | intro => cases hpage
    | error => cases hpage
    | vbat msg =>
      cases hpage
      refine Or.inl ⟨?_, ?_⟩
      · exact List.mem_append_left _ (List.mem_append_left _ (List.mem_cons_of_mem _
          List.mem_cons_self))
      · exact List.mem_append_left _ (List.mem_append_left _ (List.mem_cons_of_mem _
          (List.mem_cons_of_mem _ List.mem_cons_self)))
    | vout msg =>
      cases hpage
      refine Or.inr ⟨?_, ?_⟩
      · exact List.mem_append_left _ (List.mem_append_left _ (List.mem_cons_of_mem _
          List.mem_cons_self))
      · exact List.mem_append_left _ (List.mem_append_left _ (List.mem_cons_of_mem _
          (List.mem_cons_of_mem _ List.mem_cons_self)))

end Shows

/-! ### Runs -/

variable (pb : Int) (acts : List DisplayAct)

/-- The messages on the screen are messages of the ticks in their order, and none of them is
shown twice, in whatever order the RP2040, the receiver and the threads of the ESP32 work.
Every run goes through without an access outside `rx_buf`. -/
theorem shown_reported :
    ∃ s log, runLog (step env) (start b pb) acts = some (s, log) ∧
      (shown log).Sublist (reportedBefore b env s.iterations) := by
  obtain ⟨s, log, hrun, hkeeps⟩ := truthful_run (truthful_start pb) acts
  exact ⟨s, log, hrun, shown_sublist hkeeps⟩

/-- The screen tells the truth, in whatever order the two MCUs work. Every page that is drawn
is the intro, the error page, or a page that shows the measurements of one telemetry tick
that was before it. -/
theorem drawn_measured :
    ∃ s log, runLog (step env) (start b pb) acts = some (s, log) ∧
      ∀ page ∈ pages log, page = .intro ∨ page = .error ∨
        ∃ n < s.iterations, n % 1001 = 0 ∧ Shows b env page n := by
  obtain ⟨s, log, hrun, hkeeps⟩ := truthful_run (truthful_start pb) acts
  refine ⟨s, log, hrun, fun page hpage => ?_⟩
  have hmsg : page.msg = none → page = .intro ∨ page = .error := by
    cases page with
    | intro => exact fun _ => Or.inl rfl
    | error => exact fun _ => Or.inr rfl
    | vbat msg =>
      intro h
      cases h
    | vout msg =>
      intro h
      cases h
  cases hpagemsg : page.msg with
  | none => exact (hmsg hpagemsg).imp id Or.inl
  | some m =>
    have hm : m ∈ shown log := List.mem_filterMap.mpr ⟨page, hpage, hpagemsg⟩
    obtain ⟨n, hn, hreport⟩ := List.mem_map.mp ((shown_sublist hkeeps).subset hm)
    rw [List.mem_filter, List.mem_range, decide_eq_true_eq] at hn
    rw [← hreport] at hpagemsg
    exact Or.inr (Or.inr ⟨n, hn.1, hn.2, shows_of_msg b env hpagemsg⟩)

end Display

end UpsFirmware
