import UpsFirmware.Common.Cobs
import UpsFirmware.Lib.QueueRuns
import UpsFirmware.Lib.Runs

/-!
# `UpsFirmware.Link.SerialCb`: both ends of the UART link

`print_uart` sends a frame byte by byte. `serial_cb` is the receive interrupt. The
RP2040 (`rp2040-app/src/main.cpp`) and the ESP32 (`esp32-app/src/main.c`) have
the same two functions, up to the queue the message goes into, so the model has
them once and takes the queue's capacity as a parameter: 2 on the RP2040, 10 on
the ESP32.

One turn of the interrupt's `while` loop is `serialCbByte`. It returns `none`
when an access misses `rx_buf`: the store at `rx_buf_pos`, or a step of the
decoder. Otherwise it returns the state and what happened: the message that was
decoded, if any, and the puts and purges of the loop that hands it over. `serialCb`
is one interrupt, and `runLog serialCb` a sequence of interrupts. `runLog_serialCb`
reduces it to a run over the bytes, so how the bytes are split over interrupts is
settled here once. `receiveByte` keeps of a turn what its puts accepted, for the
results that are about messages alone.

The three things a turn can do are `serialCbByte_complete`, `serialCbByte_store`
and `serialCbByte_ignore`. `runLog_serialCbByte_frame` puts them together: a
frame that starts with the position at 0.
-/

set_option autoImplicit false

namespace UpsFirmware

open Lib Lib.Stuffing Lib.QueueEvent

def MSG_SIZE : Nat := 32

/-! ### Sending -/

/-- `print_uart`: the bytes handed to `uart_poll_out`. -/
def printUart {n : Nat} (buf : Vector UInt8 n) (msgLen : Nat) : List UInt8 :=
  buf.toList.take msgLen

/-- A frame fits into a sender's `uartbuf`. -/
theorem frame_fits : sizeofMsg + 2 ≤ 64 := by decide

/-- The bytes on the wire when the messages are encoded and printed one after
another. The senders keep one 64-byte `uartbuf` and never clear it. -/
def sendMsgs (uartbuf : Vector UInt8 64) : List Image → List UInt8
  | [] => []
  | m :: ms =>
      let r := msgCobsEncode m uartbuf frame_fits
      printUart r.1 r.2 ++ sendMsgs r.1 ms

/-- What is printed for one message depends on the message alone. -/
theorem printUart_msgCobsEncode {n : Nat} (m : Image) (buf : Vector UInt8 n)
    (hn : sizeofMsg + 2 ≤ n) :
    printUart (msgCobsEncode m buf hn).1 (msgCobsEncode m buf hn).2
      = stuffed m.toList ++ [0] := by
  have hlen : (stuffed m.toList ++ [0]).length = sizeofMsg + 2 := by
    rw [List.length_append, length_stuffed_image]
    rfl
  rw [printUart, msgCobsEncode_toList, List.append_cons]
  exact List.take_left' hlen

theorem sendMsgs_cons (uartbuf : Vector UInt8 64) (m : Image) (ms : List Image) :
    ∃ uartbuf', sendMsgs uartbuf (m :: ms)
      = (stuffed m.toList ++ [0]) ++ sendMsgs uartbuf' ms := by
  refine ⟨(msgCobsEncode m uartbuf (by decide)).1, ?_⟩
  rw [← printUart_msgCobsEncode m uartbuf (by decide)]
  rfl

/-! ### Receiving -/

/-- The statics of the receiver: `rx_buf`, `rx_buf_pos` and the queue. -/
structure SerialPort (cap : ℕ+) where
  rxBuf : Vector UInt8 MSG_SIZE
  rxBufPos : Nat
  msgq : MsgQueue Image cap

/-- One UART interrupt: what `uart_irq_update` and `uart_irq_rx_ready` return,
and the bytes `uart_fifo_read` would give the `while` loop. -/
structure Interrupt where
  irqUpdate : Bool
  rxReady : Bool
  fifo : List UInt8

variable {cap : ℕ+}

/-- The state after reset. `rx_buf` and `rx_buf_pos` are zero-initialised. -/
def SerialPort.powerUp (q : MsgQueue Image cap) : SerialPort cap where
  rxBuf := Vector.replicate MSG_SIZE 0
  rxBufPos := 0
  msgq := q

/-- What happens on the link: a message is decoded, or something happens at the
queue. -/
inductive LinkEvent where
  | decoded (m : Image)
  | queue (e : QueueEvent Image)

/-- The messages that were decoded. -/
def decoded (log : List LinkEvent) : List Image :=
  log.filterMap fun e =>
    match e with
    | .decoded m => some m
    | _ => none

/-- The history of the queue. -/
def queueLog (log : List LinkEvent) : List (QueueEvent Image) :=
  log.filterMap fun e =>
    match e with
    | .queue e => some e
    | _ => none

/-- The messages that `k_msgq_put` took. -/
def handedOver (log : List LinkEvent) : List Image := puts (queueLog log)

theorem decoded_append (log out : List LinkEvent) :
    decoded (log ++ out) = decoded log ++ decoded out := List.filterMap_append

theorem queueLog_append (log out : List LinkEvent) :
    queueLog (log ++ out) = queueLog log ++ queueLog out := List.filterMap_append

theorem handedOver_append (log out : List LinkEvent) :
    handedOver (log ++ out) = handedOver log ++ handedOver out := by
  rw [handedOver, queueLog_append, puts_append]
  rfl

@[simp] theorem decoded_map_queue (es : List (QueueEvent Image)) :
    decoded (es.map LinkEvent.queue) = [] := by
  induction es with
  | nil => rfl
  | cons e es ih => exact ih

@[simp] theorem queueLog_map_queue (es : List (QueueEvent Image)) :
    queueLog (es.map LinkEvent.queue) = es := by
  induction es with
  | nil => rfl
  | cons e es ih => exact congrArg (e :: ·) ih

/-- What happens when the message `m` is complete: it is decoded, and
`while (k_msgq_put(...)) k_msgq_purge(...)` hands it over. -/
def completes (q : MsgQueue Image cap) (m : Image) : List LinkEvent :=
  .decoded m :: (q.putLoop m).2.map .queue

@[simp] theorem decoded_completes (q : MsgQueue Image cap) (m : Image) :
    decoded (completes q m) = [m] :=
  congrArg (m :: ·) (decoded_map_queue _)

@[simp] theorem queueLog_completes (q : MsgQueue Image cap) (m : Image) :
    queueLog (completes q m) = (q.putLoop m).2 :=
  queueLog_map_queue _

@[simp] theorem handedOver_completes (q : MsgQueue Image cap) (m : Image) :
    handedOver (completes q m) = [m] := by
  rw [handedOver, queueLog_completes]
  exact (q.puts_putLoop m).1

/-- One turn of the `while` loop of `serial_cb`, with the byte `c` just read, and what
happens in it. -/
def serialCbByte (p : SerialPort cap) (c : UInt8) : Option (SerialPort cap × List LinkEvent) :=
  if c = 0 ∧ sizeofMsg < p.rxBufPos then
    -- We have a complete packet
    (msgCobsDecode p.rxBuf (by decide)).map fun r =>
      let put := p.msgq.putLoop r.1
      ({ rxBuf := r.2, rxBufPos := 0, msgq := put.1 }, .decoded r.1 :: put.2.map .queue)
  else if c ≠ 0 then
    if h : p.rxBufPos < MSG_SIZE then
      some ({ p with rxBuf := p.rxBuf.set p.rxBufPos c h, rxBufPos := p.rxBufPos + 1 }, [])
    else none
  else
    -- A zero that comes too early: the byte is dropped, the position stays.
    some (p, [])

/-- `serial_cb`: one interrupt. -/
def serialCb (p : SerialPort cap) (irq : Interrupt) :
    Option (SerialPort cap × List LinkEvent) :=
  if !irq.irqUpdate then some (p, [])
  else if !irq.rxReady then some (p, [])
  else runLog serialCbByte p irq.fifo

/-- The bytes an interrupt takes from the FIFO. -/
def Interrupt.bytes (irq : Interrupt) : List UInt8 :=
  if irq.irqUpdate && irq.rxReady then irq.fifo else []

theorem serialCb_eq_runLog (p : SerialPort cap) (irq : Interrupt) :
    serialCb p irq = runLog serialCbByte p irq.bytes := by
  obtain ⟨upd, ready, fifo⟩ := irq
  cases upd <;> cases ready <;> rfl

/-- A sequence of interrupts does what their bytes do, one after another. -/
theorem runLog_serialCb (p : SerialPort cap) (irqs : List Interrupt) :
    runLog serialCb p irqs = runLog serialCbByte p (irqs.flatMap Interrupt.bytes) :=
  runLog_flatMap serialCbByte serialCb Interrupt.bytes serialCb_eq_runLog p irqs

/-! ### The three things a turn can do -/

/-- A zero behind more than 14 bytes completes a packet. -/
theorem serialCbByte_complete (p : SerialPort cap) (h : sizeofMsg < p.rxBufPos) :
    serialCbByte p 0
      = (msgCobsDecode p.rxBuf (by decide)).map fun r =>
          ({ rxBuf := r.2, rxBufPos := 0, msgq := p.msgq.putPurge r.1 },
            completes p.msgq r.1) :=
  if_pos ⟨rfl, h⟩

/-- A zero behind at most 14 bytes changes nothing. -/
theorem serialCbByte_ignore (p : SerialPort cap) (h : p.rxBufPos ≤ sizeofMsg) :
    serialCbByte p 0 = some (p, []) := by
  rw [serialCbByte, if_neg (by omega), if_neg (by simp)]

/-- Any other byte is stored at the position, if the position is in the
buffer. -/
theorem serialCbByte_store (p : SerialPort cap) {c : UInt8} (hc : c ≠ 0)
    (h : p.rxBufPos < MSG_SIZE) :
    serialCbByte p c
      = some ({ p with rxBuf := p.rxBuf.set p.rxBufPos c h, rxBufPos := p.rxBufPos + 1 },
          []) := by
  rw [serialCbByte, if_neg (fun hand => hc hand.1), if_pos hc, dif_pos h]

theorem serialCbByte_overflow (p : SerialPort cap) {c : UInt8} (hc : c ≠ 0)
    (h : MSG_SIZE ≤ p.rxBufPos) : serialCbByte p c = none := by
  rw [serialCbByte, if_neg (fun hand => hc hand.1), if_pos hc, dif_neg (by omega)]

/-- A run of non-zero bytes that fits is stored from the position on. -/
theorem runLog_serialCbByte_store :
    ∀ (cs : List UInt8) (p : SerialPort cap), (∀ c ∈ cs, c ≠ 0) →
      p.rxBufPos + cs.length ≤ MSG_SIZE →
      ∃ p', runLog serialCbByte p cs = some (p', []) ∧
        p'.rxBufPos = p.rxBufPos + cs.length ∧ p'.msgq = p.msgq ∧
        p'.rxBuf.toList
          = p.rxBuf.toList.take p.rxBufPos ++ cs
            ++ p.rxBuf.toList.drop (p.rxBufPos + cs.length) := by
  intro cs
  induction cs with
  | nil =>
    intro p _ _
    exact ⟨p, rfl, rfl, rfl, by simp⟩
  | cons c cs ih =>
    intro p hne hfit
    -- `c` is stored, and the rest goes behind it.
    rw [List.length_cons] at hfit
    have hpos : p.rxBufPos < MSG_SIZE := by omega
    have hlen : p.rxBufPos < p.rxBuf.toList.length := by rw [Vector.length_toList]; exact hpos
    have hstep := serialCbByte_store p (hne c (by simp)) hpos
    obtain ⟨p', hrun, hp', hq, hbuf⟩ := ih
      { p with rxBuf := p.rxBuf.set p.rxBufPos c hpos, rxBufPos := p.rxBufPos + 1 }
      (fun a ha => hne a (by simp [ha])) (by show p.rxBufPos + 1 + cs.length ≤ MSG_SIZE; omega)
    refine ⟨p', ?_, ?_, hq, ?_⟩
    · rw [runLog_cons_of_some serialCbByte cs hstep, hrun]
      rfl
    · rw [hp', List.length_cons]
      show p.rxBufPos + 1 + cs.length = _
      omega
    · have htake : (p.rxBuf.toList.set p.rxBufPos c).take (p.rxBufPos + 1)
          = p.rxBuf.toList.take p.rxBufPos ++ [c] := by
        rw [take_set_add c hlen Nat.one_pos]
        simp
      have hdrop : (p.rxBuf.toList.set p.rxBufPos c).drop (p.rxBufPos + 1 + cs.length)
          = p.rxBuf.toList.drop (p.rxBufPos + (cs.length + 1)) := by
        rw [List.drop_set_of_lt (by omega)]
        congr 1
        omega
      rw [hbuf]
      show (p.rxBuf.set p.rxBufPos c hpos).toList.take (p.rxBufPos + 1) ++ cs
          ++ (p.rxBuf.set p.rxBufPos c hpos).toList.drop (p.rxBufPos + 1 + cs.length) = _
      rw [Vector.toList_set, htake, hdrop, List.length_cons]
      simp

/-- At the queue, a turn hands over a complete message, or does nothing. -/
theorem serialCbByte_cases {p p' : SerialPort cap} {c : UInt8} {out : List LinkEvent}
    (h : serialCbByte p c = some (p', out)) :
    (∃ m, out = completes p.msgq m ∧ p'.msgq = p.msgq.putPurge m) ∨
      (out = [] ∧ p'.msgq = p.msgq) := by
  rw [serialCbByte] at h
  split at h
  · -- Only a complete packet reaches the queue.
    obtain ⟨r, -, hr⟩ := Option.map_eq_some_iff.mp h
    cases hr
    exact Or.inl ⟨r.1, rfl, rfl⟩
  · split at h
    · split at h
      · cases h
        exact Or.inr ⟨rfl, rfl⟩
      · cases h
    · cases h
      exact Or.inr ⟨rfl, rfl⟩

/-! ### The messages alone -/

/-- One turn, with the messages that `k_msgq_put` takes in it. -/
def receiveByte (p : SerialPort cap) (c : UInt8) : Option (SerialPort cap × List Image) :=
  (serialCbByte p c).map fun r => (r.1, handedOver r.2)

theorem runLog_receiveByte (p : SerialPort cap) (cs : List UInt8) :
    runLog receiveByte p cs
      = (runLog serialCbByte p cs).map fun r => (r.1, handedOver r.2) :=
  runLog_map_reports serialCbByte rfl handedOver_append p cs

/-! ### A whole frame -/

/-- What a run does to a port that is about to receive: everything but the
contents of `rx_buf` is said by the messages it hands over. -/
theorem runLog_serialCbByte_frame (p : SerialPort cap) (m : Image) (hpos : p.rxBufPos = 0) :
    ((runLog serialCbByte p (stuffed m.toList ++ [0])).isSome ↔
      (follow 0 (p.rxBuf.toList.drop (sizeofMsg + 1))).isSome) ∧
    ∀ p' out, runLog serialCbByte p (stuffed m.toList ++ [0]) = some (p', out) →
      out = completes p.msgq m ∧ p'.rxBufPos = 0 ∧ p'.msgq = p.msgq.putPurge m ∧
        follow 0 (p.rxBuf.toList.drop (sizeofMsg + 1))
          = some (p'.rxBuf.toList.drop (sizeofMsg + 1)) := by
  have hlen := length_stuffed_image m
  -- The 15 bytes are stored from index 0 on, in front of the old tail.
  obtain ⟨p₁, hrun, hp₁, hq₁, hbuf₁⟩ := runLog_serialCbByte_store (stuffed m.toList) p
    (ne_zero_of_mem_stuffed m) (by rw [hpos, hlen]; decide)
  rw [hpos, hlen, Nat.zero_add] at hp₁
  rw [hpos, hlen, Nat.zero_add, List.take_zero, List.nil_append] at hbuf₁
  have hdec := msgCobsDecode_frame p₁.rxBuf (by decide) m _ hbuf₁
  rw [runLog_append_of_some serialCbByte [0] hrun, runLog_singleton,
    serialCbByte_complete p₁ (by omega), Option.map_map]
  -- The zero decodes them, and whether the decoder stays inside is up to the tail.
  cases hcobs : msgCobsDecode p₁.rxBuf (by decide) with
  | none =>
    rw [hcobs] at hdec
    cases hf : follow 0 (p.rxBuf.toList.drop (sizeofMsg + 1)) with
    | none => exact ⟨Iff.rfl, fun p' out h => by cases h⟩
    | some t => rw [hf] at hdec; cases hdec
  | some r =>
    rw [hcobs] at hdec
    cases hf : follow 0 (p.rxBuf.toList.drop (sizeofMsg + 1)) with
    | none => rw [hf] at hdec; cases hdec
    | some t =>
      rw [hf] at hdec
      simp only [Option.map_some, Option.some.injEq, Prod.mk.injEq] at hdec
      obtain ⟨hmsg, hlist⟩ := hdec
      refine ⟨⟨fun _ => rfl, fun _ => rfl⟩, fun p' out h => ?_⟩
      simp only [Option.map_some, Function.comp_apply, Option.some.injEq, Prod.mk.injEq] at h
      obtain ⟨rfl, rfl⟩ := h
      refine ⟨by rw [hmsg, hq₁]; rfl, rfl, by rw [hmsg, hq₁], ?_⟩
      -- The 15 bytes of the frame stay in front, the tail behind them is `t`.
      have hfront : (0 :: m.toList).length = sizeofMsg + 1 := by
        rw [List.length_cons, Vector.length_toList]
      rw [hlist, List.drop_left' hfront]

end UpsFirmware
