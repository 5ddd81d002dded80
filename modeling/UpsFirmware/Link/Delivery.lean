import UpsFirmware.Link.Bounds

/-!
# `UpsFirmware.Link.Delivery`: messages that arrive

A receiver is `Ready` when its position is 0 and the bytes behind the 15 bytes of
a frame stop the decoder inside `rx_buf`. The receiver is ready at power-up, a
frame that arrives at a ready receiver is handed over and leaves it ready
(`ready_frame`), and so does any number of frames (`ready_sendMsgs`).

Two results follow.

* `serialCb_lossless`: on a channel that keeps every byte, `k_msgq_put` takes
  exactly the messages that were sent, for every split of the bytes over
  interrupts, and each of them is then the newest one of the queue.
* `resynchronises_iff`: after arbitrary bytes and a zero, the receiver hands over
  exactly the messages that follow, whatever they are, if and only if it is then
  ready. A zero that comes behind 1 to 14 open bytes is not stored and does not
  reset the position, so the next frame is shifted: `resynchronises_stray_byte`
  is such a case.
-/

set_option autoImplicit false

namespace UpsFirmware

open Lib Lib.Stuffing Lib.QueueEvent

variable {cap : ℕ+}

/-! ### A receiver that is ready -/

/-- The position is 0, and the bytes behind the first 15 stop the decoder inside
the buffer. -/
structure Ready (p : SerialPort cap) : Prop where
  pos : p.rxBufPos = 0
  tail : (follow 0 (p.rxBuf.toList.drop (sizeofMsg + 1))).isSome

theorem ready_powerUp (q : MsgQueue Image cap) : Ready (SerialPort.powerUp q) where
  pos := rfl
  tail := by
    show (follow 0 ((Vector.replicate MSG_SIZE 0).toList.drop (sizeofMsg + 1))).isSome
    rw [Vector.toList_replicate]
    rfl

/-- A frame at a ready receiver: its message is handed over, and the receiver is
ready again. -/
theorem ready_frame {p : SerialPort cap} (hp : Ready p) (m : Image) :
    ∃ p', runLog serialCbByte p (stuffed m.toList ++ [0]) = some (p', completes p.msgq m) ∧
      Ready p' ∧ p'.msgq = p.msgq.putPurge m := by
  obtain ⟨hsome, hframe⟩ := runLog_serialCbByte_frame p m hp.pos
  obtain ⟨⟨p', out⟩, hrun⟩ := Option.isSome_iff_exists.mp (hsome.mpr hp.tail)
  obtain ⟨rfl, hpos, hq, htail⟩ := hframe p' out hrun
  refine ⟨p', hrun, ⟨hpos, ?_⟩, hq⟩
  -- The decoder stopped in the tail, so it left a zero in front of it.
  rw [follow_zero_of_follow htail]
  rfl

/-- Any number of frames at a ready receiver. -/
theorem ready_sendMsgs : ∀ (ms : List Image) (uartbuf : Vector UInt8 64)
    {p : SerialPort cap}, Ready p →
    ∃ p' log, runLog serialCbByte p (sendMsgs uartbuf ms) = some (p', log) ∧
      handedOver log = ms ∧ Ready p' ∧ p'.msgq = ms.foldl MsgQueue.putPurge p.msgq := by
  intro ms
  induction ms with
  | nil =>
    intro uartbuf p hp
    exact ⟨p, [], rfl, rfl, hp, rfl⟩
  | cons m ms ih =>
    intro uartbuf p hp
    obtain ⟨uartbuf', hsend⟩ := sendMsgs_cons uartbuf m ms
    obtain ⟨p₁, hrun₁, hp₁, hq₁⟩ := ready_frame hp m
    obtain ⟨p₂, log, hrun₂, hputs, hp₂, hq₂⟩ := ih uartbuf' hp₁
    refine ⟨p₂, completes p.msgq m ++ log, ?_, ?_, hp₂, by rw [hq₂, hq₁, List.foldl_cons]⟩
    · rw [hsend, runLog_append_of_some serialCbByte _ hrun₁, hrun₂]
      rfl
    · rw [handedOver_append, handedOver_completes, hputs, List.singleton_append]

/-- The same for the messages alone. -/
theorem receive_sendMsgs {p : SerialPort cap} (hp : Ready p) (uartbuf : Vector UInt8 64)
    (ms : List Image) :
    ∃ p', runLog receiveByte p (sendMsgs uartbuf ms) = some (p', ms) ∧ Ready p' := by
  obtain ⟨p', log, hrun, hputs, hp', -⟩ := ready_sendMsgs ms uartbuf hp
  refine ⟨p', ?_, hp'⟩
  rw [runLog_receiveByte, hrun, Option.map_some, hputs]

/-! ### A channel that keeps every byte -/

/-- Lossless delivery. The bytes of the messages arrive split over interrupts in
any way. Then `k_msgq_put` takes exactly the messages, in order, each once, and the
queue is what these puts leave. After each frame the position is 0. Whatever message
is sent next is taken in the same way, and is then the last one in the queue, unless
the consumer was waiting for it. -/
theorem serialCb_lossless (q : MsgQueue Image cap) (uartbuf : Vector UInt8 64)
    (ms : List Image) (irqs : List Interrupt)
    (hbytes : irqs.flatMap Interrupt.bytes = sendMsgs uartbuf ms) :
    (∃ p log, runLog serialCb (SerialPort.powerUp q) irqs = some (p, log) ∧
      puts (queueLog log) = ms ∧
      p.rxBufPos = 0 ∧ p.msgq = ms.foldl MsgQueue.putPurge q) ∧
    ∀ k ≤ ms.length, ∃ p log,
      runLog serialCbByte (SerialPort.powerUp q) (sendMsgs uartbuf (ms.take k))
        = some (p, log) ∧
      puts (queueLog log) = ms.take k ∧
      p.rxBufPos = 0 ∧
      ∀ (m : Image) (uartbuf' : Vector UInt8 64), ∃ p' out,
        runLog serialCbByte p (sendMsgs uartbuf' [m]) = some (p', out) ∧
        puts (queueLog out) = [m] ∧
        p'.rxBufPos = 0 ∧
        (p'.msgq.items.getLast? = some m ∨
          (p.msgq.waiter = .waiting ∧ p'.msgq.waiter = .handed m)) := by
  constructor
  · obtain ⟨p, log, hrun, hputs, hp, hq⟩ := ready_sendMsgs ms uartbuf (ready_powerUp q)
    refine ⟨p, log, ?_, hputs, hp.pos, hq⟩
    rw [runLog_serialCb, hbytes, hrun]
  · intro k _
    obtain ⟨p, log, hrun, hputs, hp, -⟩ :=
      ready_sendMsgs (ms.take k) uartbuf (ready_powerUp q)
    refine ⟨p, log, hrun, hputs, hp.pos, fun m uartbuf' => ?_⟩
    obtain ⟨p', out, hrun', hputs', hp', hq'⟩ := ready_sendMsgs [m] uartbuf' hp
    rw [List.foldl_cons, List.foldl_nil] at hq'
    refine ⟨p', out, hrun', hputs', hp'.pos, ?_⟩
    rw [hq']
    exact p.msgq.newest_putPurge m

/-- Two messages whose bytes come in three interrupts, cut inside the frames, with
an interrupt in between that has nothing to read. -/
theorem serialCb_lossless_two :
    ∃ p log, runLog serialCb (SerialPort.powerUp (MsgQueue.empty : MsgQueue Image 2))
        [⟨true, true, [15, 7, 7, 7]⟩, ⟨true, false, [9]⟩,
          ⟨true, true, [7, 7, 7, 7, 7, 7, 7, 7, 7, 7, 7, 0, 1, 1, 1, 1, 1, 1]⟩,
          ⟨true, true, [1, 1, 1, 1, 1, 1, 1, 1, 1, 0]⟩]
      = some (p, log) ∧
      puts (queueLog log) = [Vector.replicate 14 7, Vector.replicate 14 0] ∧
      p.rxBufPos = 0 := by
  obtain ⟨p, log, hrun, hputs, hpos, -⟩ :=
    (serialCb_lossless (MsgQueue.empty : MsgQueue Image 2)
      (Vector.replicate 64 0) [Vector.replicate 14 7, Vector.replicate 14 0]
      [⟨true, true, [15, 7, 7, 7]⟩, ⟨true, false, [9]⟩,
        ⟨true, true, [7, 7, 7, 7, 7, 7, 7, 7, 7, 7, 7, 0, 1, 1, 1, 1, 1, 1]⟩,
        ⟨true, true, [1, 1, 1, 1, 1, 1, 1, 1, 1, 0]⟩] (by decide)).1
  exact ⟨p, log, hrun, hputs, hpos⟩

/-! ### After damage -/

/-- Resynchronisation after the bytes `g`: once a zero has followed them, `k_msgq_put`
takes exactly the messages that are sent, whichever they are. -/
def Resynchronises (q : MsgQueue Image cap) (g : List UInt8) : Prop :=
  ∀ (ms : List Image) (uartbuf : Vector UInt8 64), ∃ p log p' log',
    runLog serialCbByte (SerialPort.powerUp q) (g ++ [0]) = some (p, log) ∧
    runLog serialCbByte (SerialPort.powerUp q) (g ++ [0] ++ sendMsgs uartbuf ms)
      = some (p', log ++ log') ∧
    puts (queueLog log') = ms

/-- After a zero at most 14 bytes are open. -/
theorem openBytes_concat_zero_le (g : List UInt8) : openBytes (g ++ [0]) ≤ sizeofMsg := by
  rw [openBytes_concat, openBytesStep, if_pos rfl]
  split <;> omega

/-- A frame behind 1 to 14 open bytes is shifted. The message of fourteen ones is
not handed over: where the frame's first byte landed, the decoder has 15 or
0. -/
theorem runLog_serialCbByte_shifted (p p' : SerialPort cap) (out : List LinkEvent)
    (h1 : 1 ≤ p.rxBufPos) (h14 : p.rxBufPos ≤ sizeofMsg)
    (hrun : runLog serialCbByte p (stuffed (Vector.replicate sizeofMsg 1 : Image).toList ++ [0])
      = some (p', out)) :
    handedOver out ≠ [Vector.replicate sizeofMsg 1] := by
  have hsize : sizeofMsg = 14 := rfl
  have hmsize : MSG_SIZE = 32 := rfl
  have hlen := length_stuffed_image (Vector.replicate sizeofMsg 1)
  obtain ⟨p₁, hrun₁, hp₁, -, hbuf₁⟩ := runLog_serialCbByte_store
    (stuffed (Vector.replicate sizeofMsg 1 : Image).toList) p (ne_zero_of_mem_stuffed _)
    (by omega)
  rw [runLog_append_of_some serialCbByte [0] hrun₁, runLog_singleton,
    serialCbByte_complete p₁ (by omega), Option.map_map, Option.map_eq_some_iff] at hrun
  obtain ⟨⟨msg, buf⟩, hdec, heq⟩ := hrun
  have hout : out = completes p₁.msgq msg := (congrArg Prod.snd heq).symm
  intro hones
  rw [hout, handedOver_completes, List.singleton_inj] at hones
  -- The byte at the old position is the frame's first byte, 15.
  have hpre : (p.rxBuf.toList.take p.rxBufPos).length = p.rxBufPos := by
    rw [List.length_take, Vector.length_toList]
    omega
  have h15 : p₁.rxBuf.toList[p.rxBufPos]? = some 15 := by
    rw [hbuf₁, List.append_assoc, List.getElem?_append_right (by omega), hpre, Nat.sub_self]
    rfl
  -- The decoder leaves it or zeroes it, and copies it into the message.
  rw [msgCobsDecode, Option.map_eq_some_iff] at hdec
  obtain ⟨buf', hloop, hcopy⟩ := hdec
  have hfollow := msgCobsDecode_loop_toList p₁.rxBuf 0
  rw [hloop, List.drop_zero, Option.map_some, eq_comm, Option.map_eq_some_iff] at hfollow
  obtain ⟨zs, hzs, hbuf'⟩ := hfollow
  have hbyte := getElem?_of_follow p₁.rxBuf.toList 0 hzs p.rxBufPos
  have hzs' : zs = buf'.toList := hbuf'
  have hlt : p.rxBufPos - 1 < sizeofMsg := by omega
  have hmsg : msg[p.rxBufPos - 1]? = buf'.toList[p.rxBufPos]? := by
    have hcopy' : copyMsg buf' (by decide) = msg := congrArg Prod.fst hcopy
    have hidx : p.rxBufPos - 1 + 1 = p.rxBufPos := by omega
    rw [← hcopy', Vector.getElem?_eq_getElem hlt, copyMsg, Vector.getElem_ofFn,
      Vector.getElem?_toList, Vector.getElem?_eq_getElem (by omega)]
    simp only [hidx]
  have hone : msg[p.rxBufPos - 1]? = some 1 := by
    rw [hones, Vector.getElem?_eq_getElem hlt, Vector.getElem_replicate]
  rw [hzs', ← hmsg, hone, h15] at hbyte
  rcases hbyte with h | h
  · exact absurd h (by decide)
  · exact absurd h (by decide)

/-- A receiver that hands over every sequence of messages is ready, provided at
most 14 bytes are open. -/
theorem ready_of_delivers {p : SerialPort cap} (hpos : p.rxBufPos ≤ sizeofMsg)
    (h : ∀ (ms : List Image) (uartbuf : Vector UInt8 64), ∃ p' log,
      runLog serialCbByte p (sendMsgs uartbuf ms) = some (p', log) ∧ handedOver log = ms) :
    Ready p := by
  have hframe : ∀ m : Image, ∃ p' log,
      runLog serialCbByte p (stuffed m.toList ++ [0]) = some (p', log) ∧
        handedOver log = [m] := by
    intro m
    obtain ⟨uartbuf', hsend⟩ := sendMsgs_cons (Vector.replicate 64 0) m []
    obtain ⟨p', log, hrun, hputs⟩ := h [m] (Vector.replicate 64 0)
    rw [hsend] at hrun
    exact ⟨p', log, by simpa [sendMsgs] using hrun, hputs⟩
  -- Fourteen ones are a message that no shifted frame gives.
  obtain ⟨p', log, hrun, hputs⟩ := hframe (Vector.replicate sizeofMsg 1)
  have h0 : p.rxBufPos = 0 := by
    refine Nat.eq_zero_of_not_pos fun h1 => ?_
    exact runLog_serialCbByte_shifted p p' _ h1 hpos hrun hputs
  exact ⟨h0, (runLog_serialCbByte_frame p _ h0).1.mp (by rw [hrun]; rfl)⟩

/-- Resynchronisation after `g` is being ready after `g` and the zero. -/
theorem resynchronises_iff_ready (q : MsgQueue Image cap) (g : List UInt8) :
    Resynchronises q g ↔ ∃ p log,
      runLog serialCbByte (SerialPort.powerUp q) (g ++ [0]) = some (p, log) ∧ Ready p := by
  constructor
  · intro h
    obtain ⟨p, log, -, -, hg, -⟩ := h [] (Vector.replicate 64 0)
    refine ⟨p, log, hg, ready_of_delivers ?_ fun ms uartbuf => ?_⟩
    · rw [rxBufPos_eq_openBytes q _ hg]
      exact openBytes_concat_zero_le g
    · obtain ⟨p₁, log₁, p', log', hg₁, hrun, hputs⟩ := h ms uartbuf
      rw [hg] at hg₁
      cases hg₁
      rw [runLog_append_of_some serialCbByte _ hg, Option.map_eq_some_iff] at hrun
      obtain ⟨⟨p₂, out⟩, hrun₂, heq⟩ := hrun
      rw [Prod.mk.injEq, List.append_cancel_left_eq] at heq
      obtain ⟨rfl, rfl⟩ := heq
      exact ⟨p₂, out, hrun₂, hputs⟩
  · -- A ready receiver hands over any messages.
    rintro ⟨p, log, hg, hp⟩ ms uartbuf
    obtain ⟨p', log', hrun, hputs, -, -⟩ := ready_sendMsgs ms uartbuf hp
    refine ⟨p, log, p', log', hg, ?_, hputs⟩
    rw [runLog_append_of_some serialCbByte _ hg, hrun]
    rfl

/-- Being ready, as a chain of offsets in `rx_buf` from index 15 on. -/
theorem ready_iff (p : SerialPort cap) :
    Ready p ↔ p.rxBufPos = 0 ∧
      ∃ z, Hops p.rxBuf.toList (sizeofMsg + 1) z ∧ p.rxBuf.toList[z]? = some 0 := by
  have hlen : sizeofMsg + 1 ≤ p.rxBuf.toList.length := by
    rw [Vector.length_toList]
    decide
  have htail : (follow 0 (p.rxBuf.toList.drop (sizeofMsg + 1))).isSome ↔
      ∃ z, Hops p.rxBuf.toList (sizeofMsg + 1) z ∧ p.rxBuf.toList[z]? = some 0 := by
    rw [follow_isSome_iff]
    constructor
    · rintro ⟨z, hz, hd⟩
      rw [List.getElem?_drop] at hd
      exact ⟨_, (hops_drop (sizeofMsg + 1) _ 0 z hlen).mp hz, hd⟩
    · rintro ⟨z, hz, hd⟩
      obtain ⟨k, rfl⟩ := Nat.exists_eq_add_of_le (hops_le hz)
      exact ⟨k, (hops_drop (sizeofMsg + 1) _ 0 k hlen).mpr hz, by rw [List.getElem?_drop]; exact hd⟩
  exact ⟨fun h => ⟨h.pos, htail.mp h.tail⟩, fun h => ⟨h.1, htail.mpr h.2⟩⟩

/-- The receiver resynchronises after `g` exactly when three things hold of `g`
and the zero: they keep it inside `rx_buf`, no byte is open after them, and the
offsets they left in `rx_buf` lead from index 15 to a zero in `rx_buf`. -/
theorem resynchronises_iff (q : MsgQueue Image cap) (g : List UInt8) :
    Resynchronises q g ↔
      StaysInside q (g ++ [0]) ∧ openBytes (g ++ [0]) = 0 ∧
      ∀ p log, runLog serialCbByte (SerialPort.powerUp q) (g ++ [0]) = some (p, log) →
        ∃ z, Hops p.rxBuf.toList 15 z ∧ p.rxBuf.toList[z]? = some 0 := by
  rw [resynchronises_iff_ready, ← runLog_isSome_iff_staysInside]
  constructor
  · rintro ⟨p, log, hg, hp⟩
    obtain ⟨hpos, htail⟩ := (ready_iff p).mp hp
    refine ⟨by rw [hg]; rfl, by rw [← rxBufPos_eq_openBytes q _ hg, hpos], ?_⟩
    intro p' log' hg'
    rw [hg] at hg'
    cases hg'
    exact htail
  · rintro ⟨hsome, hopen, htail⟩
    obtain ⟨⟨p, log⟩, hg⟩ := Option.isSome_iff_exists.mp hsome
    exact ⟨p, log, hg, (ready_iff p).mpr
      ⟨by rw [rxBufPos_eq_openBytes q _ hg, hopen], htail p log hg⟩⟩

/-- One stray non-zero byte before the zero is enough to lose the frame that
follows. -/
theorem resynchronises_stray_byte :
    ¬ ∀ g : List UInt8, Resynchronises (MsgQueue.empty : MsgQueue Image 2) g := by
  intro h
  obtain ⟨p, log, hg, hp⟩ := (resynchronises_iff_ready _ _).mp (h [1])
  have hpos := rxBufPos_eq_openBytes _ _ hg
  rw [hp.pos] at hpos
  exact absurd hpos (by decide)

end UpsFirmware
