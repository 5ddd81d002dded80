import UpsFirmware.Link.Delivery

/-!
# `UpsFirmware.Link.Discipline`: the queue between `serial_cb` and its consumer

`serial_cb` puts every message that it decodes into the queue. The consumer is
`buckboost` on the RP2040, where the queue holds 2 messages, and `screen_thread` on the
ESP32, where it holds 10. The interrupt can come at any moment of the consumer's
`k_msgq_get`, so `LinkAct` has the bytes and the two ends of a get as separate steps,
and a run is any sequence of them. The capacity is a parameter.

`queue_discipline` says what the consumer can rely on: order, no duplicate, the newest
message last, and losses only when a full queue is purged. It is the accounting of
`Lib.QueueRuns`, for the messages that `serial_cb` decodes.
-/

set_option autoImplicit false

namespace UpsFirmware

open Lib Lib.Stuffing Lib.QueueEvent

/-- An atomic step: `serial_cb` reads a byte, or the consumer enters `k_msgq_get` or
returns from its wait. -/
inductive LinkAct where
  | byte (c : UInt8)
  | get
  | resume

variable {cap : ℕ+}

namespace SerialPort

/-- A step of the link, and what happens in it. `none` is an access outside `rx_buf`, or
a step that the consumer cannot take. -/
def act (p : SerialPort cap) : LinkAct → Option (SerialPort cap × List LinkEvent)
  | .byte c => serialCbByte p c
  | .get => (p.msgq.act .get).map fun r => ({ p with msgq := r.1 }, r.2.map .queue)
  | .resume => (p.msgq.act .resume).map fun r => ({ p with msgq := r.1 }, r.2.map .queue)

/-- The invariant of the link: the queue's accounts are in order, and what was put is
what was decoded. -/
structure Disciplined (p : SerialPort cap) (log : List LinkEvent) : Prop where
  accounted : p.msgq.Accounted (queueLog log)
  puts_eq : puts (queueLog log) = decoded log

theorem disciplined_powerUp : (powerUp (MsgQueue.empty : MsgQueue Image cap)).Disciplined [] where
  accounted := MsgQueue.accounted_empty
  puts_eq := rfl

section Steps

variable {p : SerialPort cap} {log : List LinkEvent}

/-- A byte keeps it, whether it completes a message or not. -/
theorem disciplined_byte (h : p.Disciplined log) {c : UInt8} {p' : SerialPort cap}
    {out : List LinkEvent} (hbyte : serialCbByte p c = some (p', out)) :
    p'.Disciplined (log ++ out) := by
  rcases serialCbByte_cases hbyte with ⟨m, rfl, hq⟩ | ⟨rfl, hq⟩
  · refine ⟨?_, ?_⟩
    · rw [queueLog_append, queueLog_completes, hq]
      exact MsgQueue.accounted_putLoop h.accounted m
    · rw [queueLog_append, queueLog_completes, puts_append, (p.msgq.puts_putLoop m).1,
        decoded_append, decoded_completes, h.puts_eq]
  · rw [List.append_nil]
    exact ⟨by rw [hq]; exact h.accounted, h.puts_eq⟩

/-- A step of the consumer keeps it. -/
theorem disciplined_consumer (h : p.Disciplined log) {a : ConsumerAct}
    {q : MsgQueue Image cap} {out : List (QueueEvent Image)} (hact : p.msgq.act a = some (q, out)) :
    ({ p with msgq := q } : SerialPort cap).Disciplined (log ++ out.map .queue) := by
  refine ⟨?_, ?_⟩
  · rw [queueLog_append, queueLog_map_queue]
    exact MsgQueue.accounted_act h.accounted hact
  · rw [queueLog_append, queueLog_map_queue, puts_append, (MsgQueue.puts_act hact).1,
      decoded_append, decoded_map_queue, List.append_nil, List.append_nil, h.puts_eq]

theorem disciplined_act (h : p.Disciplined log) {a : LinkAct} {p' : SerialPort cap}
    {out : List LinkEvent} (hact : p.act a = some (p', out)) : p'.Disciplined (log ++ out) := by
  cases a with
  | byte c => exact disciplined_byte h hact
  | get =>
    obtain ⟨⟨q, es⟩, hget, heq⟩ := Option.map_eq_some_iff.mp hact
    cases heq
    exact disciplined_consumer h hget
  | resume =>
    obtain ⟨⟨q, es⟩, hresume, heq⟩ := Option.map_eq_some_iff.mp hact
    cases heq
    exact disciplined_consumer h hresume

/-- A completed frame: its message is the last one in the queue or goes to the waiting
consumer, and the retry loop tries at most twice. -/
theorem act_byte_completes {c : UInt8} {p' : SerialPort cap} {out : List LinkEvent}
    (hact : p.act (.byte c) = some (p', out)) {m : Image} (hm : .decoded m ∈ out) :
    (p'.msgq.items.getLast? = some m ∨
      (p.msgq.waiter = .waiting ∧ p'.msgq.waiter = .handed m)) ∧ tries (queueLog out) ≤ 2 := by
  rcases serialCbByte_cases hact with ⟨m', rfl, hq⟩ | ⟨rfl, -⟩
  · have hsame : m = m' := by simpa [completes] using hm
    subst hsame
    rw [hq, queueLog_completes]
    exact ⟨p.msgq.newest_putPurge m, (p.msgq.puts_putLoop m).2⟩
  · cases hm

end Steps

end SerialPort

/-- Bytes alone are a run of the link. -/
theorem runLog_act_bytes (p : SerialPort cap) (cs : List UInt8) :
    runLog SerialPort.act p (cs.map .byte) = runLog serialCbByte p cs := by
  rw [runLog_flatMap SerialPort.act serialCbByte (fun c => [.byte c])
    (fun p c => (runLog_singleton SerialPort.act p (.byte c)).symm), List.map_eq_flatMap]

/-- Queue discipline, for every interleaving of received bytes with the consumer's steps:

- the messages that the consumer got are decoded messages, in order, each at most once;
- every decoded message was got, is pending, or was dropped by a purge, and every purge
  found `cap` messages in the queue;
- when a frame is completed, its message is the last in the queue or goes to the waiting
  consumer, and the retry loop makes at most two puts. -/
theorem queue_discipline {acts : List LinkAct} {p : SerialPort cap} {log : List LinkEvent}
    (hrun : runLog SerialPort.act (SerialPort.powerUp MsgQueue.empty) acts = some (p, log)) :
    (gots (queueLog log)).Sublist (decoded log) ∧
    ((gots (queueLog log) ++ p.msgq.pending ++ (purges (queueLog log)).flatten).Perm
        (decoded log) ∧ ∀ ms ∈ purges (queueLog log), ms.length = cap) ∧
    ∀ c p' out m, p.act (.byte c) = some (p', out) → .decoded m ∈ out →
      (p'.msgq.items.getLast? = some m ∨
        (p.msgq.waiter = .waiting ∧ p'.msgq.waiter = .handed m)) ∧ tries (queueLog out) ≤ 2 := by
  have hinv : p.Disciplined log := runLog_history (J := SerialPort.Disciplined) SerialPort.act
    (fun _ _ _ _ _ h hact => SerialPort.disciplined_act h hact) SerialPort.disciplined_powerUp
    hrun
  refine ⟨?_, ⟨?_, hinv.accounted.full⟩, ?_⟩
  · rw [← hinv.puts_eq]
    exact (List.sublist_append_left _ _).trans hinv.accounted.order
  · rw [← hinv.puts_eq]
    exact hinv.accounted.account
  · intro c p' out m hact hm
    exact SerialPort.act_byte_completes hact hm

/-- The bytes of a frame. -/
def frameActs (m : Image) : List LinkAct := (stuffed m.toList ++ [0]).map .byte

section Frames

variable {p₀ p : SerialPort cap} {acts : List LinkAct} {log : List LinkEvent}
  (hrun : runLog SerialPort.act p₀ acts = some (p, log)) (hp : Ready p)
  (hwaiter : p.msgq.waiter = .absent)

include hrun hp

theorem runLog_concat_frame (m : Image) :
    ∃ p', runLog SerialPort.act p₀ (acts ++ frameActs m) = some (p', log ++ completes p.msgq m) ∧
      Ready p' ∧ p'.msgq = p.msgq.putPurge m := by
  obtain ⟨p', hframe, hp', hq⟩ := ready_frame hp m
  rw [← runLog_act_bytes] at hframe
  refine ⟨p', ?_, hp', hq⟩
  rw [runLog_append_of_some SerialPort.act (frameActs m) hrun, frameActs, hframe]
  rfl

include hwaiter

/-- A frame, when there is room in the queue and nobody waits. -/
theorem runLog_concat_put {ms : List Image} (hitems : p.msgq.items = ms) (m : Image)
    (hroom : ms.length < cap) :
    ∃ p', runLog SerialPort.act p₀ (acts ++ frameActs m)
        = some (p', log ++ [.decoded m, .queue (.tried m true)]) ∧
      Ready p' ∧ p'.msgq.items = ms ++ [m] ∧ p'.msgq.waiter = .absent := by
  subst hitems
  obtain ⟨p', hframe, hp', hq⟩ := runLog_concat_frame hrun hp m
  rw [completes, MsgQueue.putLoop_of_lt _ _ hroom] at hframe
  rw [MsgQueue.putPurge_of_lt _ _ hroom] at hq
  exact ⟨p', hframe, hp', hq ▸ MsgQueue.accept_of_absent hwaiter m hroom⟩

/-- A frame, when the queue is full. -/
theorem runLog_concat_purge {ms : List Image} (hitems : p.msgq.items = ms) (m : Image)
    (hfull : ms.length = cap) :
    ∃ p', runLog SerialPort.act p₀ (acts ++ frameActs m)
        = some (p', log ++ [.decoded m, .queue (.tried m false), .queue (.purged ms),
            .queue (.tried m true)]) ∧
      Ready p' ∧ p'.msgq.items = [m] ∧ p'.msgq.waiter = .absent := by
  subst hitems
  obtain ⟨p', hframe, hp', hq⟩ := runLog_concat_frame hrun hp m
  rw [completes, MsgQueue.putLoop_of_full _ _ hfull] at hframe
  rw [MsgQueue.putPurge_of_full _ _ hfull] at hq
  exact ⟨p', hframe, hp', hq ▸ MsgQueue.accept_of_absent (q := p.msgq.purge) hwaiter m cap.pos⟩

/-- A get that finds a message. -/
theorem runLog_concat_get {m : Image} {ms : List Image} (hitems : p.msgq.items = m :: ms) :
    ∃ p', runLog SerialPort.act p₀ (acts ++ [.get]) = some (p', log ++ [.queue (.got m)]) ∧
      Ready p' ∧ p'.msgq.items = ms ∧ p'.msgq.waiter = .absent := by
  obtain ⟨q, hget, hrest, habsent⟩ := MsgQueue.act_get_of_cons hwaiter hitems
  refine ⟨{ p with msgq := q }, ?_, ⟨hp.pos, hp.tail⟩, hrest, habsent⟩
  rw [runLog_append_of_some SerialPort.act [.get] hrun, runLog_singleton, SerialPort.act, hget]
  rfl

end Frames

/-- On the RP2040, four messages arrive. The consumer gets the first one when there are
two of them. The fourth one finds two others in the queue and purges them, and the consumer
gets it. -/
theorem queue_discipline_purge :
    ∃ (p : SerialPort 2) (log : List LinkEvent),
      runLog SerialPort.act (SerialPort.powerUp MsgQueue.empty)
        ([] ++ frameActs (Vector.replicate sizeofMsg 1)
          ++ frameActs (Vector.replicate sizeofMsg 2) ++ [.get]
          ++ frameActs (Vector.replicate sizeofMsg 3)
          ++ frameActs (Vector.replicate sizeofMsg 4) ++ [.get])
          = some (p, log) ∧
      gots (queueLog log) = [Vector.replicate sizeofMsg 1, Vector.replicate sizeofMsg 4] ∧
      purges (queueLog log)
        = [[Vector.replicate sizeofMsg 2, Vector.replicate sizeofMsg 3]] ∧
      (gots (queueLog log)).Sublist (decoded log) ∧
      ((gots (queueLog log) ++ p.msgq.pending ++ (purges (queueLog log)).flatten).Perm
        (decoded log) ∧ ∀ ms ∈ purges (queueLog log), ms.length = (2 : ℕ+)) := by
  obtain ⟨p₁, hrun₁, hp₁, hq₁, hw₁⟩ := runLog_concat_put (runLog_nil SerialPort.act _)
    (ready_powerUp (MsgQueue.empty : MsgQueue Image 2)) rfl rfl
    (Vector.replicate sizeofMsg 1) (by decide)
  obtain ⟨p₂, hrun₂, hp₂, hq₂, hw₂⟩ := runLog_concat_put hrun₁ hp₁ hw₁ hq₁
    (Vector.replicate sizeofMsg 2) (by decide)
  obtain ⟨p₃, hrun₃, hp₃, hq₃, hw₃⟩ := runLog_concat_get hrun₂ hp₂ hw₂ hq₂
  obtain ⟨p₄, hrun₄, hp₄, hq₄, hw₄⟩ := runLog_concat_put hrun₃ hp₃ hw₃ hq₃
    (Vector.replicate sizeofMsg 3) (by decide)
  obtain ⟨p₅, hrun₅, hp₅, hq₅, hw₅⟩ := runLog_concat_purge hrun₄ hp₄ hw₄ hq₄
    (Vector.replicate sizeofMsg 4) rfl
  obtain ⟨p₆, hrun₆, -⟩ := runLog_concat_get hrun₅ hp₅ hw₅ hq₅
  obtain ⟨horder, haccount, -⟩ := queue_discipline hrun₆
  exact ⟨p₆, _, hrun₆, rfl, rfl, horder, haccount⟩

end UpsFirmware
