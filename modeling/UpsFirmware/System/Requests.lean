import UpsFirmware.Esp32.PowerButton
import UpsFirmware.Lib.QueueRuns
import UpsFirmware.Rp2040.Console
import UpsFirmware.Stm32.Bms

/-!
# `UpsFirmware.System.Requests`: what becomes of a request to shut down

A request is a message of the ESP32. The RP2040 decodes it, takes it out of its queue in a
telemetry tick, and prints the line with `@` in a later tick. This file follows it there.

`count_iterate` counts the bytes `@` that an iteration writes. `Rp2040.lines_add_le` are
the accounts of an iteration: no request is printed twice. `Rp2040.pending_step` says that
they do not all get lost, and `Rp2040.wait_step` that a pending one gets closer to its line
as long as nothing new comes. `decoded_of_isPrefix` is about the other end, the requests in
what the ESP32 sends.
-/

set_option autoImplicit false

namespace UpsFirmware

open Lib Lib.Stuffing
open Stm32 (SHUTDOWN_BYTE)

/-! ### The bytes of the console -/

/-- Some text in UTF-8. -/
def utf8 (text : List Char) : List UInt8 := text.flatMap String.utf8EncodeChar

/-- What some effects write to the console. -/
def NumberFormat.consoleBytes (f : NumberFormat) (fx : List Effect) : List UInt8 :=
  utf8 (fx.flatMap f.consoleText)

/-- A byte behind the first 128 is not the byte that requests a shutdown. -/
theorem ofNat_ne_shutdown {n : Nat} (hlow : 128 ≤ n) (hhigh : n < 256) :
    UInt8.ofNat n ≠ SHUTDOWN_BYTE := by
  intro heq
  have hval := congrArg UInt8.toNat heq
  rw [UInt8.toNat_ofNat', show SHUTDOWN_BYTE.toNat = 64 from rfl] at hval
  omega

/-- Only the character `@` has the byte that requests a shutdown. -/
theorem count_utf8EncodeChar (c : Char) :
    (String.utf8EncodeChar c).count SHUTDOWN_BYTE = if c = '@' then 1 else 0 := by
  have hat : c = '@' ↔ c.val.toNat = 64 := by
    rw [← Char.val_inj, ← UInt32.toNat_inj]
    exact Iff.rfl
  rw [String.utf8EncodeChar]
  simp only [hat]
  generalize c.val.toNat = v
  split
  · next hone =>
    -- One byte, which is the character itself.
    have hbyte : UInt8.ofNat v = SHUTDOWN_BYTE ↔ v = 64 := by
      rw [← UInt8.toNat_inj, UInt8.toNat_ofNat', show SHUTDOWN_BYTE.toNat = 64 from rfl]
      omega
    rw [List.count_singleton]
    simp only [beq_iff_eq, hbyte]
  · next hlong =>
    have hnot : ∀ bytes : List UInt8, SHUTDOWN_BYTE ∉ bytes →
        bytes.count SHUTDOWN_BYTE = if v = 64 then 1 else 0 := by
      intro bytes hbytes
      rw [List.count_eq_zero_of_not_mem hbytes, if_neg (by omega)]
    split
    · refine hnot _ ?_
      simp only [List.mem_cons, List.not_mem_nil, or_false, not_or]
      exact ⟨(ofNat_ne_shutdown (by omega) (by omega)).symm,
        (ofNat_ne_shutdown (by omega) (by omega)).symm⟩
    · split
      · refine hnot _ ?_
        simp only [List.mem_cons, List.not_mem_nil, or_false, not_or]
        exact ⟨(ofNat_ne_shutdown (by omega) (by omega)).symm,
          (ofNat_ne_shutdown (by omega) (by omega)).symm,
          (ofNat_ne_shutdown (by omega) (by omega)).symm⟩
      · refine hnot _ ?_
        simp only [List.mem_cons, List.not_mem_nil, or_false, not_or]
        exact ⟨(ofNat_ne_shutdown (by omega) (by omega)).symm,
          (ofNat_ne_shutdown (by omega) (by omega)).symm,
          (ofNat_ne_shutdown (by omega) (by omega)).symm,
          (ofNat_ne_shutdown (by omega) (by omega)).symm⟩

theorem count_utf8 (text : List Char) :
    (utf8 text).count SHUTDOWN_BYTE = text.count '@' := by
  induction text with
  | nil => rfl
  | cons c text ih =>
    have hcons : utf8 (c :: text) = String.utf8EncodeChar c ++ utf8 text := rfl
    rw [hcons, List.count_append, ih, count_utf8EncodeChar, List.count_cons]
    simp [Nat.add_comm]

/-- What is not printed does not show. -/
theorem NumberFormat.count_consoleBytes_eq_zero (f : NumberFormat) {fx : List Effect}
    (h : ∀ e ∈ fx, '@' ∉ f.consoleText e) : (f.consoleBytes fx).count SHUTDOWN_BYTE = 0 := by
  rw [consoleBytes, count_utf8]
  refine List.count_eq_zero_of_not_mem fun hmem => ?_
  obtain ⟨e, he, hat⟩ := List.mem_flatMap.mp hmem
  exact h e he hat

theorem NumberFormat.count_consoleBytes_append (f : NumberFormat) (fx gx : List Effect) :
    (f.consoleBytes (fx ++ gx)).count SHUTDOWN_BYTE
      = (f.consoleBytes fx).count SHUTDOWN_BYTE + (f.consoleBytes gx).count SHUTDOWN_BYTE := by
  rw [consoleBytes, List.flatMap_append, utf8, List.flatMap_append, List.count_append]
  rfl

/-- With the names of the devices hidden, the RP2040 does not write the byte before its
loop. -/
theorem count_bootEffects (f : NumberFormat) {b : BootInputs} (hnames : NamesHidden b) :
    (f.consoleBytes (Buckboost.bootEffects b)).count SHUTDOWN_BYTE = 0 := by
  refine f.count_consoleBytes_eq_zero fun e he hat => ?_
  rcases of_printsAt_bootEffects he (f.printsAt_of_at hat) with ⟨i, hready, rfl⟩ | ⟨hready, rfl⟩
  · rw [hnames.1 i ((f.at_adcNotReady _).mp hat)] at hready
    cases hready
  · rw [hnames.2 ((f.at_pwmNotReady _).mp hat)] at hready
    cases hready

/-! ### One iteration of the RP2040 -/

/-- How often `receive` writes the byte. -/
theorem count_receive (f : NumberFormat) (msgIn : Msg) (powered : Bool)
    (received : Option Image) :
    (f.consoleBytes (receive msgIn powered received).2).count SHUTDOWN_BYTE
      = if received = none ∧ msgIn.powerDwn ≠ 0 ∧ powered = false then 1 else 0 := by
  cases received with
  | some img => rfl
  | none =>
    by_cases h : msgIn.powerDwn ≠ 0 ∧ powered = false
    · have hline : (receive msgIn powered none).2
          = [.printk "Power Down Requested @ \n" []] := by
        simp [receive, kMsgqGet, EAGAIN, h]
      rw [hline, if_pos ⟨rfl, h⟩, NumberFormat.consoleBytes, count_utf8]
      rfl
    · have hnone : (receive msgIn powered none).2 = [] := by
        simp [receive, kMsgqGet, EAGAIN, h]
      rw [hnone, if_neg (fun hall => h hall.2)]
      rfl

/-- How often an iteration writes the byte. -/
theorem count_iterate (f : NumberFormat) (s : Buckboost) (inp : Inputs) :
    (f.consoleBytes (s.iterate inp).2).count SHUTDOWN_BYTE
      = if s.countdown = 0 ∧ inp.received = none ∧ s.msgIn.powerDwn ≠ 0 ∧
          inp.vinDetect = false then 1 else 0 := by
  have hquiet : ∀ fx : List Effect, (∀ e ∈ fx, e.printsAt = false) →
      (f.consoleBytes fx).count SHUTDOWN_BYTE = 0 := by
    intro fx hfx
    refine f.count_consoleBytes_eq_zero fun e he hat => ?_
    have hprints := f.printsAt_of_at hat
    rw [hfx e he] at hprints
    cases hprints
  show (f.consoleBytes ((s.sense inp).2 ++ ((s.sense inp).1.telemetry inp.vinDetect inp).2 ++ _)
    ).count SHUTDOWN_BYTE = _
  rw [f.count_consoleBytes_append, f.count_consoleBytes_append, hquiet _ (printsAt_sense s inp),
    hquiet _ (printsAt_mode _ _ _ _), Buckboost.telemetry_snd, Nat.zero_add, Nat.add_zero]
  show (f.consoleBytes (if s.countdown = 0 then _ else _)).count SHUTDOWN_BYTE = _
  by_cases htick : s.countdown = 0
  · rw [if_pos htick, f.count_consoleBytes_append, hquiet _ (printsAt_report _ _), Nat.zero_add,
      count_receive]
    simp only [htick, true_and]
    rfl
  · rw [if_neg htick, if_neg (fun h => htick h.1)]
    rfl

/-- A request in `msg_in`. -/
def Msg.asks (m : Msg) : Nat := if m.powerDwn = 0 then 0 else 1

theorem Msg.asks_le (m : Msg) : m.asks ≤ 1 := by
  rw [asks]
  split
  · exact Nat.zero_le 1
  · exact Nat.le_refl 1

/-- Receiving nothing keeps the request or turns it into a line. -/
theorem asks_receive_none (msgIn : Msg) (powered : Bool) :
    (if msgIn.powerDwn ≠ 0 ∧ powered = false then 1 else 0)
      + (receive msgIn powered none).1.asks = msgIn.asks := by
  rw [receive_none]
  by_cases h : msgIn.powerDwn ≠ 0 ∧ powered = false
  · rw [if_pos h, if_pos h, Msg.asks, Msg.asks, if_neg h.1]
    rfl
  · rw [if_neg h, if_neg h, Nat.zero_add]

namespace Rp2040

variable {mcu : Rp2040} {t : Traffic}

/-- What an iteration takes from the queue, and what it leaves there. -/
theorem dequeue_spec (hq : mcu.msgq.waiter = .absent) :
    ((mcu.dequeue t).1.toList ++ (mcu.dequeue t).2.items).Sublist
        (mcu.items ++ t.before ++ t.during) ∧
      (mcu.dequeue t).2.waiter = .absent ∧
      (mcu.items ++ t.before ++ t.during ≠ [] →
        if mcu.loop.countdown = 0 then (mcu.dequeue t).1 ≠ none
        else (mcu.dequeue t).2.items ≠ []) ∧
      (mcu.loop.countdown ≠ 0 → (mcu.dequeue t).1 = none) := by
  have hne := MsgQueue.not_waiting hq
  have habsent := MsgQueue.waiter_foldl_putPurge hne t.before
  rw [hq] at habsent
  obtain ⟨hearly, hearly'⟩ := MsgQueue.items_foldl_putPurge hq t.before
  rw [dequeue]
  by_cases htick : mcu.loop.countdown = 0
  · obtain ⟨hsub, hwaiter, hsome⟩ := MsgQueue.get_spec habsent t.during
    rw [if_pos htick, if_pos htick]
    refine ⟨hsub.trans (hearly.append (List.Sublist.refl _)), hwaiter, fun hany => hsome ?_,
      fun h => absurd htick h⟩
    intro hnil
    obtain ⟨hitems, hduring⟩ := List.append_eq_nil_iff.mp hnil
    rw [hduring, List.append_nil] at hany
    exact hearly' hany hitems
  · obtain ⟨hsub, hsome⟩ := MsgQueue.items_foldl_putPurge habsent t.during
    rw [if_neg htick, if_neg htick]
    refine ⟨hsub.trans (hearly.append (List.Sublist.refl _)), ?_, fun hany => hsome ?_,
      fun _ => rfl⟩
    · show (t.during.foldl MsgQueue.putPurge (t.before.foldl MsgQueue.putPurge mcu.msgq)).waiter
        = .absent
      rw [MsgQueue.waiter_foldl_putPurge (MsgQueue.not_waiting habsent), habsent]
    · intro hnil
      obtain ⟨hitems, hduring⟩ := List.append_eq_nil_iff.mp hnil
      rw [hduring, List.append_nil] at hany
      exact hearly' hany hitems

/-- A request is pending: in `msg_in` or in the queue. -/
def Pending (mcu : Rp2040) : Prop := mcu.loop.msgIn.powerDwn ≠ 0 ∨ mcu.items ≠ []

/-- How often an iteration writes the byte. -/
def lines (mcu : Rp2040) (t : Traffic) : Nat :=
  if mcu.loop.countdown = 0 ∧ (mcu.inputs t).received = none ∧ mcu.loop.msgIn.powerDwn ≠ 0 ∧
    t.inputs.vinDetect = false then 1 else 0

theorem lines_eq : mcu.lines t
    = if mcu.loop.countdown = 0 ∧ (mcu.dequeue t).1 = none ∧ mcu.loop.msgIn.powerDwn ≠ 0 ∧
        t.inputs.vinDetect = false then 1 else 0 := rfl

theorem items_step : (mcu.step t).items = (mcu.dequeue t).2.items := rfl

theorem msgIn_step : (mcu.step t).loop.msgIn
    = if mcu.loop.countdown = 0 then
        (receive mcu.loop.msgIn t.inputs.vinDetect (mcu.dequeue t).1).1
      else mcu.loop.msgIn := Buckboost.iterate_msgIn _ _

/-- The accounts of one iteration: a request that is in `msg_in`, in the queue or new is
printed, kept or lost, and not printed twice. -/
theorem lines_add_le (hq : mcu.msgq.waiter = .absent) :
    mcu.lines t + (mcu.step t).loop.msgIn.asks + (mcu.step t).items.length
      ≤ mcu.loop.msgIn.asks + mcu.items.length + t.before.length + t.during.length := by
  obtain ⟨hsub, -, -, hnone⟩ := mcu.dequeue_spec (t := t) hq
  have hlen := hsub.length_le
  rw [List.length_append, List.length_append, List.length_append] at hlen
  show _ + _ + (mcu.dequeue t).2.items.length ≤ _
  rw [lines_eq, msgIn_step]
  by_cases htick : mcu.loop.countdown = 0
  · rw [if_pos htick]
    cases hr : (mcu.dequeue t).1 with
    | some img =>
      have hasks := (Msg.ofImage img).asks_le
      have hreceive : (receive mcu.loop.msgIn t.inputs.vinDetect (some img)).1
        = Msg.ofImage img := rfl
      rw [hr] at hlen
      rw [if_neg (fun h => by cases h.2.1), hreceive]
      simp only [Option.toList_some, List.length_singleton] at hlen
      omega
    | none =>
      have hasks := asks_receive_none mcu.loop.msgIn t.inputs.vinDetect
      simp only [htick, true_and]
      omega
  · rw [if_neg (fun h => htick h.1), if_neg htick]
    omega

/-- What an iteration takes out of the queue was in it, or is new. -/
theorem mem_of_dequeue (hq : mcu.msgq.waiter = .absent) {img : Image}
    (himg : (mcu.dequeue t).1 = some img) : img ∈ mcu.items ++ t.before ++ t.during := by
  refine (dequeue_spec hq).1.subset (List.mem_append_left _ ?_)
  rw [himg]
  exact List.mem_singleton_self img

/-- A request does not get lost altogether: it is printed, or a request is pending. -/
theorem pending_step (hq : mcu.msgq.waiter = .absent)
    (hreq : ∀ img ∈ mcu.items ++ t.before ++ t.during, (Msg.ofImage img).powerDwn ≠ 0)
    (hany : mcu.Pending ∨ t.before ++ t.during ≠ []) :
    0 < mcu.lines t ∨ (mcu.step t).Pending := by
  obtain ⟨-, -, hsome, hnone⟩ := dequeue_spec (t := t) hq
  have hqueue : (mcu.items ++ t.before ++ t.during ≠ []) ∨
      mcu.loop.msgIn.powerDwn ≠ 0 := by
    rcases hany with (hmsg | hitems) | hnew
    · exact Or.inr hmsg
    · exact Or.inl (by simp [hitems])
    · exact Or.inl (by rw [List.append_assoc]; exact List.append_ne_nil_of_right_ne_nil _ hnew)
  rw [Pending, msgIn_step]
  by_cases htick : mcu.loop.countdown = 0
  · rw [if_pos htick]
    cases hr : (mcu.dequeue t).1 with
    | some img => exact Or.inr (Or.inl (hreq img (mem_of_dequeue hq hr)))
    | none =>
      -- The queue is empty, so it is the request in `msg_in`.
      have hmsg : mcu.loop.msgIn.powerDwn ≠ 0 := by
        refine hqueue.resolve_left fun hne => ?_
        have hgot := hsome hne
        rw [if_pos htick] at hgot
        exact hgot hr
      cases hp : t.inputs.vinDetect with
      | false =>
        rw [lines_eq, if_pos ⟨htick, hr, hmsg, hp⟩]
        exact Or.inl Nat.one_pos
      | true =>
        rw [receive_none, if_neg (fun h => by cases h.2)]
        exact Or.inr (Or.inl hmsg)
  · rw [if_neg htick]
    rcases hqueue with hne | hmsg
    · have hleft := hsome hne
      rw [if_neg htick] at hleft
      exact Or.inr (Or.inr hleft)
    · exact Or.inr (Or.inl hmsg)

/-- The number of iterations until a pending request is printed, when nothing new comes
and mains is absent. -/
def wait (mcu : Rp2040) : Nat :=
  mcu.loop.countdown.toNat + 1001 * mcu.items.length + 1

theorem countdown_step : (mcu.step t).loop.countdown
    = if mcu.loop.countdown = 0 then 1000 else mcu.loop.countdown - 1 :=
  Buckboost.iterate_countdown _ _

/-- An iteration to which nothing new comes prints a pending request, or gets closer to
that. -/
theorem wait_step (hq : mcu.msgq.waiter = .absent)
    (hreq : ∀ img ∈ mcu.items, (Msg.ofImage img).powerDwn ≠ 0)
    (hcount : 0 ≤ mcu.loop.countdown) (hbefore : t.before = []) (hduring : t.during = [])
    (hmains : t.inputs.vinDetect = false) (hpending : mcu.Pending) :
    0 < mcu.lines t ∨ ((mcu.step t).Pending ∧ (mcu.step t).wait < mcu.wait) := by
  have hreq' : ∀ img ∈ mcu.items ++ t.before ++ t.during,
      (Msg.ofImage img).powerDwn ≠ 0 := by
    rw [hbefore, hduring, List.append_nil, List.append_nil]
    exact hreq
  rcases pending_step hq hreq' (Or.inl hpending) with hline | hstill
  · exact Or.inl hline
  rw [wait, wait, items_step, countdown_step]
  by_cases htick : mcu.loop.countdown = 0
  · rw [if_pos htick, htick]
    have hget : mcu.dequeue t = mcu.msgq.get [] := by
      rw [dequeue, hbefore, hduring, if_pos htick]
      rfl
    cases hnow : mcu.msgq.items with
    | nil =>
      -- The tick finds an empty queue and prints.
      have hmsg : mcu.loop.msgIn.powerDwn ≠ 0 := hpending.resolve_right (fun h => h hnow)
      have hnone : (mcu.dequeue t).1 = none := by
        rw [hget]
        exact (MsgQueue.get_of_nil _ hnow).1
      rw [lines_eq, if_pos ⟨htick, hnone, hmsg, hmains⟩]
      exact Or.inl Nat.one_pos
    | cons img imgs =>
      have hrest : (mcu.dequeue t).2.items = imgs := by
        rw [hget]
        exact (MsgQueue.get_of_cons _ hnow).2
      have hlen : mcu.items.length = imgs.length + 1 := by
        rw [items, hnow, List.length_cons]
      refine Or.inr ⟨hstill, ?_⟩
      rw [hrest, hlen]
      show 1000 + 1001 * imgs.length + 1 < 0 + 1001 * (imgs.length + 1) + 1
      omega
  · have hsame : (mcu.dequeue t).2.items = mcu.items := by
      rw [dequeue, hbefore, hduring, if_neg htick]
      rfl
    refine Or.inr ⟨hstill, ?_⟩
    rw [if_neg htick, hsame]
    omega

end Rp2040

/-! ### The receiver and its queue -/

/-- What is in the queue does not matter to the decoding. -/
theorem receiveByte_setQueue {cap : ℕ+} (p : SerialPort cap) (q : MsgQueue Image cap)
    (c : UInt8) :
    receiveByte { p with msgq := q } c
      = (receiveByte p c).map fun r =>
          ({ r.1 with msgq := r.2.foldl MsgQueue.putPurge q }, r.2) := by
  rw [receiveByte, receiveByte, serialCbByte, serialCbByte]
  split
  · -- Both queues take the message, each with its own purges.
    rw [Option.map_map, Option.map_map, Option.map_map]
    refine congrArg (fun f => Option.map f _) (funext fun r => ?_)
    have hput : ∀ q' : MsgQueue Image cap,
        handedOver (.decoded r.1 :: (q'.putLoop r.1).2.map .queue) = [r.1] :=
      fun q' => handedOver_completes q' r.1
    simp only [Function.comp_apply, hput]
    rfl
  · split
    · split
      · rfl
      · rfl
    · rfl

theorem runLog_receiveByte_setQueue {cap : ℕ+} (p : SerialPort cap) (q : MsgQueue Image cap)
    (cs : List UInt8) :
    runLog receiveByte { p with msgq := q } cs
      = (runLog receiveByte p cs).map fun r =>
          ({ r.1 with msgq := r.2.foldl MsgQueue.putPurge q }, r.2) := by
  induction cs generalizing p q with
  | nil => rfl
  | cons c cs ih =>
    rw [runLog_cons, runLog_cons, receiveByte_setQueue]
    cases receiveByte p c with
    | none => rfl
    | some r =>
      simp only [Option.map_some, Option.bind_some]
      rw [ih]
      cases runLog receiveByte r.1 cs with
      | none => rfl
      | some r' => simp [List.foldl_append]

/-- A receiver with these contents of `rx_buf` decodes these messages, whatever is in its
queue. -/
theorem runLog_of_sameBuffer {cap : ℕ+} {p p' r : SerialPort cap}
    (hsame : p' = { p with msgq := p'.msgq }) {cs : List UInt8} {ms : List Image}
    (hrun : runLog receiveByte p cs = some (r, ms)) :
    ∃ r', runLog receiveByte p' cs = some (r', ms) ∧ r' = { r with msgq := r'.msgq } := by
  rw [hsame, runLog_receiveByte_setQueue, hrun]
  exact ⟨_, rfl, rfl⟩

namespace Esp32

/-- Every request asks for power-down. -/
theorem asks_of_mem_requestsBefore {passes : Nat → Pass} {n : Nat} {img : Image}
    (himg : img ∈ requestsBefore passes n) : (Msg.ofImage img).powerDwn ≠ 0 := by
  obtain ⟨k, -, himg⟩ := List.mem_flatMap.mp himg
  rw [requestAt] at himg
  split at himg
  · rw [List.mem_singleton.mp himg, Msg.ofImage_image]
    decide
  · cases himg

/-- A hold of the button ends in pass `n`: the sample is pressed, and the unbroken run of
pressed samples has a multiple of eleven. -/
def HoldEnds (passes : Nat → Pass) (n : Nat) : Prop :=
  (passes n).Pressed ∧ 11 ∣ holdLength passes n

instance (passes : Nat → Pass) : DecidablePred (HoldEnds passes) :=
  fun n => inferInstanceAs (Decidable ((passes n).Pressed ∧ 11 ∣ holdLength passes n))

/-- There is one request for every hold. -/
theorem length_requestsBefore (passes : Nat → Pass) (n : Nat) :
    (requestsBefore passes n).length = Nat.count (HoldEnds passes) n := by
  induction n with
  | zero => rfl
  | succ n ih =>
    rw [requestsBefore_succ, List.length_append, ih, Nat.count_succ, requestAt]
    show _ + _ = _ + if (passes n).Pressed ∧ 11 ∣ holdLength passes n then 1 else 0
    split
    · rfl
    · rfl

/-- Bytes that the ESP32 has sent are decoded to requests, in order. -/
theorem decoded_of_isPrefix (pb : Int) (passes : Nat → Pass) (n : Nat) {cs : List UInt8}
    (hcs : cs <+: sentBefore pb passes n) :
    ∃ p ms, runLog receiveByte (SerialPort.powerUp (MsgQueue.empty : MsgQueue Image 2)) cs
        = some (p, ms) ∧ ms <+: requestsBefore passes n ∧
      (cs = sentBefore pb passes n → ms = requestsBefore passes n) := by
  obtain ⟨p', hall, -⟩ := ready_sentBefore pb passes
    (ready_powerUp (MsgQueue.empty : MsgQueue Image 2)) n
  exact runLog_of_isPrefix receiveByte hall hcs

end Esp32

end UpsFirmware
