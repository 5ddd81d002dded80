import Mathlib.Data.List.Induction
import UpsFirmware.Link.SerialCb

/-!
# `UpsFirmware.Link.Bounds`: where the receiver touches `rx_buf`

`serial_cb` checks that a packet is long enough, and nothing checks that it is
short enough. This file says exactly which byte streams keep every access of the
receiver inside `rx_buf`.

`accesses` lists the indices of `rx_buf` that a stream makes the receiver store
to or decode at, an index past the end included. `StaysInside` is the condition:
fewer than 32 non-zero bytes have come since the last complete packet whenever
another one comes, and at each complete packet the offsets, followed from index
0, lead to a zero inside `rx_buf`. The second part depends on what earlier
packets left behind the position, since the delimiter is not stored.

`runLog_isSome_iff_staysInside` is the run lemma. `serialCb_bounds_iff` states the
bounds on every interrupt sequence.
-/

set_option autoImplicit false

namespace UpsFirmware

open Lib Lib.Stuffing

variable {cap : ℕ+}

/-! ### The position, read off the stream -/

/-- Non-zero bytes since the last complete packet, one more byte later. -/
def openBytesStep (n : Nat) (c : UInt8) : Nat :=
  if c = 0 then (if sizeofMsg < n then 0 else n) else n + 1

/-- Non-zero bytes of the stream since its last complete packet. -/
def openBytes (bs : List UInt8) : Nat := bs.foldl openBytesStep 0

theorem openBytes_concat (bs : List UInt8) (c : UInt8) :
    openBytes (bs ++ [c]) = openBytesStep (openBytes bs) c := by
  simp [openBytes, List.foldl_append]

theorem rxBufPos_of_serialCbByte {p p' : SerialPort cap} {c : UInt8} {out : List LinkEvent}
    (h : serialCbByte p c = some (p', out)) :
    p'.rxBufPos = openBytesStep p.rxBufPos c := by
  rw [serialCbByte] at h
  split at h
  · -- a complete packet
    rename_i hc
    obtain ⟨r, _, heq⟩ := Option.map_eq_some_iff.mp h
    cases heq
    rw [openBytesStep, if_pos hc.1, if_pos hc.2]
  · rename_i hc
    split at h
    · -- a stored byte, or an overflow
      rename_i hne
      split at h
      · cases h
        rw [openBytesStep, if_neg hne]
      · cases h
    · -- an early zero
      rename_i hz
      cases h
      have hz : c = 0 := Decidable.of_not_not hz
      rw [openBytesStep, if_pos hz, if_neg (fun hlt => hc ⟨hz, hlt⟩)]

/-- `rx_buf_pos` counts the open bytes of the stream. -/
theorem rxBufPos_eq_openBytes (q : MsgQueue Image cap) (bs : List UInt8)
    {p : SerialPort cap} {log : List LinkEvent}
    (h : runLog serialCbByte (SerialPort.powerUp q) bs = some (p, log)) :
    p.rxBufPos = openBytes bs := by
  induction bs using List.reverseRecOn generalizing p log with
  | nil =>
    cases h
    rfl
  | append_singleton bs c ih =>
    -- Both sides take one step for the last byte.
    rw [runLog_append] at h
    obtain ⟨r, hr, h⟩ := Option.bind_eq_some_iff.mp h
    obtain ⟨r', hr', heq⟩ := Option.map_eq_some_iff.mp h
    cases heq
    rw [runLog_singleton] at hr'
    rw [rxBufPos_of_serialCbByte hr', ih hr, openBytes_concat]

/-- The position never passes the end of `rx_buf`. -/
theorem rxBufPos_le_of_serialCbByte {p p' : SerialPort cap} {c : UInt8} {out : List LinkEvent}
    (hp : p.rxBufPos ≤ MSG_SIZE) (h : serialCbByte p c = some (p', out)) :
    p'.rxBufPos ≤ MSG_SIZE := by
  rw [rxBufPos_of_serialCbByte h, openBytesStep]
  by_cases hc : c = 0
  · rw [if_pos hc]
    split <;> omega
  · rw [if_neg hc]
    -- A non-zero byte is stored, so the position was inside the buffer.
    refine Nat.lt_of_not_le fun hle => ?_
    rw [serialCbByte_overflow p hc hle] at h
    cases h

theorem rxBufPos_le_MSG_SIZE (q : MsgQueue Image cap) (bs : List UInt8)
    {p : SerialPort cap} {log : List LinkEvent}
    (h : runLog serialCbByte (SerialPort.powerUp q) bs = some (p, log)) :
    p.rxBufPos ≤ MSG_SIZE :=
  runLog_invariant serialCbByte
    (I := fun p => p.rxBufPos ≤ MSG_SIZE)
    (fun _ _ _ _ hp hstep => rxBufPos_le_of_serialCbByte hp hstep)
    _ bs (Nat.zero_le _) h

/-! ### The indices a stream touches -/

/-- The indices of `rx_buf` that one turn stores to, or that the decoder reads
and writes along its chain. -/
def touched (p : SerialPort cap) (c : UInt8) : List Nat :=
  if c = 0 ∧ sizeofMsg < p.rxBufPos then msgCobsDecode.visited p.rxBuf 0
  else if c ≠ 0 then [p.rxBufPos]
  else []

/-- The indices a stream touches, up to and including the first one outside. -/
def accesses (p : SerialPort cap) : List UInt8 → List Nat
  | [] => []
  | c :: cs =>
      touched p c ++
        match serialCbByte p c with
        | none => []
        | some r => accesses r.1 cs

/-- A turn succeeds exactly when every index it touches is inside `rx_buf`. -/
theorem touched_lt_iff (p : SerialPort cap) (c : UInt8) :
    (∀ i ∈ touched p c, i < MSG_SIZE) ↔ (serialCbByte p c).isSome := by
  by_cases hc : c = 0
  · subst hc
    by_cases hpos : sizeofMsg < p.rxBufPos
    · rw [touched, if_pos ⟨rfl, hpos⟩, serialCbByte_complete p hpos, Option.isSome_map,
        msgCobsDecode, Option.isSome_map]
      exact msgCobsDecode_visited_lt_iff p.rxBuf 0
    · rw [touched, if_neg (fun h => hpos h.2), if_neg (by simp),
        serialCbByte_ignore p (by omega)]
      simp
  · rw [touched, if_neg (fun h => hc h.1), if_pos hc]
    simp only [List.mem_singleton, forall_eq]
    by_cases hpos : p.rxBufPos < MSG_SIZE
    · rw [serialCbByte_store p hc hpos]
      exact ⟨fun _ => rfl, fun _ => hpos⟩
    · rw [serialCbByte_overflow p hc (by omega)]
      exact ⟨fun h => absurd h hpos, fun h => by cases h⟩

/-- A stream is received to its end exactly when every index it touches is
inside `rx_buf`. -/
theorem accesses_lt_iff : ∀ (bs : List UInt8) (p : SerialPort cap),
    (∀ i ∈ accesses p bs, i < MSG_SIZE) ↔ (runLog serialCbByte p bs).isSome := by
  intro bs
  induction bs with
  | nil => intro p; simp [accesses]
  | cons c cs ih =>
    intro p
    rw [accesses, runLog_cons, List.forall_mem_append, touched_lt_iff]
    cases serialCbByte p c with
    | none => simp
    | some r => simp [ih r.1]

/-! ### The condition on the stream -/

/-- What a byte needs: room for a non-zero byte, and a closed chain of offsets
for a zero that completes a packet. The open bytes are counted in the stream; the
chain is read off the state before the byte. -/
def StaysInside (q : MsgQueue Image cap) (bs : List UInt8) : Prop :=
  ∀ pre c post, bs = pre ++ c :: post →
    (c ≠ 0 → openBytes pre < MSG_SIZE) ∧
    (c = 0 → sizeofMsg < openBytes pre → ∀ p log,
      runLog serialCbByte (SerialPort.powerUp q) pre = some (p, log) →
      ∃ z, Hops p.rxBuf.toList 0 z ∧ p.rxBuf.toList[z]? = some 0)

/-- One byte of the condition, at a state the receiver reached. -/
theorem serialCbByte_isSome_iff (p : SerialPort cap) (c : UInt8) :
    (serialCbByte p c).isSome ↔
      (c ≠ 0 → p.rxBufPos < MSG_SIZE) ∧
      (c = 0 → sizeofMsg < p.rxBufPos →
        ∃ z, Hops p.rxBuf.toList 0 z ∧ p.rxBuf.toList[z]? = some 0) := by
  rw [← touched_lt_iff]
  by_cases hc : c = 0
  · subst hc
    by_cases hpos : sizeofMsg < p.rxBufPos
    · -- The decoder stays inside exactly when its chain reaches a zero.
      rw [touched, if_pos ⟨rfl, hpos⟩]
      have hiff := (msgCobsDecode_visited_lt_iff p.rxBuf 0).trans
        (msgCobsDecode_loop_isSome_iff p.rxBuf)
      exact ⟨fun h => ⟨fun h0 => absurd rfl h0, fun _ _ => hiff.mp h⟩,
        fun h => hiff.mpr (h.2 rfl hpos)⟩
    · rw [touched, if_neg (fun h => hpos h.2), if_neg (by simp)]
      simp [hpos]
  · rw [touched, if_neg (fun h => hc h.1), if_pos hc]
    simp [hc]

/-- The receiver gets through a stream exactly when the stream keeps it
inside. -/
theorem runLog_isSome_iff_staysInside (q : MsgQueue Image cap) (bs : List UInt8) :
    (runLog serialCbByte (SerialPort.powerUp q) bs).isSome ↔ StaysInside q bs := by
  induction bs using List.reverseRecOn with
  | nil =>
    refine ⟨fun _ pre c post h => ?_, fun _ => rfl⟩
    simp at h
  | append_singleton bs c ih =>
    -- The run over `bs ++ [c]` is the run over `bs` and one turn.
    have hsplit : (runLog serialCbByte (SerialPort.powerUp q) (bs ++ [c])).isSome ↔
        ∃ p log, runLog serialCbByte (SerialPort.powerUp q) bs = some (p, log) ∧
          (serialCbByte p c).isSome := by
      rw [runLog_append]
      cases hrun : runLog serialCbByte (SerialPort.powerUp q) bs with
      | none => simp
      | some r =>
        rw [Option.bind_some, Option.isSome_map, runLog_singleton]
        exact ⟨fun h => ⟨r.1, r.2, rfl, h⟩, fun ⟨_, _, heq, h⟩ => by cases heq; exact h⟩
    rw [hsplit]
    constructor
    · rintro ⟨p, log, hrun, hc⟩ pre c' post heq
      have hbs : StaysInside q bs := ih.mp (by rw [hrun]; rfl)
      rcases List.eq_nil_or_concat post with rfl | ⟨post', d, rfl⟩
      · -- The byte is the last one.
        obtain ⟨rfl, hlast⟩ := List.append_inj' heq rfl
        cases hlast
        have hcond := (serialCbByte_isSome_iff p c).mp hc
        rw [rxBufPos_eq_openBytes q bs hrun] at hcond
        refine ⟨hcond.1, fun h0 hopen p' log' hrun' => ?_⟩
        rw [hrun] at hrun'
        cases hrun'
        exact hcond.2 h0 hopen
      · -- The byte is one of `bs`.
        rw [List.concat_eq_append, ← List.cons_append, ← List.append_assoc] at heq
        obtain ⟨rfl, -⟩ := List.append_inj' heq rfl
        exact hbs pre c' post' rfl
    · intro hinside
      have hbs : StaysInside q bs := fun pre c' post heq =>
        hinside pre c' (post ++ [c]) (by rw [heq]; simp)
      obtain ⟨⟨p, log⟩, hrun⟩ := Option.isSome_iff_exists.mp (ih.mpr hbs)
      refine ⟨p, log, hrun, (serialCbByte_isSome_iff p c).mpr ?_⟩
      rw [rxBufPos_eq_openBytes q bs hrun]
      obtain ⟨hroom, hchain⟩ := hinside bs c [] rfl
      exact ⟨hroom, fun h0 hopen => hchain h0 hopen p log hrun⟩

/-! ### The bounds -/

/-- The bounds of the receiver on a stream: every index stored to or followed by
the decoder is in `rx_buf`, and after every part of the stream the receiver is in
some state, with its position in range. -/
def RxBounded (q : MsgQueue Image cap) (bs : List UInt8) : Prop :=
  (∀ i ∈ accesses (SerialPort.powerUp q) bs, i < MSG_SIZE) ∧
  ∀ pre, pre <+: bs → ∃ p log,
    runLog serialCbByte (SerialPort.powerUp q) pre = some (p, log) ∧ p.rxBufPos ≤ MSG_SIZE

theorem rxBounded_iff_isSome (q : MsgQueue Image cap) (bs : List UInt8) :
    RxBounded q bs ↔ (runLog serialCbByte (SerialPort.powerUp q) bs).isSome := by
  constructor
  · rintro ⟨hacc, -⟩
    exact (accesses_lt_iff bs _).mp hacc
  · intro hsome
    refine ⟨(accesses_lt_iff bs _).mpr hsome, ?_⟩
    rintro pre ⟨post, rfl⟩
    obtain ⟨r, hr⟩ := Option.isSome_iff_exists.mp hsome
    obtain ⟨⟨p, log⟩, hpre⟩ := runLog_of_append serialCbByte hr
    exact ⟨p, log, hpre, rxBufPos_le_MSG_SIZE q pre hpre⟩

/-- The receiver's accesses stay inside `rx_buf`, for a byte stream split over
interrupts in any way, exactly when the stream satisfies `StaysInside`. -/
theorem serialCb_bounds_iff (q : MsgQueue Image cap) (irqs : List Interrupt) :
    RxBounded q (irqs.flatMap Interrupt.bytes) ∧
        (runLog serialCb (SerialPort.powerUp q) irqs).isSome ↔
      StaysInside q (irqs.flatMap Interrupt.bytes) := by
  rw [runLog_serialCb, rxBounded_iff_isSome, and_self, runLog_isSome_iff_staysInside]

/-- Thirty-three non-zero bytes in a row are stored up to index 32, one past the
end of `rx_buf`. -/
theorem serialCb_bounds_overflow :
    ¬ ∀ irqs : List Interrupt,
      RxBounded (MsgQueue.empty : MsgQueue Image 2) (irqs.flatMap Interrupt.bytes) := by
  intro h
  have hrun := (rxBounded_iff_isSome _ _).mp (h [⟨true, true, List.replicate 33 1⟩])
  have hstore := (runLog_isSome_iff_staysInside _ _).mp hrun (List.replicate 32 1) 1 [] rfl
  exact absurd (hstore.1 (by decide)) (by decide)

end UpsFirmware
