import UpsFirmware.Rp2040.Buckboost

/-!
# `UpsFirmware.Rp2040.PowerDown`: who is told to shut down, and when

The STM32 disconnects the pack when it reads the byte `@` on the RP2040's console.
The only line of the loop with that byte is printed in a telemetry tick, behind
`k_msgq_get` (`prints_iff`). `Rp2040` is the loop together with the queue that
`serial_cb` feeds. `Traffic` says when the messages of the other MCU arrive.

`PowerDownLaw` is what the line is for: a tick prints it exactly when the tick's
own `k_msgq_get` delivered a request and mains is absent. The source tests
`ret != 0`, so a tick looks at `msg_in` exactly when `k_msgq_get` failed, and
what it looks at is the message delivered last, at whatever tick that was.
`powerDownLaw_iff` says in which runs that does not show.
-/

set_option autoImplicit false

namespace UpsFirmware

open Lib

/-! ### The byte that shuts down -/

/-- An argument prints the byte `@`. -/
def PrintArg.printsAt : PrintArg → Bool
  | .str s => s.toList.contains '@'
  | _ => false

/-- The console line of an effect contains the byte `@`. -/
def Effect.printsAt : Effect → Bool
  | .printk fmt args => fmt.toList.contains '@' || args.any PrintArg.printsAt
  | _ => false

/-- Sampling and checking do not print it. -/
theorem printsAt_sense (s : Buckboost) (inp : Inputs) :
    ∀ e ∈ (s.sense inp).2, e.printsAt = false := by
  intro e he
  rcases List.mem_append.mp he with he | he
  · obtain ⟨err, rfl⟩ := Adc.printk_of_mem_sampleAll inp.reads e he
    rfl
  · rcases HwErrors.mem_check he with ⟨led, -, value, rfl⟩ | ⟨text, htext, rfl⟩
    · rfl
    · simp only [List.mem_cons, List.not_mem_nil, or_false] at htext
      rcases htext with rfl | rfl | rfl
      all_goals rfl

/-- Reporting does not print it. -/
theorem printsAt_report (s : Buckboost) (tail : UInt8) :
    ∀ e ∈ (s.report tail).2, e.printsAt = false := by
  intro e he
  rcases List.mem_append.mp he with he | he
  · simp only [printVoltages, List.mem_cons, List.not_mem_nil, or_false] at he
    rcases he with rfl | rfl | rfl | rfl | rfl
    all_goals rfl
  · obtain ⟨b, -, rfl⟩ := List.mem_map.mp he
    rfl

/-- The modes do not print it. -/
theorem printsAt_mode (s : Buckboost) (errors : UInt8) (powered : Bool) (cycles : UInt32) :
    ∀ e ∈ (s.mode errors powered cycles).2, e.printsAt = false := by
  refine Buckboost.mode_induction s cycles (P := fun r => ∀ e ∈ r.2, e.printsAt = false) ?_ ?_ ?_
  · intro _ _
    simp only [Buckboost.buck, Buckboost.enterBuck]
    split
    · simp [Effect.printsAt]
    · simp [Effect.printsAt]
  · intro _ _
    simp only [Buckboost.boost, Buckboost.enterBoost]
    split
    · simp [Effect.printsAt, CONFIG_FORCE_PACK]
    · simp [Effect.printsAt]
  · intro _
    simp only [Buckboost.error, Buckboost.enterError]
    split
    · simp [Effect.printsAt]
    · simp [Effect.printsAt]

/-- A tick's receive when `k_msgq_get` fails. -/
theorem receive_none (msgIn : Msg) (powered : Bool) :
    (receive msgIn powered none).1
      = if msgIn.powerDwn ≠ 0 ∧ powered = false then { msgIn with powerDwn := 0 }
        else msgIn := by
  by_cases h : msgIn.powerDwn ≠ 0 ∧ powered = false
  · simp [receive, kMsgqGet, EAGAIN, h]
  · simp [receive, kMsgqGet, EAGAIN, h]

/-- When a tick's receive prints the line. -/
theorem prints_receive_iff (msgIn : Msg) (powered : Bool) (received : Option Image) :
    (∃ e ∈ (receive msgIn powered received).2, e.printsAt = true) ↔
      received = none ∧ msgIn.powerDwn ≠ 0 ∧ powered = false := by
  cases received with
  | some img => simp [receive, kMsgqGet]
  | none =>
    by_cases h : msgIn.powerDwn ≠ 0 ∧ powered = false
    · simp [receive, kMsgqGet, EAGAIN, h, Effect.printsAt]
    · simp [receive, kMsgqGet, EAGAIN, h]

/-- When a telemetry block prints the byte: in a tick that receives nothing, with a
request in `msg_in` and mains absent. -/
theorem prints_telemetry_iff (s : Buckboost) (powered : Bool) (inp : Inputs) :
    (∃ e ∈ (s.telemetry powered inp).2, e.printsAt = true) ↔
      s.countdown = 0 ∧ inp.received = none ∧ s.msgIn.powerDwn ≠ 0 ∧ powered = false := by
  rw [Buckboost.telemetry_snd]
  by_cases htick : s.countdown = 0
  · rw [if_pos htick, ← prints_receive_iff]
    constructor
    · rintro ⟨e, he, hat⟩
      rcases List.mem_append.mp he with he | he
      · rw [printsAt_report s inp.tail e he] at hat
        cases hat
      · exact ⟨htick, e, he, hat⟩
    · rintro ⟨-, e, he, hat⟩
      exact ⟨e, List.mem_append_right _ he, hat⟩
  · rw [if_neg htick]
    simp [htick]

/-- The rest of an iteration does not print it. -/
theorem prints_iff (s : Buckboost) (inp : Inputs) :
    (∃ e ∈ (s.iterate inp).2, e.printsAt = true) ↔
      s.countdown = 0 ∧ inp.received = none ∧ s.msgIn.powerDwn ≠ 0 ∧
        inp.vinDetect = false := by
  have htelemetry := prints_telemetry_iff (s.sense inp).1 inp.vinDetect inp
  refine Iff.trans ?_ htelemetry
  show (∃ e ∈ (s.sense inp).2 ++ _ ++ _, e.printsAt = true) ↔ _
  constructor
  · rintro ⟨e, he, hat⟩
    -- Sampling and checking, the telemetry block, the mode.
    rcases List.mem_append.mp he with he | he
    · rcases List.mem_append.mp he with he | he
      · rw [printsAt_sense s inp e he] at hat
        cases hat
      · exact ⟨e, he, hat⟩
    · rw [printsAt_mode _ _ _ _ e he] at hat
      cases hat
  · rintro ⟨e, he, hat⟩
    exact ⟨e, List.mem_append_left _ (List.mem_append_right _ he), hat⟩

/-! ### The loop and its queue -/

/-- One iteration with the messages that `serial_cb` puts into the queue: those it
puts before the telemetry block, and those it puts from there on. A `k_msgq_get`
that finds the queue empty waits for one of the latter. Interrupts change the queue
in no other way (`serialCbByte_cases`). -/
structure Traffic where
  inputs : Inputs
  before : List Image
  during : List Image

/-- The RP2040: the loop and `msgq`. -/
structure Rp2040 where
  loop : Buckboost
  msgq : MsgQueue Image 2

namespace Rp2040

/-- What the queue gives in an iteration, and the queue after it. Only a tick calls
`k_msgq_get`. -/
def dequeue (s : Rp2040) (t : Traffic) : Option Image × MsgQueue Image 2 :=
  let q := t.before.foldl MsgQueue.putPurge s.msgq
  -- the same test as `if (!countdown--)`
  if s.loop.countdown = 0 then q.get t.during else (none, t.during.foldl MsgQueue.putPurge q)

/-- The inputs of an iteration, with what the queue gives. -/
def inputs (s : Rp2040) (t : Traffic) : Inputs :=
  { t.inputs with received := (s.dequeue t).1 }

def step (s : Rp2040) (t : Traffic) : Rp2040 where
  loop := (s.loop.iterate (s.inputs t)).1
  msgq := (s.dequeue t).2

/-- The capacity of `msgq`, and the messages in it. -/
abbrev MSGQ_SIZE : ℕ+ := 2

def items (s : Rp2040) : List Image := s.msgq.items

end Rp2040

section Runs

variable (b : BootInputs) (env : Nat → Traffic)

/-- The loop and the queue before iteration `n`. -/
def systemAt (n : Nat) : Rp2040 :=
  stateAt Rp2040.step ⟨Buckboost.boot b, MsgQueue.empty⟩ env n

/-- The inputs of iteration `n`, and the message its `k_msgq_get` delivers. -/
def inputsAt (n : Nat) : Inputs := (systemAt b env n).inputs (env n)

def receivedAt (n : Nat) : Option Image := ((systemAt b env n).dequeue (env n)).1

/-- The loop of the system runs on these inputs. -/
theorem systemAt_loop (n : Nat) : (systemAt b env n).loop = loopAt b (inputsAt b env) n := by
  induction n with
  | zero => rfl
  | succ n ih =>
    rw [loopAt_succ, ← ih]
    rfl

/-- Between ticks nothing is received. -/
theorem receivedAt_of_not_tick {n : Nat} (h : n % 1001 ≠ 0) : receivedAt b env n = none := by
  have hne : (systemAt b env n).loop.countdown ≠ 0 := by
    rw [systemAt_loop]
    exact fun h0 => h ((expired_iff b _ n).mp h0)
  rw [receivedAt, Rp2040.dequeue]
  simp only [if_neg hne]

/-- The byte is printed in iteration `n` exactly when the iteration is a tick, its
`k_msgq_get` delivered a message, the message requests power-down, and mains is
absent. -/
def PowerDownLaw (n : Nat) : Prop :=
  (∃ e ∈ effectsAt b (inputsAt b env) n, e.printsAt = true) ↔
    n % 1001 = 0 ∧ ∃ img, receivedAt b env n = some img ∧
      (Msg.ofImage img).powerDwn ≠ 0 ∧ (env n).inputs.vinDetect = false

/-- The message delivered last before iteration `n`. -/
def lastReceived : Nat → Option Image
  | 0 => none
  | n + 1 => (receivedAt b env n).orElse fun _ => lastReceived n

/-- If iteration `n` is a tick without mains, the message delivered last, in this
tick or before it, does not request power-down. -/
def NoRequest (n : Nat) : Prop :=
  n % 1001 = 0 → (env n).inputs.vinDetect = false →
    ∀ img, lastReceived b env (n + 1) = some img → (Msg.ofImage img).powerDwn = 0

/-- `msg_in` when it holds the last message delivered. -/
def msgOf : Option Image → Msg
  | none => ⟨0, 0, 0, 0, 0, 0, 0, 0⟩
  | some img => Msg.ofImage img

/-- The same, about `msg_in`. -/
theorem noRequest_iff (n : Nat) :
    NoRequest b env n ↔ (n % 1001 = 0 → (env n).inputs.vinDetect = false →
      (msgOf (lastReceived b env (n + 1))).powerDwn = 0) := by
  have hmsg : (∀ img, lastReceived b env (n + 1) = some img →
      (Msg.ofImage img).powerDwn = 0) ↔ (msgOf (lastReceived b env (n + 1))).powerDwn = 0 := by
    cases lastReceived b env (n + 1) with
    | none => exact iff_of_true nofun rfl
    | some img =>
      constructor
      · intro h
        exact h img rfl
      · rintro h img' heq
        cases heq
        exact h
  rw [NoRequest, hmsg]

/-- As long as no tick reaches a request, `msg_in` is the message delivered last. -/
theorem msgIn_loopAt {n : Nat} (h : ∀ k < n, NoRequest b env k) :
    (loopAt b (inputsAt b env) n).msgIn = msgOf (lastReceived b env n) := by
  induction n with
  | zero => rfl
  | succ n ih =>
    have hreq := (noRequest_iff b env n).mp (h n (by omega))
    rw [loopAt_succ, Buckboost.iterate_msgIn, ih fun k hk => h k (by omega)]
    show (if _ then (receive _ (env n).inputs.vinDetect (receivedAt b env n)).1 else _) = _
    rw [lastReceived] at hreq ⊢
    by_cases htick : n % 1001 = 0
    · rw [if_pos ((expired_iff b _ n).mpr htick)]
      cases hr : receivedAt b env n with
      | some img =>
        -- A delivery replaces `msg_in`, whatever it was.
        rfl
      | none =>
        -- Nothing new: `msg_in` stays, since it holds no request or mains is there.
        rw [hr] at hreq
        rw [receive_none, if_neg]
        · rfl
        · rintro ⟨hne, hp⟩
          exact hne (hreq htick hp)
    · rw [if_neg (fun h0 => htick ((expired_iff b _ n).mp h0)), receivedAt_of_not_tick b env htick]
      rfl

/-- One tick: with the message delivered last in `msg_in`, the law holds in it
exactly when the tick does not reach a request. -/
theorem powerDownLaw_tick_iff {n : Nat}
    (hmsg : (loopAt b (inputsAt b env) n).msgIn = msgOf (lastReceived b env n)) :
    PowerDownLaw b env n ↔ NoRequest b env n := by
  rw [noRequest_iff, PowerDownLaw, effectsAt, prints_iff, expired_iff, hmsg, lastReceived]
  show (n % 1001 = 0 ∧ receivedAt b env n = none ∧ _ ∧ (env n).inputs.vinDetect = false ↔ _) ↔ _
  by_cases htick : n % 1001 = 0
  · cases hp : (env n).inputs.vinDetect with
    | true => simp
    | false =>
      cases hr : receivedAt b env n with
      | none =>
        -- The code looks at the old message, the law asks for no line.
        simp [htick]
      | some img =>
        -- The code looks at nothing, the law asks for the line on a request.
        simp [htick, msgOf]
  · simp [htick]

/-- The law holds throughout a run exactly when, at every tick without mains, the
message delivered last, in that tick or before it, does not request power-down.
At any other tick without mains one of two things happens. Either the request is
that tick's own, and the line is not printed, or it is an earlier one, and the
line is printed. -/
theorem powerDownLaw_iff :
    (∀ n, PowerDownLaw b env n) ↔ ∀ n, NoRequest b env n := by
  constructor
  · intro hlaw n
    -- Up to the first tick that reaches a request, `msg_in` is what it should be.
    induction n using Nat.strong_induction_on with
    | h n ih => exact (powerDownLaw_tick_iff b env (msgIn_loopAt b env ih)).mp (hlaw n)
  · intro hreq n
    exact (powerDownLaw_tick_iff b env (msgIn_loopAt b env fun k _ => hreq k)).mpr (hreq n)

end Runs

/-! #### A request that waits for mains to fail -/

/-- A message that requests power-down. -/
def request : Image := (⟨0, 0, 0, 0, 0, 0, 0, 1⟩ : Msg).image 0

/-- The request is in the queue at the first tick, with mains present. Nothing else
arrives, and mains is absent from the second tick on. -/
def lateOutage (n : Nat) : Traffic where
  inputs := { benchInputs n with vinDetect := decide (n < 1001) }
  before := if n = 0 then [request] else []
  during := []

/-- The first tick takes the request out of the queue. -/
theorem receivedAt_lateOutage_zero :
    receivedAt benchBoot lateOutage 0 = some request ∧
      (systemAt benchBoot lateOutage 1).msgq.items = [] := by
  have hput : ((MsgQueue.empty : MsgQueue Image 2).putPurge request).items = [request] := by
    rw [MsgQueue.putPurge_of_lt _ _ (by decide)]
    rfl
  exact MsgQueue.get_of_cons _ hput

/-- A queue into which nothing is put stays empty, and gives nothing. -/
theorem dequeue_of_nil {s : Rp2040} {t : Traffic} (hq : s.msgq.items = [])
    (hb : t.before = []) (hd : t.during = []) :
    (s.dequeue t).1 = none ∧ (s.dequeue t).2.items = [] := by
  rw [Rp2040.dequeue, hb, hd]
  split
  · exact MsgQueue.get_of_nil s.msgq hq
  · exact ⟨rfl, hq⟩

/-- After the first tick the queue stays empty. -/
theorem items_lateOutage (n : Nat) :
    (systemAt benchBoot lateOutage (n + 1)).msgq.items = [] := by
  induction n with
  | zero => exact receivedAt_lateOutage_zero.2
  | succ n ih => exact (dequeue_of_nil ih rfl rfl).2

/-- So the request stays the message delivered last. -/
theorem lastReceived_lateOutage (n : Nat) :
    lastReceived benchBoot lateOutage (n + 1) = some request := by
  induction n with
  | zero =>
    rw [lastReceived, receivedAt_lateOutage_zero.1]
    rfl
  | succ n ih =>
    have hnone : receivedAt benchBoot lateOutage (n + 1) = none :=
      (dequeue_of_nil (items_lateOutage n) rfl rfl).1
    rw [lastReceived, hnone]
    exact ih

/-- The second tick finds the queue empty and prints the line, for a request that was
delivered a tick before, while mains was present. -/
theorem powerDownLaw_fails : ¬ ∀ b env n, PowerDownLaw b env n := by
  intro hall
  have hquiet : ∀ k < 1001, NoRequest benchBoot lateOutage k := by
    intro k hk _ hp
    rw [lateOutage, decide_eq_true hk] at hp
    cases hp
  have hlaw := (powerDownLaw_tick_iff _ _ (msgIn_loopAt _ _ hquiet)).mp
    (hall benchBoot lateOutage 1001)
  have hzero := hlaw rfl rfl request (lastReceived_lateOutage 1001)
  exact absurd hzero (by decide)

end UpsFirmware
