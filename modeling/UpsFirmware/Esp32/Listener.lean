import Mathlib.Logic.Function.Basic
import UpsFirmware.Lib.Ownership
import UpsFirmware.Lib.Runs

/-!
# `UpsFirmware.Esp32.Listener`: the connections of the web server

`process_tcp4` (`esp32-app/src/http.c`) accepts connections and stores the descriptor of
each one in a free slot of `tcp4_accepted`, for the handler thread that it creates there.
The handler reads its slot, receives, answers, closes the descriptor and writes -1 to the
slot. There is no lock, so `step` is one access to what the threads share, and a run is
any sequence of steps. The number of slots is a parameter.

The kernel keeps a table of descriptors. `accept` returns any descriptor that is free, so
the number of a closed descriptor comes back while its old slot still has it. Connections
are numbered in the order of their arrival, and the history of a run speaks of these.

`tcp4_handler_tid` is written and never read, and it is left out. So the release of the
slot is the last step of a handler.

`slots_uniquelyOwned` says that every connection has one owner. It is the lawfulness of
`Lib.Ownership`, for every history that a run has.
-/

set_option autoImplicit false

namespace UpsFirmware.Esp32

open Lib Lib.SlotEvent

/-! ### The threads -/

/-- The number of slots in the firmware. -/
def CONFIG_NET_SAMPLE_NUM_HANDLERS : Nat := 2

/-- Where `process_tcp4` is: in `setup`, before `accept`, in `get_free_slot` before the
read of slot `i`, behind it, before `k_thread_create`, or at its end. -/
inductive Acceptor where
  | setup
  | accepting
  | scanning (client : Int) (inet : Bool) (i : Nat)
  | found (client : Int) (inet : Bool) (slot : Int)
  | creating (inet : Bool) (slot : Nat)
  | stopped

/-- Where the handler thread of a slot is: there is none, it has not run yet, it has read
its slot, it has received, or it has closed its descriptor. -/
inductive Handler where
  | absent
  | created
  | started (client : Int)
  | received (client : Int)
  | closed

/-- The slots, the threads, the connection behind every descriptor that `accept` returned
and nobody closed, and the number of connections so far. -/
structure Listener where
  tcp4Accepted : Nat → Int
  acceptor : Acceptor
  handler : Nat → Handler
  table : Int → Option Nat
  connections : Nat

/-- A step of `process_tcp4`: `setup` returns, `accept` returns a descriptor with the
family of the peer, or fails, or the next access of the loop is made. -/
inductive AcceptorStep where
  | setup (ok : Bool)
  | accept (fd : Nat) (inet : Bool)
  | acceptFails
  | next

/-- A step of a handler: its next access, or a `send` of its answer. -/
inductive HandlerStep where
  | next
  | send

/-- A step of the server. -/
inductive Action where
  | acceptor (a : AcceptorStep)
  | handler (i : Nat) (a : HandlerStep)

/-- What happens to the slots and the connections. -/
abbrev Event := SlotEvent Nat Nat

/-- An operation on the connection behind a descriptor. -/
def onSocket (event : Nat → Event) (connection : Option Nat) : List Event :=
  match connection with
  | some c => [event c]
  | none => [.stray]

/-- `start_listener`: the slots after its loop. -/
def startListener (handlers : Nat) (accepted : Nat → Int) : Nat → Int :=
  (List.range handlers).foldl (fun slots i => Function.update slots i (-1)) accepted

/-- The server when `start_listener` has started the thread. -/
def Listener.init (handlers : Nat) (accepted : Nat → Int) : Listener where
  tcp4Accepted := startListener handlers accepted
  acceptor := .setup
  handler _ := .absent
  table _ := none
  connections := 0

/-- `process_tcp4`, with `process_tcp` and `get_free_slot`. -/
def processTcp4 (handlers : Nat) (s : Listener) (a : AcceptorStep) :
    Option (Listener × List Event) :=
  match s.acceptor, a with
  | .setup, .setup ok => some ({ s with acceptor := if ok then .accepting else .stopped }, [])
  | .accepting, .accept fd inet =>
      -- The kernel has no other open file under this number.
      if (s.table fd).isSome then none
      else some ({ s with
        acceptor := .scanning fd inet 0
        table := Function.update s.table fd (some s.connections)
        connections := s.connections + 1 }, [.opened s.connections])
  | .accepting, .acceptFails => some ({ s with acceptor := .stopped }, [])
  | .scanning client inet i, .next =>
      if i < handlers then
        if s.tcp4Accepted i < 0 then some ({ s with acceptor := .found client inet i }, [])
        else some ({ s with acceptor := .scanning client inet (i + 1) }, [])
      else some ({ s with acceptor := .found client inet (-1) }, [])
  | .found client inet slot, .next =>
      if slot < 0 ∨ slot ≥ handlers then
        some ({ s with
          acceptor := .accepting
          table := Function.update s.table client none },
          onSocket (.closed none) (s.table client))
      else
        some ({ s with
          acceptor := .creating inet slot.toNat
          tcp4Accepted := Function.update s.tcp4Accepted slot.toNat client },
          onSocket (.stored slot.toNat) (s.table client))
  | .creating inet slot, .next =>
      -- A peer of another family keeps its slot, and no thread serves it.
      if inet then
        some ({ s with
          acceptor := .accepting
          handler := Function.update s.handler slot .created }, [])
      else some ({ s with acceptor := .accepting }, [])
  | _, _ => none

/-- `client_conn_handler` in the thread of slot `i`. A `recv` and a `send` may wait for the
client, and each is a step when it returns. -/
def clientThread (s : Listener) (i : Nat) (a : HandlerStep) : Option (Listener × List Event) :=
  match s.handler i, a with
  | .created, .next =>
      some ({ s with handler := Function.update s.handler i (.started (s.tcp4Accepted i)) }, [])
  | .started client, .next =>
      some ({ s with handler := Function.update s.handler i (.received client) },
        onSocket (.used i) (s.table client))
  | .received client, .send => some (s, onSocket (.used i) (s.table client))
  | .received client, .next =>
      some ({ s with
        handler := Function.update s.handler i .closed
        table := Function.update s.table client none },
        onSocket (.closed (some i)) (s.table client))
  | .closed, .next =>
      some ({ s with
        handler := Function.update s.handler i .absent
        tcp4Accepted := Function.update s.tcp4Accepted i (-1) }, [.released i])
  | _, _ => none

/-- One step of the server. -/
def step (handlers : Nat) (s : Listener) : Action → Option (Listener × List Event)
  | .acceptor a => processTcp4 handlers s a
  | .handler i a => clientThread s i a

/-! ### The invariant -/

/-- A slot has the descriptor of the open connection that it holds. -/
def Owns (s : Listener) (log : List Event) (i : Nat) : Prop :=
  0 ≤ s.tcp4Accepted i ∧ ∃ c, s.table (s.tcp4Accepted i) = some c ∧ holder i log = some c

/-- What a slot has while its handler is in a phase. -/
def PhaseOk (s : Listener) (log : List Event) (i : Nat) : Handler → Prop
  | .absent => s.tcp4Accepted i < 0 ∧ holder i log = none ∨ Owns s log i
  | .created => Owns s log i
  | .started client => client = s.tcp4Accepted i ∧ Owns s log i
  | .received client => client = s.tcp4Accepted i ∧ Owns s log i
  | .closed => 0 ≤ s.tcp4Accepted i ∧ ∃ c, holder i log = some c ∧ c ∈ closes log

/-- A slot has what the phase of its handler says. -/
def SlotOk (s : Listener) (log : List Event) (i : Nat) : Prop := PhaseOk s log i (s.handler i)

/-- A descriptor of the acceptor: its connection `c` is open and in no slot, and the first
`n` slots were taken when it was opened. -/
structure Pending (table : Int → Option Nat) (log : List Event) (client : Int) (c n : Nat) :
    Prop where
  nonneg : 0 ≤ client
  isOpen : table client = some c
  unstored : c ∉ (stores log).map Prod.snd
  taken : ∃ before after, log = before ++ .opened c :: after ∧ stores after = [] ∧
    ∀ i < n, (holder i before).isSome

/-- A slot that is free, without a handler. -/
def Free (s : Listener) (log : List Event) (i : Nat) : Prop :=
  s.handler i = .absent ∧ s.tcp4Accepted i < 0 ∧ holder i log = none

/-- What the acceptor knows, by its phase. -/
def AcceptorOk (handlers : Nat) (s : Listener) (log : List Event) : Prop :=
  match s.acceptor with
  | .scanning client _ i => i ≤ handlers ∧ ∃ c, Pending s.table log client c i
  | .found client _ slot =>
      (slot < 0 ∧ ∃ c, Pending s.table log client c handlers) ∨
        ∃ i : Nat, slot = i ∧ i < handlers ∧ Free s log i ∧ ∃ c, Pending s.table log client c 0
  | .creating _ slot => slot < handlers ∧ s.handler slot = .absent ∧ Owns s log slot
  | _ => True

/-- The invariant of the runs. -/
structure Consistent (handlers : Nat) (s : Listener) (log : List Event) : Prop where
  lawful : Lawful (List.range handlers) log
  numbered : ∀ c ∈ opens log, c < s.connections
  isOpen : ∀ fd c, s.table fd = some c → c ∈ opens log ∧ c ∉ closes log
  oneDescriptor : ∀ fd fd' c, s.table fd = some c → s.table fd' = some c → fd = fd'
  slot : ∀ i < handlers, SlotOk s log i
  beyond : ∀ i, handlers ≤ i → s.handler i = .absent
  acceptor : AcceptorOk handlers s log

variable {handlers : Nat} {s s' : Listener} {log out : List Event}

/-- The loop of `start_listener` writes every slot. -/
theorem startListener_of_lt (accepted : Nat → Int) {i : Nat} (h : i < handlers) :
    startListener handlers accepted i = -1 := by
  induction handlers with
  | zero => exact absurd h (Nat.not_lt_zero i)
  | succ n ih =>
    rw [startListener, List.range_succ, List.foldl_append]
    show Function.update (startListener n accepted) n (-1) i = -1
    by_cases hi : i = n
    · rw [hi, Function.update_self]
    · rw [Function.update_of_ne hi]
      exact ih (by omega)

/-- The invariant holds when the listener starts. -/
theorem consistent_init (handlers : Nat) (accepted : Nat → Int) :
    Consistent handlers (Listener.init handlers accepted) [] where
  lawful := .nil
  numbered _ h := absurd h List.not_mem_nil
  isOpen _ _ h := nomatch h
  oneDescriptor _ _ _ h := nomatch h
  slot i hi := by
    refine .inl ⟨?_, rfl⟩
    show startListener handlers accepted i < 0
    rw [startListener_of_lt accepted hi]
    decide
  beyond _ _ := rfl
  acceptor := trivial

/-! ### What a step leaves alone -/

/-- An ownership survives when the slot, its holding and its connection do. -/
theorem Owns.frame {log' : List Event} {i : Nat} (h : Owns s log i)
    (haccepted : s'.tcp4Accepted i = s.tcp4Accepted i) (hholder : holder i log' = holder i log)
    (htable : ∀ fd c, s.table fd = some c → holder i log = some c → s'.table fd = some c) :
    Owns s' log' i := by
  obtain ⟨hnonneg, c, hopen, hheld⟩ := h
  rw [Owns, haccepted, hholder]
  exact ⟨hnonneg, c, htable _ c hopen hheld, hheld⟩

/-- A slot stays right for a phase when its value, its holding and its connection stay,
and no connection opens again. -/
theorem PhaseOk.frame {log' : List Event} {i : Nat} {p : Handler} (h : PhaseOk s log i p)
    (haccepted : s'.tcp4Accepted i = s.tcp4Accepted i) (hholder : holder i log' = holder i log)
    (htable : ∀ fd c, s.table fd = some c → holder i log = some c → s'.table fd = some c)
    (hcloses : closes log ⊆ closes log') : PhaseOk s' log' i p := by
  cases p with
  | absent =>
    rw [PhaseOk] at h ⊢
    rw [haccepted, hholder]
    exact h.imp_right fun howns => howns.frame haccepted hholder htable
  | created => exact Owns.frame h haccepted hholder htable
  | started client =>
    rw [PhaseOk] at h ⊢
    rw [haccepted]
    exact ⟨h.1, h.2.frame haccepted hholder htable⟩
  | received client =>
    rw [PhaseOk] at h ⊢
    rw [haccepted]
    exact ⟨h.1, h.2.frame haccepted hholder htable⟩
  | closed =>
    obtain ⟨hnonneg, c, hheld, hclosed⟩ := h
    rw [PhaseOk, haccepted, hholder]
    exact ⟨hnonneg, c, hheld, hcloses hclosed⟩

/-- A descriptor of the acceptor stays pending while its connection stays open and nothing
is stored. -/
theorem Pending.frame {client : Int} {c n : Nat} (h : Pending s.table log client c n)
    (htable : s'.table client = some c) (hout : stores out = []) :
    Pending s'.table (log ++ out) client c n where
  nonneg := h.nonneg
  isOpen := htable
  unstored := by
    rw [stores_append, hout, List.append_nil]
    exact h.unstored
  taken := by
    obtain ⟨before, after, hlog, hafter, htaken⟩ := h.taken
    refine ⟨before, after ++ out, ?_, ?_, htaken⟩
    · rw [hlog, List.append_assoc, List.cons_append]
    · rw [stores_append, hafter, hout, List.append_nil]

/-- What is known of more slots is known of fewer. -/
theorem Pending.weaken {client : Int} {c n : Nat} (h : Pending s.table log client c n) :
    Pending s.table log client c 0 where
  nonneg := h.nonneg
  isOpen := h.isOpen
  unstored := h.unstored
  taken := by
    obtain ⟨before, after, hlog, hstores, _⟩ := h.taken
    exact ⟨before, after, hlog, hstores, fun i hi => absurd hi (Nat.not_lt_zero i)⟩

/-! ### What the slots say -/

/-- A slot with a descriptor holds a connection. -/
theorem PhaseOk.isSome_holder {i : Nat} {p : Handler} (h : PhaseOk s log i p)
    (hnonneg : 0 ≤ s.tcp4Accepted i) : (holder i log).isSome := by
  have howns : Owns s log i → (holder i log).isSome := by
    intro ⟨_, c, _, hheld⟩
    rw [hheld]
    rfl
  cases p with
  | absent => exact h.elim (fun hfree => absurd hfree.1 (by omega)) howns
  | created => exact howns h
  | started client => exact howns h.2
  | received client => exact howns h.2
  | closed =>
    obtain ⟨_, c, hheld, _⟩ := h
    rw [hheld]
    rfl

/-- A slot without a descriptor is free. -/
theorem PhaseOk.free {i : Nat} {p : Handler} (h : PhaseOk s log i p)
    (hneg : s.tcp4Accepted i < 0) : p = .absent ∧ holder i log = none := by
  have howns : ¬ Owns s log i := fun howns => absurd howns.1 (by omega)
  cases p with
  | absent => exact ⟨rfl, (h.resolve_right howns).2⟩
  | created => exact absurd h howns
  | started client => exact absurd h.2 howns
  | received client => exact absurd h.2 howns
  | closed => exact absurd h.1 (by omega)

/-- Two slots do not hold the same connection. -/
theorem Consistent.holder_unique (h : Consistent handlers s log) {i j c : Nat}
    (hi : holder i log = some c) (hj : holder j log = some c) : i = j :=
  h.lawful.stored_unique (holder_mem_stores hi) (holder_mem_stores hj)

/-! ### The descriptor table -/

/-- The table after an `accept`. -/
theorem open_of_update_some {table : Int → Option Nat} {new fd : Int} {n c : Nat}
    (h : Function.update table new (some n) fd = some c) :
    fd = new ∧ c = n ∨ table fd = some c := by
  by_cases heq : fd = new
  · rw [heq, Function.update_self] at h
    cases h
    exact .inl ⟨heq, rfl⟩
  · rw [Function.update_of_ne heq] at h
    exact .inr h

/-- The table after a `close`. -/
theorem open_of_update_none {table : Int → Option Nat} {closed fd : Int} {c : Nat}
    (h : Function.update table closed none fd = some c) : fd ≠ closed ∧ table fd = some c := by
  by_cases heq : fd = closed
  · rw [heq, Function.update_self] at h
    cases h
  · rw [Function.update_of_ne heq] at h
    exact ⟨heq, h⟩

/-- A `close` leaves other connections in the table. -/
theorem open_of_ne {table : Int → Option Nat} {closed fd : Int} {c c' : Nat}
    (hclosed : table closed = some c) (hfd : table fd = some c') (hne : c' ≠ c) :
    Function.update table closed none fd = some c' := by
  rw [Function.update_of_ne]
  · exact hfd
  · intro heq
    rw [heq, hclosed] at hfd
    cases hfd
    exact hne rfl

/-- What is in the table behind the close of a connection is open: the closed connection
had one descriptor. -/
theorem Consistent.not_closed (h : Consistent handlers s log) {closed fd : Int} {c c' : Nat}
    (hclosed : s.table closed = some c)
    (hfd : Function.update s.table closed none fd = some c') (who : Option Nat) :
    c' ∉ closes (log ++ [.closed who c]) := by
  obtain ⟨hne, hfd⟩ := open_of_update_none hfd
  rw [closes_append, List.mem_append, not_or]
  refine ⟨(h.isOpen fd c' hfd).2, fun hmem => ?_⟩
  cases List.mem_singleton.mp hmem
  exact hne (h.oneDescriptor _ _ c hfd hclosed)

/-! ### The steps of a handler -/

/-- What a step of the handler of slot `j` leaves alone: the acceptor, the other slots,
and all connections but the one that slot `j` holds. -/
structure OnlySlot (j : Nat) (s s' : Listener) (log out : List Event) : Prop where
  acceptor : s'.acceptor = s.acceptor
  connections : s'.connections = s.connections
  handler : ∀ i ≠ j, s'.handler i = s.handler i
  accepted : ∀ i ≠ j, s'.tcp4Accepted i = s.tcp4Accepted i
  closed : ∀ fd c, s'.table fd = some c → s.table fd = some c ∧ c ∉ closes (log ++ out)
  kept : ∀ fd c, s.table fd = some c → holder j log ≠ some c → s'.table fd = some c
  opens : opens out = []
  stores : stores out = []
  holder : ∀ i ≠ j, holder i (log ++ out) = holder i log

/-- It leaves the connections of other slots alone, since these are other connections. -/
theorem Consistent.kept_other (h : Consistent handlers s log) {i j : Nat} (hij : i ≠ j)
    (hframe : OnlySlot j s s' log out) (fd : Int) (c : Nat) (hopen : s.table fd = some c)
    (hheld : holder i log = some c) : s'.table fd = some c :=
  hframe.kept fd c hopen fun hj => hij (h.holder_unique hheld hj)

/-- A step of the handler of slot `j` does not touch what the acceptor knows. -/
theorem Consistent.acceptorOk (h : Consistent handlers s log) {j : Nat}
    (hbusy : s.handler j ≠ .absent) (hframe : OnlySlot j s s' log out) :
    AcceptorOk handlers s' (log ++ out) := by
  have hpending : ∀ {client c n}, Pending s.table log client c n →
      Pending s'.table (log ++ out) client c n := by
    intro client c n hp
    refine hp.frame (hframe.kept client c hp.isOpen fun hheld => ?_) hframe.stores
    exact hp.unstored (List.mem_map.mpr ⟨_, holder_mem_stores hheld, rfl⟩)
  have hother : ∀ {i}, s.handler i = .absent → i ≠ j := by
    intro i habsent hij
    rw [hij] at habsent
    exact hbusy habsent
  have hacceptor := h.acceptor
  rw [AcceptorOk] at hacceptor ⊢
  rw [hframe.acceptor]
  split at hacceptor
  · exact ⟨hacceptor.1, hacceptor.2.imp fun c hp => hpending hp⟩
  · rcases hacceptor with ⟨hneg, c, hp⟩ | ⟨i, rfl, hi, ⟨habsent, hneg, hnone⟩, c, hp⟩
    · exact .inl ⟨hneg, c, hpending hp⟩
    · have hij := hother habsent
      refine .inr ⟨i, rfl, hi, ⟨?_, ?_, ?_⟩, c, hpending hp⟩
      · rw [hframe.handler i hij, habsent]
      · rw [hframe.accepted i hij]
        exact hneg
      · rw [hframe.holder i hij, hnone]
  · obtain ⟨hi, habsent, howns⟩ := hacceptor
    have hij := hother habsent
    exact ⟨hi, (hframe.handler _ hij).trans habsent,
      howns.frame (hframe.accepted _ hij) (hframe.holder _ hij) (h.kept_other hij hframe)⟩
  · trivial

/-- The handler of slot `j` keeps the invariant if its events are lawful and its own slot
is right. -/
theorem Consistent.of_onlySlot (h : Consistent handlers s log) {j : Nat} (hj : j < handlers)
    (hbusy : s.handler j ≠ .absent) (hframe : OnlySlot j s s' log out)
    (hlawful : Lawful (List.range handlers) (log ++ out)) (hslot : SlotOk s' (log ++ out) j) :
    Consistent handlers s' (log ++ out) where
  lawful := hlawful
  numbered c hc := by
    rw [opens_append, hframe.opens, List.append_nil] at hc
    rw [hframe.connections]
    exact h.numbered c hc
  isOpen fd c hopen := by
    obtain ⟨hbefore, hclosed⟩ := hframe.closed fd c hopen
    rw [opens_append]
    exact ⟨List.mem_append_left _ (h.isOpen fd c hbefore).1, hclosed⟩
  oneDescriptor fd fd' c hfd hfd' :=
    h.oneDescriptor fd fd' c (hframe.closed fd c hfd).1 (hframe.closed fd' c hfd').1
  slot i hi := by
    by_cases hij : i = j
    · rw [hij]
      exact hslot
    · show PhaseOk s' (log ++ out) i (s'.handler i)
      rw [hframe.handler i hij]
      refine PhaseOk.frame (h.slot i hi) (hframe.accepted i hij) (hframe.holder i hij)
        (h.kept_other hij hframe) ?_
      rw [closes_append]
      exact List.subset_append_left _ _
  beyond i hi := by
    rw [hframe.handler i (by omega)]
    exact h.beyond i hi
  acceptor := h.acceptorOk hbusy hframe

/-- A new phase of a handler, with an event that opens, stores, closes and holds nothing. -/
theorem Consistent.setPhase (h : Consistent handlers s log) {j : Nat} (hj : j < handlers)
    (hbusy : s.handler j ≠ .absent) {p : Handler} (hopens : opens out = [])
    (hstores : stores out = []) (hcloses : closes out = [])
    (hholder : ∀ i, holder i (log ++ out) = holder i log)
    (hlawful : Lawful (List.range handlers) (log ++ out)) (hslot : PhaseOk s (log ++ out) j p) :
    Consistent handlers { s with handler := Function.update s.handler j p } (log ++ out) := by
  refine h.of_onlySlot hj hbusy ?_ hlawful ?_
  · exact {
      acceptor := rfl
      connections := rfl
      handler := fun i hi => Function.update_of_ne hi _ _
      accepted := fun _ _ => rfl
      closed := fun fd c hopen => by
        rw [closes_append, hcloses, List.append_nil]
        exact ⟨hopen, (h.isOpen fd c hopen).2⟩
      kept := fun _ _ hopen _ => hopen
      opens := hopens
      stores := hstores
      holder := fun i _ => hholder i }
  · show PhaseOk s (log ++ out) j (Function.update s.handler j p j)
    rw [Function.update_self]
    exact hslot

/-- The handler uses the connection that its slot holds. -/
theorem Consistent.use (h : Consistent handlers s log) {j : Nat} (hj : j < handlers)
    (hbusy : s.handler j ≠ .absent) (howns : Owns s log j) :
    Consistent handlers
      { s with handler := Function.update s.handler j (.received (s.tcp4Accepted j)) }
      (log ++ onSocket (.used j) (s.table (s.tcp4Accepted j))) := by
  obtain ⟨hnonneg, c, hopen, hheld⟩ := howns
  have hholder : ∀ i, holder i (log ++ [.used j c]) = holder i log := fun i => holder_snoc i log _
  rw [hopen]
  refine h.setPhase hj hbusy rfl rfl rfl hholder ?_ ?_
  · exact h.lawful.snoc ⟨hheld, (h.isOpen _ c hopen).2⟩
  · exact ⟨rfl, hnonneg, c, hopen, (hholder j).trans hheld⟩

/-- The handler closes the connection that its slot holds, and no other descriptor. -/
theorem Consistent.close (h : Consistent handlers s log) {j : Nat} (hj : j < handlers)
    (hbusy : s.handler j ≠ .absent) (howns : Owns s log j) :
    Consistent handlers
      { s with
        handler := Function.update s.handler j .closed
        table := Function.update s.table (s.tcp4Accepted j) none }
      (log ++ onSocket (.closed (some j)) (s.table (s.tcp4Accepted j))) := by
  obtain ⟨hnonneg, c, hopen, hheld⟩ := howns
  have hholder : ∀ i, holder i (log ++ [.closed (some j) c]) = holder i log :=
    fun i => holder_snoc i log _
  rw [hopen]
  refine h.of_onlySlot hj hbusy ?_ ?_ ?_
  · exact {
      acceptor := rfl
      connections := rfl
      handler := fun i hi => Function.update_of_ne hi _ _
      accepted := fun _ _ => rfl
      closed := fun fd c' hfd => ⟨(open_of_update_none hfd).2, h.not_closed hopen hfd (some j)⟩
      kept := fun fd c' hfd hne => by
        refine open_of_ne hopen hfd fun heq => hne ?_
        rw [heq]
        exact hheld
      opens := rfl
      stores := rfl
      holder := fun i _ => hholder i }
  · exact h.lawful.snoc ⟨hheld, (h.isOpen _ c hopen).2⟩
  · show PhaseOk _ _ j (Function.update s.handler j .closed j)
    rw [Function.update_self, PhaseOk]
    refine ⟨hnonneg, c, (hholder j).trans hheld, ?_⟩
    rw [closes_append]
    exact List.mem_append_right _ List.mem_cons_self

/-- The handler releases its slot behind the close. -/
theorem Consistent.release (h : Consistent handlers s log) {j : Nat} (hj : j < handlers)
    (hphase : s.handler j = .closed) :
    Consistent handlers
      { s with
        handler := Function.update s.handler j .absent
        tcp4Accepted := Function.update s.tcp4Accepted j (-1) } (log ++ [.released j]) := by
  have hslot := h.slot j hj
  rw [SlotOk, hphase] at hslot
  obtain ⟨_, c, hheld, hclosed⟩ := hslot
  refine h.of_onlySlot hj (by rw [hphase]; exact Handler.noConfusion) ?_ ?_ ?_
  · exact {
      acceptor := rfl
      connections := rfl
      handler := fun i hi => Function.update_of_ne hi _ _
      accepted := fun i hi => Function.update_of_ne hi _ _
      closed := fun fd c' hfd => by
        rw [closes_append, show closes [.released j] = [] from rfl, List.append_nil]
        exact ⟨hfd, (h.isOpen fd c' hfd).2⟩
      kept := fun _ _ hopen _ => hopen
      opens := rfl
      stores := rfl
      holder := fun i hi => (holder_snoc i log _).trans (if_neg hi.symm) }
  · exact h.lawful.snoc ⟨c, hheld, hclosed⟩
  · show PhaseOk _ _ j (Function.update s.handler j .absent j)
    rw [Function.update_self]
    refine .inl ⟨?_, ?_⟩
    · show Function.update s.tcp4Accepted j (-1) j < 0
      rw [Function.update_self]
      decide
    · exact (holder_snoc j log _).trans (if_pos rfl)

/-- Every step of a handler keeps the invariant. -/
theorem Consistent.clientThread (h : Consistent handlers s log) {j : Nat} {a : HandlerStep}
    (hstep : clientThread s j a = some (s', out)) : Consistent handlers s' (log ++ out) := by
  have hbusy : s.handler j ≠ .absent := by
    intro habsent
    rw [Esp32.clientThread.eq_def, habsent] at hstep
    cases a <;> cases hstep
  have hj : j < handlers := by
    by_contra hj
    exact hbusy (h.beyond j (Nat.le_of_not_lt hj))
  have hslot := h.slot j hj
  rw [SlotOk] at hslot
  rw [Esp32.clientThread.eq_def] at hstep
  split at hstep
  · next hphase =>
    cases hstep
    rw [hphase] at hslot
    refine h.setPhase hj hbusy rfl rfl rfl (fun i => by rw [List.append_nil]) ?_ ?_
    · rw [List.append_nil]
      exact h.lawful
    · rw [List.append_nil]
      exact ⟨rfl, hslot⟩
  · next client hphase =>
    cases hstep
    rw [hphase] at hslot
    rw [hslot.1]
    exact h.use hj hbusy hslot.2
  · next client hphase =>
    cases hstep
    rw [hphase] at hslot
    rw [hslot.1] at hphase ⊢
    have huse := h.use hj hbusy hslot.2
    rwa [← hphase, Function.update_eq_self] at huse
  · next client hphase =>
    cases hstep
    rw [hphase] at hslot
    rw [hslot.1]
    exact h.close hj hbusy hslot.2
  · next hphase =>
    cases hstep
    exact h.release hj hphase
  · cases hstep

/-! ### The steps of the acceptor -/

/-- A step that only moves the acceptor. -/
theorem Consistent.setAcceptor (h : Consistent handlers s log) {p : Acceptor}
    (hp : AcceptorOk handlers { s with acceptor := p } log) :
    Consistent handlers { s with acceptor := p } (log ++ []) := by
  rw [List.append_nil]
  exact {
    lawful := h.lawful
    numbered := h.numbered
    isOpen := h.isOpen
    oneDescriptor := h.oneDescriptor
    slot := h.slot
    beyond := h.beyond
    acceptor := hp }

/-- `accept` returns a descriptor that is free, for a connection that is new. -/
theorem Consistent.accept (h : Consistent handlers s log) {fd : Nat} (inet : Bool)
    (hfree : s.table fd = none) :
    Consistent handlers
      { s with
        acceptor := .scanning fd inet 0
        table := Function.update s.table fd (some s.connections)
        connections := s.connections + 1 } (log ++ [.opened s.connections]) := by
  have hnew : s.connections ∉ opens log := fun hmem => absurd (h.numbered _ hmem) (by omega)
  have hopens : opens (log ++ [.opened s.connections]) = opens log ++ [s.connections] :=
    opens_append _ _
  have hcloses : closes (log ++ [.opened s.connections]) = closes log := by
    rw [closes_append]
    exact List.append_nil _
  have hlawful : Lawful (List.range handlers) (log ++ [.opened s.connections]) :=
    h.lawful.snoc hnew
  have hother : ∀ fd' c, s.table fd' = some c →
      Function.update s.table (fd : Int) (some s.connections) fd' = some c := by
    intro fd' c hopen
    rw [Function.update_of_ne]
    · exact hopen
    · intro heq
      rw [heq, hfree] at hopen
      cases hopen
  have hused : ∀ fd' c, s.table fd' = some c → c ≠ s.connections := by
    intro fd' c hopen heq
    rw [heq] at hopen
    exact hnew (h.isOpen fd' _ hopen).1
  exact {
    lawful := hlawful
    numbered := fun c hc => by
      rw [hopens, List.mem_append] at hc
      rcases hc with hc | hc
      · exact Nat.lt_succ_of_lt (h.numbered c hc)
      · cases List.mem_singleton.mp hc
        exact Nat.lt_succ_self _
    isOpen := fun fd' c hopen => by
      rw [hopens, hcloses]
      rcases open_of_update_some hopen with ⟨_, rfl⟩ | hopen
      · exact ⟨List.mem_append_right _ List.mem_cons_self,
          fun hmem => hnew (h.lawful.opened_of_closed hmem)⟩
      · exact ⟨List.mem_append_left _ (h.isOpen fd' c hopen).1, (h.isOpen fd' c hopen).2⟩
    oneDescriptor := fun fd₁ fd₂ c h₁ h₂ => by
      rcases open_of_update_some h₁ with ⟨rfl, rfl⟩ | h₁
      · rcases open_of_update_some h₂ with ⟨rfl, _⟩ | h₂
        · rfl
        · exact absurd rfl (hused fd₂ _ h₂)
      · rcases open_of_update_some h₂ with ⟨_, rfl⟩ | h₂
        · exact absurd rfl (hused fd₁ _ h₁)
        · exact h.oneDescriptor fd₁ fd₂ c h₁ h₂
    slot := fun i hi => by
      refine PhaseOk.frame (h.slot i hi) rfl (holder_snoc i log _) ?_ ?_
      · exact fun fd' c hopen _ => hother fd' c hopen
      · rw [hcloses]
        exact List.Subset.refl _
    beyond := h.beyond
    acceptor := by
      refine ⟨Nat.zero_le _, s.connections, ?_⟩
      exact {
        nonneg := Int.natCast_nonneg fd
        isOpen := Function.update_self _ _ _
        unstored := fun hmem => by
          rw [stores_append, show stores [.opened s.connections] = [] from rfl,
            List.append_nil] at hmem
          obtain ⟨p, hp, heq⟩ := List.mem_map.mp hmem
          rw [← heq] at hnew
          exact hnew (h.lawful.opened_of_stored hp)
        taken := ⟨log, [], rfl, rfl, fun i hi => absurd hi (Nat.not_lt_zero i)⟩ } }

/-- The acceptor closes the connection that it has just accepted when every slot was
taken. -/
theorem Consistent.reject (h : Consistent handlers s log) {client : Int} {c : Nat}
    (hp : Pending s.table log client c handlers) :
    Consistent handlers
      { s with
        acceptor := .accepting
        table := Function.update s.table client none }
      (log ++ onSocket (.closed none) (s.table client)) := by
  rw [hp.isOpen]
  show Consistent _ _ (log ++ [.closed none c])
  have hopens : opens (log ++ [.closed none c]) = opens log := by
    rw [opens_append]
    exact List.append_nil _
  exact {
    lawful := by
      obtain ⟨before, after, hlog, _, htaken⟩ := hp.taken
      refine h.lawful.snoc ⟨(h.isOpen _ c hp.isOpen).2, hp.unstored, before, after, hlog, ?_⟩
      exact fun i hi => htaken i (List.mem_range.mp hi)
    numbered := by
      rw [hopens]
      exact h.numbered
    isOpen := fun fd c' hfd => by
      rw [hopens]
      exact ⟨(h.isOpen fd c' (open_of_update_none hfd).2).1, h.not_closed hp.isOpen hfd none⟩
    oneDescriptor := fun fd₁ fd₂ c' h₁ h₂ =>
      h.oneDescriptor fd₁ fd₂ c' (open_of_update_none h₁).2 (open_of_update_none h₂).2
    slot := fun i hi => by
      refine PhaseOk.frame (h.slot i hi) rfl (holder_snoc i log _) ?_ ?_
      · intro fd c' hfd hheld
        -- A connection in a slot is not the one that was never stored.
        refine open_of_ne hp.isOpen hfd fun heq => hp.unstored ?_
        rw [← heq]
        exact List.mem_map.mpr ⟨_, holder_mem_stores hheld, rfl⟩
      · rw [closes_append]
        exact List.subset_append_left _ _
    beyond := h.beyond
    acceptor := trivial }

/-- The acceptor stores the connection that it has just accepted in a free slot. -/
theorem Consistent.store (h : Consistent handlers s log) {client : Int} {c j : Nat}
    (inet : Bool) (hj : j < handlers) (hfree : Free s log j) (hp : Pending s.table log client c 0) :
    Consistent handlers
      { s with
        acceptor := .creating inet j
        tcp4Accepted := Function.update s.tcp4Accepted j client }
      (log ++ onSocket (.stored j) (s.table client)) := by
  rw [hp.isOpen]
  show Consistent _ _ (log ++ [.stored j c])
  obtain ⟨habsent, hneg, hnone⟩ := hfree
  have hcloses : closes (log ++ [.stored j c]) = closes log := by
    rw [closes_append]
    exact List.append_nil _
  have hopens : opens (log ++ [.stored j c]) = opens log := by
    rw [opens_append]
    exact List.append_nil _
  have howns : Owns { s with
      acceptor := .creating inet j
      tcp4Accepted := Function.update s.tcp4Accepted j client } (log ++ [.stored j c]) j := by
    rw [Owns]
    show 0 ≤ Function.update s.tcp4Accepted j client j ∧
      ∃ c', s.table (Function.update s.tcp4Accepted j client j) = some c' ∧ _
    rw [Function.update_self]
    exact ⟨hp.nonneg, c, hp.isOpen, (holder_snoc j log _).trans (if_pos rfl)⟩
  exact {
    lawful := by
      refine h.lawful.snoc ⟨List.mem_range.mpr hj, (h.isOpen _ c hp.isOpen).1, hp.unstored,
        (h.isOpen _ c hp.isOpen).2, fun r' hr' => ?_⟩
      -- The slot holds nothing, so what it had is closed.
      refine (h.lawful.holder_or_closed hr').resolve_left fun hheld => ?_
      rw [hnone] at hheld
      cases hheld
    numbered := by
      rw [hopens]
      exact h.numbered
    isOpen := by
      rw [hopens, hcloses]
      exact h.isOpen
    oneDescriptor := h.oneDescriptor
    slot := fun i hi => by
      by_cases hij : i = j
      · rw [hij]
        show PhaseOk _ _ j (s.handler j)
        rw [habsent]
        exact .inr howns
      · refine PhaseOk.frame (h.slot i hi) (Function.update_of_ne hij _ _) ?_ ?_ ?_
        · exact (holder_snoc i log _).trans (if_neg fun heq => hij heq.symm)
        · exact fun _ _ hopen _ => hopen
        · rw [hcloses]
          exact List.Subset.refl _
    beyond := h.beyond
    acceptor := ⟨hj, habsent, howns⟩ }

/-- `k_thread_create` starts the handler of a slot that has none. -/
theorem Consistent.create (h : Consistent handlers s log) {j : Nat} (hj : j < handlers)
    (howns : Owns s log j) :
    Consistent handlers
      { s with
        acceptor := .accepting
        handler := Function.update s.handler j .created } (log ++ []) := by
  rw [List.append_nil]
  exact {
    lawful := h.lawful
    numbered := h.numbered
    isOpen := h.isOpen
    oneDescriptor := h.oneDescriptor
    slot := fun i hi => by
      show PhaseOk s log i (Function.update s.handler j .created i)
      by_cases hij : i = j
      · rw [hij, Function.update_self]
        exact howns
      · rw [Function.update_of_ne hij]
        exact h.slot i hi
    beyond := fun i hi => by
      show Function.update s.handler j .created i = .absent
      rw [Function.update_of_ne (by omega)]
      exact h.beyond i hi
    acceptor := trivial }

/-- A scan that has read a taken slot goes on to the next one. -/
theorem Pending.scan {client : Int} {c i : Nat} (hp : Pending s.table log client c i)
    (htaken : (holder i log).isSome) : Pending s.table log client c (i + 1) where
  nonneg := hp.nonneg
  isOpen := hp.isOpen
  unstored := hp.unstored
  taken := by
    obtain ⟨before, after, hlog, hstores, hbefore⟩ := hp.taken
    refine ⟨before, after, hlog, hstores, fun k hk => ?_⟩
    by_cases hki : k = i
    · -- Only the acceptor fills slots, so this one was taken before the scan.
      rw [hki]
      rw [hlog] at htaken
      have hnone : stores (.opened c :: after) = [] := hstores
      exact isSome_holder_of_append hnone htaken
    · exact hbefore k (by omega)

/-- Every step of the acceptor keeps the invariant. -/
theorem Consistent.processTcp4 (h : Consistent handlers s log) {a : AcceptorStep}
    (hstep : processTcp4 handlers s a = some (s', out)) :
    Consistent handlers s' (log ++ out) := by
  have hacceptor := h.acceptor
  rw [AcceptorOk] at hacceptor
  rw [Esp32.processTcp4.eq_def] at hstep
  split at hstep
  · next ok hphase =>
    cases hstep
    refine h.setAcceptor ?_
    cases ok <;> trivial
  · next fd inet hphase =>
    split at hstep
    · cases hstep
    · next hnone =>
      cases hstep
      exact h.accept inet (Option.not_isSome_iff_eq_none.mp hnone)
  · next hphase =>
    cases hstep
    exact h.setAcceptor trivial
  · next client inet i hphase =>
    rw [hphase] at hacceptor
    obtain ⟨hi, c, hp⟩ := hacceptor
    split at hstep
    · next hlt =>
      split at hstep
      · next hneg =>
        cases hstep
        obtain ⟨habsent, hnone⟩ := PhaseOk.free (h.slot i hlt) hneg
        exact h.setAcceptor (.inr ⟨i, rfl, hlt, ⟨habsent, hneg, hnone⟩, c, hp.weaken⟩)
      · next hnonneg =>
        cases hstep
        have htaken := PhaseOk.isSome_holder (h.slot i hlt) (Int.not_lt.mp hnonneg)
        exact h.setAcceptor ⟨hlt, c, hp.scan htaken⟩
    · next hge =>
      cases hstep
      rw [show i = handlers by omega] at hp
      exact h.setAcceptor (.inl ⟨by decide, c, hp⟩)
  · next client inet slot hphase =>
    rw [hphase] at hacceptor
    split at hstep
    · next hslot =>
      cases hstep
      rcases hacceptor with ⟨_, c, hp⟩ | ⟨i, rfl, hi, _⟩
      · exact h.reject hp
      · omega
    · next hslot =>
      cases hstep
      rcases hacceptor with ⟨hneg, _⟩ | ⟨i, rfl, hi, hfree, c, hp⟩
      · omega
      · exact h.store inet hi hfree hp
  · next inet slot hphase =>
    rw [hphase] at hacceptor
    split at hstep
    · cases hstep
      exact h.create hacceptor.1 hacceptor.2.2
    · cases hstep
      exact h.setAcceptor trivial
  · cases hstep

/-- Every step of the server keeps the invariant. -/
theorem Consistent.step (h : Consistent handlers s log) {a : Action}
    (hstep : step handlers s a = some (s', out)) : Consistent handlers s' (log ++ out) := by
  cases a with
  | acceptor a => exact h.processTcp4 hstep
  | handler i a => exact h.clientThread hstep

/-- In every run, every connection has one owner. -/
theorem slots_uniquelyOwned (handlers : Nat) (accepted : Nat → Int) (actions : List Action)
    {s : Listener} {log : List Event}
    (hrun : runLog (step handlers) (Listener.init handlers accepted) actions = some (s, log)) :
    UniquelyOwned (List.range handlers) log := by
  have hlast : Consistent handlers s log :=
    runLog_history (step handlers) (fun _ _ _ _ _ h hstep => h.step hstep)
      (consistent_init handlers accepted) hrun
  exact hlast.lawful.uniquelyOwned

/-- With two slots, of which the first one is taken, released and taken again while the
second one still has a connection, the descriptor 5 is used for two connections. -/
theorem slots_uniquelyOwned_reuse :
    UniquelyOwned (List.range CONFIG_NET_SAMPLE_NUM_HANDLERS)
      [.opened 0, .stored 0 0, .opened 1, .stored 1 1, .used 0 0, .opened 2,
        .closed (some 0) 0, .closed none 2, .opened 3, .released 0, .stored 0 3, .used 0 3,
        .used 1 1, .closed (some 1) 1] :=
  slots_uniquelyOwned CONFIG_NET_SAMPLE_NUM_HANDLERS (fun _ => 0)
    [.acceptor (.setup true),
      -- Connections 0 and 1 get the slots 0 and 1.
      .acceptor (.accept 5 true), .acceptor .next, .acceptor .next, .acceptor .next,
      .acceptor (.accept 6 true), .acceptor .next, .acceptor .next, .acceptor .next,
      .acceptor .next, .handler 0 .next, .handler 0 .next, .handler 1 .next,
      -- Connection 2 finds no free slot.
      .acceptor (.accept 7 true), .acceptor .next, .handler 0 .next, .acceptor .next,
      .acceptor .next, .acceptor .next,
      -- Connection 3 gets the descriptor of connection 0, and then its slot.
      .acceptor (.accept 5 true), .handler 0 .next, .acceptor .next, .acceptor .next,
      .acceptor .next, .handler 0 .next, .handler 0 .next, .handler 1 .next,
      .handler 1 .next]
    rfl

end UpsFirmware.Esp32
