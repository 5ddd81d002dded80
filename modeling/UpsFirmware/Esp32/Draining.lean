import Mathlib.Algebra.BigOperators.Group.Finset.Piecewise
import Mathlib.Algebra.Order.BigOperators.Group.Finset
import UpsFirmware.Esp32.Server

/-!
# `UpsFirmware.Esp32.Draining`: every connection is closed

`Esp32.Listener` says what must not happen to the connections of the web server. Here is
what must happen: each of them is closed, and its slot is free again. A peer is an IPv4
peer, as the listening socket is.

A `recv` and a `send` have no timeout, so a handler may wait in them for its client
(`Server.Waits`). Their returns come from the outside, like a new connection. Every other
access a thread makes by itself (`ServerAct.isOwn`), and while there is anything to do, one
of the threads has such an access to make or waits for its client (`exists_isOwn`).

`rank` is the number of accesses that are left to the threads, and `bytesLeft` the number
of bytes that are left for `send`. Every access uses up one of the first and every `send`
one of the second at least. Only a new connection adds accesses and only a request adds
bytes. `Accountable` says where a connection is that was not closed: in the hand of the
acceptor, or in the slot of a handler. `drains` puts this together, and says too that a
client that sends nothing keeps its slot for ever.
-/

set_option autoImplicit false

namespace UpsFirmware.Esp32

open Lib Lib.SlotEvent

/-! ### Idle servers -/

/-- The acceptor has nothing to do for a connection. -/
def Acceptor.isIdle : Acceptor → Bool
  | .scanning _ _ _ => false
  | .found _ _ _ => false
  | .creating _ _ => false
  | _ => true

/-- No thread has anything to do for a connection. -/
def Idle (handlers : Nat) (s : Listener) : Prop :=
  s.acceptor.isIdle = true ∧ ∀ i < handlers, s.handler i = .absent

/-- An access that a thread makes by itself. -/
def ServerAct.isOwn : ServerAct → Bool
  | .acceptor .next => true
  | .next _ => true
  | _ => false

/-- The handler of slot `i` waits for its client, in `recv` or in a `send`. -/
def Server.Waits (s : Server) (i : Nat) : Prop :=
  (∃ client, s.listener.handler i = .started client) ∨
    (∃ client, s.listener.handler i = .received client) ∧ s.job i ≠ []

theorem exists_clientThread {s : Listener} {i : Nat} (hbusy : s.handler i ≠ .absent) :
    ∃ r, clientThread s i .next = some r := by
  rw [clientThread.eq_def]
  cases hphase : s.handler i with
  | absent => exact absurd hphase hbusy
  | _ => exact ⟨_, rfl⟩

theorem exists_processTcp4 (handlers : Nat) {s : Listener}
    (hbusy : s.acceptor.isIdle = false) :
    ∃ r, processTcp4 handlers s .next = some r := by
  rw [processTcp4.eq_def]
  cases hphase : s.acceptor with
  | scanning client inet i =>
    dsimp only
    split
    · split
      · exact ⟨_, rfl⟩
      · exact ⟨_, rfl⟩
    · exact ⟨_, rfl⟩
  | found client inet slot =>
    dsimp only
    split
    · exact ⟨_, rfl⟩
    · exact ⟨_, rfl⟩
  | creating inet slot =>
    dsimp only
    split
    · exact ⟨_, rfl⟩
    · exact ⟨_, rfl⟩
  | _ =>
    rw [hphase] at hbusy
    cases hbusy

/-- A handler that can not go on by itself waits for its client. -/
theorem waits_of_goesOn {s : Server} {i : Nat}
    (h : (s.listener.handler i).goesOn (s.job i) = false) : s.Waits i := by
  cases hphase : s.listener.handler i with
  | started client => exact Or.inl ⟨client, hphase⟩
  | received client =>
    rw [hphase] at h
    refine Or.inr ⟨⟨client, hphase⟩, fun hjob => ?_⟩
    rw [hjob] at h
    cases h
  | _ =>
    rw [hphase] at h
    cases h

/-- While the server is not idle, some thread has an access to make by itself, or waits for
its client. -/
theorem exists_isOwn {handlers : Nat} {indexContent : List UInt8} {s : Server}
    (hbusy : ¬ Idle handlers s.listener) :
    (∃ a r, ServerAct.isOwn a = true ∧ s.step handlers indexContent a = some r) ∨
      ∃ i < handlers, s.Waits i := by
  cases hidle : s.listener.acceptor.isIdle with
  | false =>
    obtain ⟨r, hr⟩ := exists_processTcp4 handlers hidle
    refine Or.inl ⟨.acceptor .next, (⟨r.1, s.job⟩, r.2.map .slot), rfl, ?_⟩
    rw [Server.step, hr]
    rfl
  | true =>
    obtain ⟨i, hi, hthread⟩ : ∃ i < handlers, s.listener.handler i ≠ .absent := by
      by_contra hnone
      exact hbusy ⟨hidle, fun i hi => by_contra fun hne => hnone ⟨i, hi, hne⟩⟩
    cases hgoes : (s.listener.handler i).goesOn (s.job i) with
    | false => exact Or.inr ⟨i, hi, waits_of_goesOn hgoes⟩
    | true =>
      obtain ⟨r, hr⟩ := exists_clientThread hthread
      refine Or.inl ⟨.next i, (⟨r.1, s.job⟩, r.2.map .slot), rfl, ?_⟩
      rw [Server.step, if_pos hgoes, hr]
      rfl

/-! ### The accesses that are left -/

/-- The next access of a thread. The return of a `recv` is one, and that of a `send` is
not. -/
def Action.isNext : Action → Bool
  | .acceptor .next => true
  | .handler _ .next => true
  | _ => false

/-- A new connection. -/
def Action.isAccept : Action → Bool
  | .acceptor (.accept _ _) => true
  | _ => false

/-- The number of accesses that a handler has left. -/
def Handler.rank : Handler → Nat
  | .absent => 0
  | .created => 4
  | .started _ => 3
  | .received _ => 2
  | .closed => 1

/-- The number of accesses that the acceptor has left for its connection, with those of the
handler that it may create. -/
def Acceptor.rank (handlers : Nat) : Acceptor → Nat
  | .scanning _ _ i => handlers - i + 7
  | .found _ _ _ => 6
  | .creating _ _ => 5
  | _ => 0

/-- The number of accesses that are left. -/
def rank (handlers : Nat) (s : Listener) : Nat :=
  s.acceptor.rank handlers + ∑ i ∈ Finset.range handlers, (s.handler i).rank

/-- A sum over the slots after a change of slot `j`. -/
theorem sum_range_update {α : Type} (size : α → Nat) (slot : Nat → α) (x : α) {j n : Nat}
    (hj : j < n) :
    ∑ i ∈ Finset.range n, size (Function.update slot j x i) + size (slot j)
      = ∑ i ∈ Finset.range n, size (slot i) + size x := by
  have hmem : j ∈ Finset.range n := Finset.mem_range.mpr hj
  have hupdate : ∀ i, size (Function.update slot j x i)
      = Function.update (fun i => size (slot i)) j (size x) i := by
    intro i
    by_cases hij : i = j
    · rw [hij, Function.update_self, Function.update_self]
    · rw [Function.update_of_ne hij, Function.update_of_ne hij]
  rw [Finset.sum_congr rfl fun i _ => hupdate i, Finset.sum_update_of_mem hmem,
    ← Finset.add_sum_erase _ _ hmem, Finset.sdiff_singleton_eq_erase]
  omega

theorem rank_le (handlers : Nat) (s : Listener) : rank handlers s ≤ 5 * handlers + 7 := by
  have hhandler : ∀ i ∈ Finset.range handlers, (s.handler i).rank ≤ 4 := by
    intro i _
    cases s.handler i with
    | absent => exact Nat.zero_le 4
    | created => exact Nat.le_refl 4
    | started client => exact Nat.le_succ 3
    | received client => exact Nat.le_add_right 2 2
    | closed => exact Nat.le_add_right 1 3
  have hhandlers := Finset.sum_le_sum hhandler
  have hacceptor : s.acceptor.rank handlers ≤ handlers + 7 := by
    cases s.acceptor with
    | scanning client inet i =>
      show handlers - i + 7 ≤ handlers + 7
      omega
    | found client inet slot =>
      show 6 ≤ handlers + 7
      omega
    | creating inet slot =>
      show 5 ≤ handlers + 7
      omega
    | _ => exact Nat.zero_le _
  rw [Finset.sum_const_nat fun _ _ => rfl, Finset.card_range] at hhandlers
  rw [rank]
  omega

section Steps

variable {handlers : Nat} {s s' : Listener} {log out : List Event}

/-- An access of a handler uses up one of its own. -/
theorem rank_clientThread (h : Consistent handlers s log) {i : Nat} {a : HandlerStep}
    (hstep : clientThread s i a = some (s', out)) :
    rank handlers s' + (Action.handler i a).isNext.toNat ≤ rank handlers s := by
  have hi : s.handler i ≠ .absent → i < handlers := fun hbusy =>
    Nat.lt_of_not_le fun hge => hbusy (h.beyond i hge)
  have hphase : ∀ p q, s.handler i = q → q ≠ .absent → p.rank + 1 = q.rank →
      s.acceptor.rank handlers +
          ∑ j ∈ Finset.range handlers, (Function.update s.handler i p j).rank + 1
        ≤ rank handlers s := by
    intro p q hq hbusy hrank
    have hupdate := sum_range_update Handler.rank s.handler p (hi (by rw [hq]; exact hbusy))
    rw [hq] at hupdate
    rw [rank]
    omega
  rw [clientThread.eq_def] at hstep
  split at hstep
  · next hcreated =>
    cases hstep
    exact hphase _ _ hcreated (by simp) rfl
  · next client hstarted =>
    cases hstep
    exact hphase _ _ hstarted (by simp) rfl
  · cases hstep
    exact Nat.le_refl _
  · next client hreceived =>
    cases hstep
    exact hphase _ _ hreceived (by simp) rfl
  · next hclosed =>
    cases hstep
    exact hphase _ _ hclosed (by simp) rfl
  · cases hstep

/-- An access of the acceptor uses up one of its own, also if it hands the connection to a
handler. -/
theorem rank_processTcp4 (h : Consistent handlers s log) {a : AcceptorStep}
    (ha : (Action.acceptor a).isAccept = false)
    (hstep : processTcp4 handlers s a = some (s', out)) :
    rank handlers s' + (Action.acceptor a).isNext.toNat ≤ rank handlers s := by
  have hacceptor := h.acceptor
  rw [AcceptorOk] at hacceptor
  have hphase : ∀ (p q : Acceptor) (n : Nat), s.acceptor = q →
      p.rank handlers + n ≤ q.rank handlers →
      p.rank handlers + ∑ j ∈ Finset.range handlers, (s.handler j).rank + n
        ≤ rank handlers s := by
    intro p q n hq hrank
    rw [rank, hq]
    omega
  rw [processTcp4.eq_def] at hstep
  split at hstep
  · next ok hsetup =>
    cases hstep
    refine hphase _ _ 0 hsetup ?_
    cases ok with
    | true => exact Nat.le_refl 0
    | false => exact Nat.le_refl 0
  · cases ha
  · next haccepting =>
    cases hstep
    exact hphase .stopped _ 0 haccepting (Nat.le_refl 0)
  · next client inet i hscanning =>
    split at hstep
    · split at hstep
      · cases hstep
        refine hphase (.found client inet i) _ 1 hscanning ?_
        show 6 + 1 ≤ handlers - i + 7
        omega
      · cases hstep
        refine hphase (.scanning client inet (i + 1)) _ 1 hscanning ?_
        show handlers - (i + 1) + 7 + 1 ≤ handlers - i + 7
        omega
    · cases hstep
      refine hphase (.found client inet (-1)) _ 1 hscanning ?_
      show 6 + 1 ≤ handlers - i + 7
      omega
  · next client inet slot hfound =>
    split at hstep
    · cases hstep
      exact hphase .accepting _ 1 hfound (Nat.le_add_left 1 5)
    · cases hstep
      exact hphase (.creating inet slot.toNat) _ 1 hfound (Nat.le_refl 6)
  · next inet slot hcreating =>
    rw [hcreating] at hacceptor
    split at hstep
    · cases hstep
      have hupdate := sum_range_update Handler.rank s.handler .created hacceptor.1
      rw [hacceptor.2.1] at hupdate
      rw [rank, rank, hcreating]
      show 0 + ∑ j ∈ Finset.range handlers, (Function.update s.handler slot .created j).rank + 1
        ≤ 5 + ∑ j ∈ Finset.range handlers, (s.handler j).rank
      have hcreated : Handler.created.rank = 4 := rfl
      omega
    · cases hstep
      exact hphase .accepting _ 1 hcreating (Nat.le_add_left 1 4)
  · cases hstep

/-- An access uses up one of those that are left. -/
theorem rank_step (h : Consistent handlers s log) {a : Action} (ha : a.isAccept = false)
    (hstep : step handlers s a = some (s', out)) :
    rank handlers s' + a.isNext.toNat ≤ rank handlers s := by
  cases a with
  | handler i a => exact rank_clientThread h hstep
  | acceptor a => exact rank_processTcp4 h ha hstep

/-- A step of a handler leaves the other handlers alone. -/
theorem clientThread_handler {i j : Nat} {a : HandlerStep}
    (hstep : clientThread s j a = some (s', out)) (hij : i ≠ j) :
    s'.handler i = s.handler i := by
  rw [clientThread.eq_def] at hstep
  split at hstep
  · cases hstep
    exact Function.update_of_ne hij _ _
  · cases hstep
    exact Function.update_of_ne hij _ _
  · cases hstep
    rfl
  · cases hstep
    exact Function.update_of_ne hij _ _
  · cases hstep
    exact Function.update_of_ne hij _ _
  · cases hstep

/-- A handler that waits for the request stays there until its `recv` returns. -/
theorem started_step (h : Consistent handlers s log) {i : Nat} {client : Int}
    (hstarted : s.handler i = .started client) {a : Action} (ha : a ≠ .handler i .next)
    (hstep : step handlers s a = some (s', out)) : s'.handler i = .started client := by
  cases a with
  | acceptor a =>
    rcases (processTcp4_frame h hstep).2 i with ⟨hsame, -⟩ | ⟨habsent, -⟩
    · exact hsame.trans hstarted
    · rw [hstarted] at habsent
      cases habsent
  | handler j a =>
    by_cases hji : j = i
    · -- A handler in `recv` makes no `send`.
      cases a with
      | next => exact absurd (by rw [hji]) ha
      | send =>
        rw [step, clientThread.eq_def, hji, hstarted] at hstep
        cases hstep
    · exact (clientThread_handler hstep (fun hij => hji hij.symm)).trans hstarted

end Steps

/-! ### The bytes that are left -/

/-- A `send` of a handler. -/
def ServerAct.isSend : ServerAct → Bool
  | .send _ _ => true
  | _ => false

/-- The response to the request that a step receives. -/
def ServerAct.response (indexContent : List UInt8) : ServerAct → List UInt8
  | .recv _ o loc => responseTo indexContent o loc
  | _ => []

/-- The number of bytes that are left for `send`. -/
def bytesLeft (handlers : Nat) (s : Server) : Nat :=
  ∑ i ∈ Finset.range handlers, (s.job i).flatten.length

/-- A `send` takes a byte at least, or gives up the bytes that are left. -/
theorem length_sendStep {jobs jobs' : List (List UInt8)} {outLen : Int} {bytes : List UInt8}
    (hfull : [] ∉ jobs) (h : sendStep jobs outLen = some (jobs', bytes)) :
    [] ∉ jobs' ∧ jobs'.flatten.length + 1 ≤ jobs.flatten.length := by
  cases jobs with
  | nil => cases h
  | cons buf rest =>
    rw [List.mem_cons, not_or] at hfull
    have hbuf : 1 ≤ buf.length := List.length_pos_of_ne_nil (fun hnil => hfull.1 hnil.symm)
    rw [List.flatten_cons, List.length_append]
    rw [sendStep] at h
    split at h
    · cases h
      exact ⟨hfull.2, by omega⟩
    · split at h
      · next houtLen =>
        cases h
        by_cases hall : outLen = buf.length
        · rw [if_pos hall]
          exact ⟨hfull.2, by omega⟩
        · rw [if_neg hall, List.flatten_cons, List.length_append, List.length_drop,
            List.mem_cons, not_or]
          refine ⟨⟨fun hnil => ?_, hfull.2⟩, by omega⟩
          have hlength := congrArg List.length hnil
          rw [List.length_nil, List.length_drop] at hlength
          omega
      · cases h

section Sends

variable {handlers : Nat} {indexContent : List UInt8} {s s' : Server} {log : List Event}
  {out : List ServerEvent}

/-- A `send` uses up a byte of those that are left, and a request adds its response. No
empty buffer is left for `send`. -/
theorem bytesLeft_step (h : Consistent handlers s.listener log) (hfull : ∀ i, [] ∉ s.job i)
    {a : ServerAct} (hstep : s.step handlers indexContent a = some (s', out)) :
    (∀ i, [] ∉ s'.job i) ∧ bytesLeft handlers s' + a.isSend.toNat
      ≤ bytesLeft handlers s + (a.response indexContent).length := by
  have hjob : ∀ (i : Nat) (jobs : List (List UInt8)), [] ∉ jobs →
      ∀ j, [] ∉ Function.update s.job i jobs j := by
    intro i jobs hjobs j
    by_cases hji : j = i
    · rw [hji, Function.update_self]
      exact hjobs
    · rw [Function.update_of_ne hji]
      exact hfull j
  have hlt : ∀ i, s.listener.handler i ≠ .absent → i < handlers := fun i hbusy =>
    Nat.lt_of_not_le fun hge => hbusy (h.beyond i hge)
  cases a with
  | acceptor a =>
    obtain ⟨r, -, heq⟩ := Option.map_eq_some_iff.mp hstep
    cases heq
    exact ⟨hfull, Nat.le_refl _⟩
  | next i =>
    rw [Server.step] at hstep
    split at hstep
    · obtain ⟨r, -, heq⟩ := Option.map_eq_some_iff.mp hstep
      cases heq
      exact ⟨hfull, Nat.le_refl _⟩
    · cases hstep
  | recv i o loc =>
    rw [Server.step] at hstep
    split at hstep
    · next client hphase =>
      obtain ⟨r, -, hstep⟩ := Option.bind_eq_some_iff.mp hstep
      obtain ⟨bufs, hbufs, heq⟩ := Option.map_eq_some_iff.mp hstep
      cases heq
      refine ⟨hjob i _ (by simp), ?_⟩
      have hupdate := sum_range_update (fun jobs : List (List UInt8) => jobs.flatten.length)
        s.job (bufs.filter (· ≠ [])) (hlt i (by rw [hphase]; simp))
      have hresponse : (responseTo indexContent o loc).length
          = (bufs.filter (· ≠ [])).flatten.length := by
        rw [List.flatten_filter_ne_nil, responseTo, hbufs]
        rfl
      show ∑ j ∈ Finset.range handlers,
          (Function.update s.job i (bufs.filter (· ≠ [])) j).flatten.length + 0
        ≤ bytesLeft handlers s + (responseTo indexContent o loc).length
      rw [hresponse, bytesLeft]
      omega
    · cases hstep
  | send i outLen =>
    obtain ⟨r, hr, hstep⟩ := Option.bind_eq_some_iff.mp hstep
    obtain ⟨⟨jobs', bytes⟩, hsent, heq⟩ := Option.map_eq_some_iff.mp hstep
    cases heq
    have hthread : s.listener.handler i ≠ .absent := by
      intro habsent
      rw [clientThread.eq_def, habsent] at hr
      cases hr
    obtain ⟨hfull', hless⟩ := length_sendStep (hfull i) hsent
    refine ⟨hjob i jobs' hfull', ?_⟩
    have hupdate := sum_range_update (fun jobs : List (List UInt8) => jobs.flatten.length)
      s.job jobs' (hlt i hthread)
    show ∑ j ∈ Finset.range handlers, (Function.update s.job i jobs' j).flatten.length + 1
      ≤ bytesLeft handlers s + 0
    rw [bytesLeft]
    omega

end Sends

/-! ### Where an open connection is -/

/-- The acceptor has a connection that it has not stored. -/
def Acceptor.hasClient : Acceptor → Bool
  | .scanning _ _ _ => true
  | .found _ _ _ => true
  | _ => false

/-- The peer of the acceptor's connection is an IPv4 peer, if there is one. -/
def Acceptor.isInet : Acceptor → Bool
  | .scanning _ inet _ => inet
  | .found _ inet _ => inet
  | .creating inet _ => inet
  | _ => true

/-- A connection that is neither closed nor stored is the newest one, and the acceptor has
it. A slot without a handler is free, or it is about to get its handler. -/
structure Accountable (handlers : Nat) (s : Listener) (log : List Event) : Prop where
  inet : s.acceptor.isInet = true
  newest : ∀ c ∈ opens log, c ∈ closes log ∨ c ∈ (stores log).map Prod.snd ∨
    (s.acceptor.hasClient = true ∧ c + 1 = s.connections)
  slot : ∀ i < handlers, s.handler i = .absent → 0 ≤ s.tcp4Accepted i →
    s.acceptor = .creating true i

theorem accountable_init (handlers : Nat) (accepted : Nat → Int) :
    Accountable handlers (Listener.init handlers accepted) [] where
  inet := rfl
  newest c hc := absurd hc List.not_mem_nil
  slot i hi _ hnonneg := by
    have hfree : startListener handlers accepted i = -1 := startListener_of_lt accepted hi
    have hslot : 0 ≤ startListener handlers accepted i := hnonneg
    omega

section Accounts

variable {handlers : Nat} {s s' : Listener} {log out : List Event}

/-- What a step of a handler leaves alone. -/
theorem clientThread_frame {j : Nat} {a : HandlerStep}
    (hstep : clientThread s j a = some (s', out)) :
    s'.acceptor = s.acceptor ∧ s'.connections = s.connections ∧ opens out = [] ∧
      ∀ i, s'.handler i = .absent → 0 ≤ s'.tcp4Accepted i →
        s.handler i = .absent ∧ 0 ≤ s.tcp4Accepted i := by
  have hphase : ∀ p : Handler, p ≠ .absent → ∀ i, Function.update s.handler j p i = .absent →
      0 ≤ s.tcp4Accepted i → s.handler i = .absent ∧ 0 ≤ s.tcp4Accepted i := by
    intro p hp i habsent hnonneg
    by_cases hij : i = j
    · rw [hij, Function.update_self] at habsent
      exact absurd habsent hp
    · rw [Function.update_of_ne hij] at habsent
      exact ⟨habsent, hnonneg⟩
  have hsocket : ∀ (event : Nat → Event) (connection : Option Nat),
      (∀ c, opens [event c] = []) → opens (onSocket event connection) = [] := by
    intro event connection hevent
    cases connection with
    | none => rfl
    | some c => exact hevent c
  rw [clientThread.eq_def] at hstep
  split at hstep
  · cases hstep
    exact ⟨rfl, rfl, rfl, hphase _ (by simp)⟩
  · cases hstep
    exact ⟨rfl, rfl, hsocket _ _ fun _ => rfl, hphase _ (by simp)⟩
  · cases hstep
    exact ⟨rfl, rfl, hsocket _ _ fun _ => rfl, fun i habsent hnonneg => ⟨habsent, hnonneg⟩⟩
  · cases hstep
    exact ⟨rfl, rfl, hsocket _ _ fun _ => rfl, hphase _ (by simp)⟩
  · cases hstep
    refine ⟨rfl, rfl, rfl, fun i habsent hnonneg => ?_⟩
    by_cases hij : i = j
    · have hfree : 0 ≤ Function.update s.tcp4Accepted j (-1) i := hnonneg
      rw [hij, Function.update_self] at hfree
      exact absurd hfree (by decide)
    · have habsent' : Function.update s.handler j .absent i = .absent := habsent
      have hnonneg' : 0 ≤ Function.update s.tcp4Accepted j (-1) i := hnonneg
      rw [Function.update_of_ne hij] at habsent' hnonneg'
      exact ⟨habsent', hnonneg'⟩
  · cases hstep

/-- A connection that is closed or stored stays so. -/
theorem closed_or_stored_append {c : Nat}
    (h : c ∈ closes log ∨ c ∈ (stores log).map Prod.snd) :
    c ∈ closes (log ++ out) ∨ c ∈ (stores (log ++ out)).map Prod.snd := by
  rw [closes_append, stores_append, List.map_append, List.mem_append, List.mem_append]
  exact h.imp Or.inl Or.inl

theorem Accountable.clientThread (h : Accountable handlers s log) {j : Nat} {a : HandlerStep}
    (hstep : clientThread s j a = some (s', out)) : Accountable handlers s' (log ++ out) := by
  obtain ⟨hacceptor, hconnections, hopens, hslots⟩ := clientThread_frame hstep
  refine ⟨?_, fun c hc => ?_, fun i hi habsent hnonneg => ?_⟩
  · rw [hacceptor]
    exact h.inet
  · rw [opens_append, hopens, List.append_nil] at hc
    rw [hacceptor, hconnections, ← or_assoc]
    exact (or_assoc.mpr (h.newest c hc)).imp closed_or_stored_append id
  · obtain ⟨habsent', hnonneg'⟩ := hslots i habsent hnonneg
    rw [hacceptor]
    exact h.slot i hi habsent' hnonneg'

/-- A new phase of the acceptor that keeps its connection. -/
theorem Accountable.setAcceptor (h : Accountable handlers s log) {p : Acceptor}
    (hinet : p.isInet = true) (hclient : s.acceptor.hasClient = true → p.hasClient = true)
    (hcreating : ∀ i, s.acceptor ≠ .creating true i) :
    Accountable handlers { s with acceptor := p } (log ++ []) := by
  rw [List.append_nil]
  refine ⟨hinet, fun c hc => ?_, fun i hi habsent hnonneg => ?_⟩
  · exact (h.newest c hc).imp id (Or.imp id (And.imp hclient id))
  · exact absurd (h.slot i hi habsent hnonneg) (hcreating i)

/-- The acceptor closes its connection or stores it, and so nothing is left out. -/
theorem Accountable.settle (h : Accountable handlers s log) (hok : Consistent handlers s log)
    {client : Int} {c n : Nat} (hp : Pending s.table log client c n) (hopens : opens out = [])
    (hsettled : c ∈ closes out ∨ c ∈ (stores out).map Prod.snd) :
    ∀ c' ∈ opens (log ++ out),
      c' ∈ closes (log ++ out) ∨ c' ∈ (stores (log ++ out)).map Prod.snd := by
  -- The connection in hand is the newest one.
  have hnewest : c + 1 = s.connections := by
    have hopen := hok.isOpen client c hp.isOpen
    exact (((h.newest c hopen.1).resolve_left hopen.2).resolve_left hp.unstored).2
  intro c' hc'
  rw [opens_append, hopens, List.append_nil] at hc'
  rcases or_assoc.mpr (h.newest c' hc') with hold | ⟨-, hlast⟩
  · exact closed_or_stored_append hold
  · rw [show c' = c by omega, closes_append, stores_append, List.map_append, List.mem_append,
      List.mem_append]
    exact hsettled.imp Or.inr Or.inr

theorem Accountable.processTcp4 (h : Accountable handlers s log)
    (hok : Consistent handlers s log) {a : AcceptorStep}
    (ha : ∀ fd inet, a = .accept fd inet → inet = true)
    (hstep : processTcp4 handlers s a = some (s', out)) :
    Accountable handlers s' (log ++ out) := by
  have hinet := h.inet
  have hacceptor := hok.acceptor
  have hsettled : s.acceptor.hasClient = false → ∀ c ∈ opens log,
      c ∈ closes log ∨ c ∈ (stores log).map Prod.snd := by
    intro hnone c hc
    refine (or_assoc.mpr (h.newest c hc)).resolve_right fun hclient => ?_
    rw [hnone] at hclient
    exact Bool.false_ne_true hclient.1
  rw [AcceptorOk] at hacceptor
  rw [Esp32.processTcp4.eq_def] at hstep
  split at hstep
  · next ok hphase =>
    cases hstep
    refine h.setAcceptor (by cases ok <;> rfl) ?_ (by simp [hphase])
    rw [hphase]
    intro hclient
    cases hclient
  · next fd inet hphase =>
    split at hstep
    · cases hstep
    · cases hstep
      rw [hphase] at hsettled
      refine ⟨ha fd inet rfl, fun c hc => ?_, fun i hi habsent hnonneg => ?_⟩
      · rw [opens_append, List.mem_append] at hc
        rcases hc with hc | hc
        · rw [← or_assoc]
          exact Or.inl (closed_or_stored_append (hsettled rfl c hc))
        · rw [List.mem_singleton.mp hc]
          exact Or.inr (Or.inr ⟨rfl, rfl⟩)
      · have hslot := h.slot i hi habsent hnonneg
        rw [hphase] at hslot
        cases hslot
  · next hphase =>
    cases hstep
    refine h.setAcceptor rfl ?_ (by simp [hphase])
    rw [hphase]
    intro hclient
    cases hclient
  · next client inet i hphase =>
    rw [hphase] at hinet
    split at hstep
    · split at hstep
      · cases hstep
        exact h.setAcceptor hinet (fun _ => rfl) (by simp [hphase])
      · cases hstep
        exact h.setAcceptor hinet (fun _ => rfl) (by simp [hphase])
    · cases hstep
      exact h.setAcceptor hinet (fun _ => rfl) (by simp [hphase])
  · next client inet slot hphase =>
    rw [hphase] at hacceptor hinet
    have hnotCreating : ∀ i, s.acceptor ≠ .creating true i := by simp [hphase]
    split at hstep
    · next hslot =>
      cases hstep
      rcases hacceptor with ⟨_, c, hp⟩ | ⟨i, rfl, hi, _⟩
      · rw [hp.isOpen]
        refine ⟨rfl, fun c' hc' => ?_, fun i hi habsent hnonneg => ?_⟩
        · rw [← or_assoc]
          exact Or.inl (h.settle hok hp rfl (Or.inl List.mem_cons_self) c' hc')
        · exact absurd (h.slot i hi habsent hnonneg) (hnotCreating i)
      · omega
    · next hslot =>
      cases hstep
      rcases hacceptor with ⟨hneg, _⟩ | ⟨j, rfl, hj, hfree, c, hp⟩
      · omega
      · rw [hp.isOpen]
        refine ⟨hinet, fun c' hc' => ?_, fun i hi habsent hnonneg => ?_⟩
        · rw [← or_assoc]
          exact Or.inl (h.settle hok hp rfl (Or.inr List.mem_cons_self) c' hc')
        · show Acceptor.creating inet j = .creating true i
          by_cases hij : i = j
          · rw [hij, show inet = true from hinet]
          · have hnonneg' : 0 ≤ Function.update s.tcp4Accepted j client i := hnonneg
            rw [Function.update_of_ne hij] at hnonneg'
            exact absurd (h.slot i hi habsent hnonneg') (hnotCreating i)
  · next inet slot hphase =>
    rw [hphase] at hinet hsettled
    rw [show inet = true from hinet] at hstep hphase
    cases hstep
    rw [List.append_nil]
    refine ⟨rfl, fun c hc => ?_, fun i hi habsent hnonneg => ?_⟩
    · rw [← or_assoc]
      exact Or.inl (hsettled rfl c hc)
    · -- The slot gets its handler.
      have habsent' : Function.update s.handler slot .created i = .absent := habsent
      by_cases hij : i = slot
      · rw [hij, Function.update_self] at habsent'
        cases habsent'
      · rw [Function.update_of_ne hij] at habsent'
        have hslot := h.slot i hi habsent' hnonneg
        rw [hphase] at hslot
        cases hslot
        exact absurd rfl hij
  · cases hstep

end Accounts

/-! ### Runs -/

/-- The peer of a new connection is an IPv4 peer. -/
def Action.isInet : Action → Bool
  | .acceptor (.accept _ inet) => inet
  | _ => true

theorem Accountable.step {handlers : Nat} {s s' : Listener} {log out : List Event}
    (h : Accountable handlers s log) (hok : Consistent handlers s log) {a : Action}
    (ha : a.isInet = true) (hstep : step handlers s a = some (s', out)) :
    Accountable handlers s' (log ++ out) := by
  cases a with
  | acceptor a =>
    refine h.processTcp4 hok (fun fd inet heq => ?_) hstep
    rw [heq] at ha
    exact ha
  | handler i a => exact h.clientThread hstep

/-- An idle server has closed every connection, and all its slots are free. -/
theorem closed_of_idle {handlers : Nat} {s : Listener} {log : List Event}
    (h : Accountable handlers s log) (hok : Consistent handlers s log)
    (hidle : Idle handlers s) :
    (∀ c ∈ opens log, c ∈ closes log) ∧ ∀ i < handlers, s.tcp4Accepted i < 0 := by
  have hfree : ∀ i < handlers, s.tcp4Accepted i < 0 := by
    intro i hi
    by_contra hnonneg
    have hslot := h.slot i hi (hidle.2 i hi) (Int.not_lt.mp hnonneg)
    have hacceptor := hidle.1
    rw [hslot] at hacceptor
    cases hacceptor
  refine ⟨fun c hc => ?_, hfree⟩
  rcases h.newest c hc with hclosed | hstored | ⟨hclient, -⟩
  · exact hclosed
  · -- The slot is free, so it does not hold the connection any more.
    obtain ⟨⟨i, c'⟩, hmem, rfl⟩ := List.mem_map.mp hstored
    have hi : i < handlers := List.mem_range.mp (hok.lawful.slot_mem hmem)
    refine (hok.lawful.holder_or_closed hmem).resolve_left fun hheld => ?_
    rw [(PhaseOk.free (hok.slot i hi) (hfree i hi)).2] at hheld
    cases hheld
  · have hacceptor := hidle.1
    cases hphase : s.acceptor with
    | scanning client inet i =>
      rw [hphase] at hacceptor
      cases hacceptor
    | found client inet slot =>
      rw [hphase] at hacceptor
      cases hacceptor
    | _ =>
      rw [hphase] at hclient
      cases hclient

/-- The invariant: the connections are accounted for, and no empty buffer is left for
`send`. -/
structure Drainable (handlers : Nat) (s : Server) (log : List ServerEvent) : Prop where
  consistent : Consistent handlers s.listener (slots log)
  accountable : Accountable handlers s.listener (slots log)
  full : ∀ i, [] ∉ s.job i

theorem drainable_init (handlers : Nat) (accepted : Nat → Int) :
    Drainable handlers (Server.init handlers accepted) [] where
  consistent := consistent_init handlers accepted
  accountable := accountable_init handlers accepted
  full _ := List.not_mem_nil

section Runs

variable {handlers : Nat} {indexContent : List UInt8} {s s' : Server}
  {log out : List ServerEvent}

theorem Drainable.step (h : Drainable handlers s log) {a : ServerAct}
    (ha : a.access.isInet = true) (hstep : s.step handlers indexContent a = some (s', out)) :
    Drainable handlers s' (log ++ out) := by
  have hlistener := listener_step hstep
  refine ⟨?_, ?_, (bytesLeft_step h.consistent h.full hstep).1⟩
  · rw [slots_append]
    exact h.consistent.step hlistener
  · rw [slots_append]
    exact h.accountable.step h.consistent ha hlistener

/-- A peer that does not come is no peer of another family. -/
theorem isInet_of_not_isAccept {a : Action} (h : a.isAccept = false) : a.isInet = true := by
  cases a with
  | handler i a => rfl
  | acceptor a =>
    cases a with
    | accept fd inet => cases h
    | _ => rfl

/-- Without a new connection the threads make only so many accesses. -/
theorem countP_isNext_le (h : Drainable handlers s log) {more : List ServerAct}
    (hmore : ∀ a ∈ more, a.access.isAccept = false)
    (hrun : runLog (Server.step handlers indexContent) s more = some (s', out)) :
    more.countP (·.access.isNext) ≤ rank handlers s.listener := by
  have hmeasure := runLog_measure (Server.step handlers indexContent)
    (P := fun a : ServerAct => a.access.isAccept = false) (J := Drainable handlers)
    (fun s => rank handlers s.listener) (·.access.isNext) (fun _ => 0)
    (fun _ _ _ _ _ ha h hstep => h.step (isInet_of_not_isAccept ha) hstep)
    (fun _ _ _ _ _ ha h hstep => rank_step h.consistent ha (listener_step hstep)) hmore h hrun
  rw [List.map_const', List.sum_replicate_nat] at hmeasure
  omega

/-- The threads make only so many sends. -/
theorem countP_isSend_le (h : Drainable handlers s log) {more : List ServerAct}
    (hmore : ∀ a ∈ more, a.access.isInet = true)
    (hrun : runLog (Server.step handlers indexContent) s more = some (s', out)) :
    more.countP ServerAct.isSend
      ≤ bytesLeft handlers s + (more.flatMap (ServerAct.response indexContent)).length := by
  have hmeasure := runLog_measure (Server.step handlers indexContent)
    (P := fun a : ServerAct => a.access.isInet = true) (J := Drainable handlers)
    (bytesLeft handlers) ServerAct.isSend (fun a => (a.response indexContent).length)
    (fun _ _ _ _ _ ha h hstep => h.step ha hstep)
    (fun _ _ _ _ _ _ h hstep => (bytesLeft_step h.consistent h.full hstep).2) hmore h hrun
  rw [List.length_flatMap]
  omega

/-- Until its `recv` returns, a handler keeps its slot. -/
theorem keeps_slot (h : Drainable handlers s log) {i : Nat} {client : Int}
    (hstarted : s.listener.handler i = .started client) {more : List ServerAct}
    (hmore : ∀ a ∈ more, a.access.isInet = true ∧ ∀ o loc, a ≠ .recv i o loc)
    (hrun : runLog (Server.step handlers indexContent) s more = some (s', out)) :
    s'.listener.handler i = .started client ∧ 0 ≤ s'.listener.tcp4Accepted i := by
  have hinv : Drainable handlers s' (log ++ out) ∧ s'.listener.handler i = .started client := by
    refine runLog_history_of_forall (Server.step handlers indexContent)
      (P := fun a : ServerAct => a.access.isInet = true ∧ ∀ o loc, a ≠ .recv i o loc)
      (J := fun s log => Drainable handlers s log ∧ s.listener.handler i = .started client)
      ?_ hmore ⟨h, hstarted⟩ hrun
    rintro s log a s' out ⟨hinet, hrecv⟩ ⟨h, hstarted⟩ hstep
    refine ⟨h.step hinet hstep, started_step h.consistent hstarted ?_ (listener_step hstep)⟩
    -- An access of the handler is the return of its `recv`.
    intro haccess
    cases a with
    | acceptor a => cases haccess
    | next j =>
      cases haccess
      rw [Server.step, hstarted] at hstep
      cases hstep
    | recv j o loc =>
      cases haccess
      exact hrecv o loc rfl
    | send j outLen => cases haccess
  obtain ⟨h', hstarted'⟩ := hinv
  refine ⟨hstarted', ?_⟩
  have hi : i < handlers := by
    by_contra hge
    rw [h'.consistent.beyond i (Nat.le_of_not_lt hge)] at hstarted'
    cases hstarted'
  have hslot := h'.consistent.slot i hi
  rw [SlotOk, hstarted'] at hslot
  exact hslot.2.1

end Runs

/-- What holds in every state of the server, with `handlers` slots.

* `closed`: when the server is idle, every connection is closed and every slot is free.
* `live`: while it is not, some thread has an access to make by itself, or its client keeps
  it waiting in `recv` or in a `send`.
* `accesses`: until there is a new connection, the threads together make at most so many
  accesses, the returns of `recv` included.
* `sends`: they make at most one `send` for each byte that is left now or that is in a
  response to a request received meanwhile.
* `silent`: a client that sends nothing keeps its slot. -/
structure Drains (handlers : Nat) (indexContent : List UInt8) (s : Server)
    (log : List ServerEvent) : Prop where
  closed : Idle handlers s.listener → (∀ c ∈ opens (slots log), c ∈ closes (slots log)) ∧
    ∀ i < handlers, s.listener.tcp4Accepted i < 0
  live : ¬ Idle handlers s.listener →
    (∃ a r, ServerAct.isOwn a = true ∧ s.step handlers indexContent a = some r) ∨
      ∃ i < handlers, s.Waits i
  accesses : ∀ (more : List ServerAct) (s' : Server) (out : List ServerEvent),
    (∀ a ∈ more, a.access.isAccept = false) →
    runLog (Server.step handlers indexContent) s more = some (s', out) →
      more.countP (·.access.isNext) ≤ 5 * handlers + 7
  sends : ∀ (more : List ServerAct) (s' : Server) (out : List ServerEvent),
    (∀ a ∈ more, a.access.isInet = true) →
    runLog (Server.step handlers indexContent) s more = some (s', out) →
      more.countP ServerAct.isSend
        ≤ bytesLeft handlers s + (more.flatMap (ServerAct.response indexContent)).length
  silent : ∀ (i : Nat) (client : Int), s.listener.handler i = .started client →
    ∀ (more : List ServerAct) (s' : Server) (out : List ServerEvent),
      (∀ a ∈ more, a.access.isInet = true ∧ ∀ o loc, a ≠ .recv i o loc) →
      runLog (Server.step handlers indexContent) s more = some (s', out) →
        s'.listener.handler i = .started client ∧ 0 ≤ s'.listener.tcp4Accepted i

/-- Every connection is closed when its client has done its part, whatever the order in
which the acceptor and the handlers work. -/
theorem drains (handlers : Nat) (indexContent : List UInt8) (accepted : Nat → Int)
    {acts : List ServerAct} (hinet : ∀ a ∈ acts, a.access.isInet = true) {s : Server}
    {log : List ServerEvent}
    (hrun : runLog (Server.step handlers indexContent) (Server.init handlers accepted) acts
      = some (s, log)) : Drains handlers indexContent s log := by
  have h : Drainable handlers s ([] ++ log) :=
    runLog_history_of_forall (Server.step handlers indexContent)
      (fun _ _ _ _ _ ha h hstep => h.step ha hstep) hinet (drainable_init handlers accepted)
      hrun
  rw [List.nil_append] at h
  refine ⟨closed_of_idle h.accountable h.consistent, exists_isOwn,
    fun more s' out hmore hmoreRun => ?_, fun more s' out => countP_isSend_le h,
    fun i client hstarted more s' out => keeps_slot h hstarted⟩
  exact (countP_isNext_le h hmore hmoreRun).trans (rank_le handlers s.listener)

/-- Of three connections that come at once the third finds no slot. The first two get the
start page, and the server is idle again. -/
def threeConnections : List ServerAct :=
  [.acceptor (.setup true), .acceptor (.accept 5 true), .acceptor .next, .acceptor .next,
    .acceptor .next, .acceptor (.accept 6 true), .acceptor .next, .acceptor .next,
    .acceptor .next, .acceptor .next, .next 1, .acceptor (.accept 7 true), .acceptor .next,
    .acceptor .next, .acceptor .next, .acceptor .next, .recv 1 getIndex ⟨[0, 0], [0], [0]⟩,
    .next 0, .send 1 1, .recv 0 getIndex ⟨[7, 0], [0], [0]⟩, .send 0 2, .next 0, .send 1 1,
    .next 1, .next 1, .next 0]

theorem drains_three :
    ∃ s log, runLog (Server.step CONFIG_NET_SAMPLE_NUM_HANDLERS [104, 105])
        (Server.init CONFIG_NET_SAMPLE_NUM_HANDLERS fun _ => 0) threeConnections
          = some (s, log) ∧
      closes (slots log) = [2, 0, 1] ∧ Drains CONFIG_NET_SAMPLE_NUM_HANDLERS [104, 105] s log :=
  ⟨_, _, rfl, rfl, @drains CONFIG_NET_SAMPLE_NUM_HANDLERS [104, 105] (fun _ => 0)
    threeConnections (by decide) _ _ rfl⟩

end UpsFirmware.Esp32
