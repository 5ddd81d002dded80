import UpsFirmware.Esp32.Listener
import UpsFirmware.Esp32.Response
import UpsFirmware.Esp32.Sendall

/-!
# `UpsFirmware.Esp32.Server`: every client gets its own response

`Esp32.Listener` has the threads of the web server without what they send, and
`Esp32.Response` and `Esp32.Sendall` have one handler without the other threads. `Server`
is both: each `recv` and each `send` of a handler is a step, and between two of them any
other thread may go on.

A handler sends to the descriptor that it has read from its slot. The bytes go to the
connection that is behind this descriptor at that moment, which the handler does not know.
`own_response` says that it is the connection that the request came from. So a client gets
the response to its own request or the front of it, and nothing else, although descriptors
and slots are used again and again. A request is what `recv` returns together with what the
arrays of the handler held before, which the parsing may read.

`Delivers` is the invariant. It rests on the ownership of the connections, which the steps
of the server have from `Esp32.Listener` (`listener_step`).
-/

set_option autoImplicit false

namespace UpsFirmware.Esp32

open Lib Lib.SlotEvent

/-! ### The handlers with their bytes -/

/-- The access stays inside the array that it stores in. -/
def Access.inside : Access → Bool
  | .readBuf _ => true
  | .writeMethod i _ => i < METHOD_SIZE
  | .writePath i _ => i < PATH_SIZE

section

variable (indexContent : List UInt8)

/-- The buffers that a handler gives to `sendall`. `none` is a store behind `method`, `path`
or `response`, or a `%s` of NULL. -/
def buffers (o : Recv) (loc : Locals) : Option (List (List UInt8)) :=
  if (clientConnHandler o loc).1.all Access.inside then
    (serve indexContent o loc).map responses
  else none

/-- A handler makes at most one response. -/
theorem length_buffers_le {o : Recv} {loc : Locals} {bufs : List (List UInt8)}
    (h : buffers indexContent o loc = some bufs) : bufs.length ≤ 1 := by
  rw [buffers] at h
  split at h
  · obtain ⟨fx, hserve, rfl⟩ := Option.map_eq_some_iff.mp h
    exact (serve_one_response hserve).1
  · cases h

/-- The bytes of the response to a request. -/
def responseTo (o : Recv) (loc : Locals) : List UInt8 :=
  ((buffers indexContent o loc).getD []).flatten

end

/-- A `send` of what is left of the first buffer: what is left then, and the bytes that it
has accepted. An error ends the `sendall`. `none` is a result that `send` does not have. -/
def sendStep : List (List UInt8) → Int → Option (List (List UInt8) × List UInt8)
  | [], _ => none
  | buf :: rest, outLen =>
    if outLen < 0 then some (rest, [])
    else if 1 ≤ outLen ∧ outLen ≤ buf.length then
      some (if outLen = buf.length then rest else buf.drop outLen.toNat :: rest,
        buf.take outLen.toNat)
    else none

/-- The listener, and what the handler of each slot has left for `send`. There is no empty
buffer in it, since `sendall` does not call `send` for one. -/
structure Server where
  listener : Listener
  job : Nat → List (List UInt8)

/-- A step of the acceptor, the next access of a handler, or the return of its `recv` or of
a `send`. -/
inductive ServerAct where
  | acceptor (a : AcceptorStep)
  | next (i : Nat)
  | recv (i : Nat) (o : Recv) (loc : Locals)
  | send (i : Nat) (outLen : Int)

/-- What a connection carries: a request, bytes for the client, or the error of a `send`. -/
inductive Traffic where
  | request (o : Recv) (loc : Locals)
  | delivered (bytes : List UInt8)
  | failed

/-- What happens to the slots, and on a connection. -/
inductive ServerEvent where
  | slot (e : Event)
  | traffic (c : Nat) (t : Traffic)

/-- The next access is a step of its own: it is no `recv`, and nothing is left for `send`. -/
def Handler.goesOn (jobs : List (List UInt8)) : Handler → Bool
  | .started _ => false
  | .received _ => jobs.isEmpty
  | _ => true

/-- The descriptor that a handler works with. -/
def Handler.client : Handler → Option Int
  | .started client => some client
  | .received client => some client
  | _ => none

namespace Server

variable (handlers : Nat) (indexContent : List UInt8)

/-- The server when `start_listener` has started the thread. -/
def init (accepted : Nat → Int) : Server := ⟨Listener.init handlers accepted, fun _ => []⟩

/-- The connection behind the descriptor of a handler. -/
def connection (s : Server) (i : Nat) : Option Nat :=
  (s.listener.handler i).client.bind s.listener.table

/-- One step, and what happens in it. -/
def step (s : Server) : ServerAct → Option (Server × List ServerEvent)
  | .acceptor a =>
    (processTcp4 handlers s.listener a).map fun r => (⟨r.1, s.job⟩, r.2.map .slot)
  | .next i =>
    if (s.listener.handler i).goesOn (s.job i) then
      (clientThread s.listener i .next).map fun r => (⟨r.1, s.job⟩, r.2.map .slot)
    else none
  | .recv i o loc =>
    match s.listener.handler i with
    | .started _ =>
      (clientThread s.listener i .next).bind fun r =>
        (buffers indexContent o loc).map fun bufs =>
          (⟨r.1, Function.update s.job i (bufs.filter (· ≠ []))⟩,
            r.2.map .slot ++ (s.connection i).toList.map (.traffic · (.request o loc)))
    | _ => none
  | .send i outLen =>
    (clientThread s.listener i .send).bind fun r =>
      (sendStep (s.job i) outLen).map fun sent =>
        (⟨r.1, Function.update s.job i sent.1⟩,
          r.2.map .slot ++ (s.connection i).toList.map
            (.traffic · (if outLen < 0 then .failed else .delivered sent.2)))

end Server

/-! ### What a history says -/

/-- What happened to the slots. -/
def slots (log : List ServerEvent) : List Event :=
  log.filterMap fun e =>
    match e with
    | .slot e => some e
    | .traffic _ _ => none

/-- What a connection carried. -/
def traffic (c : Nat) (log : List ServerEvent) : List Traffic :=
  log.filterMap fun e =>
    match e with
    | .slot _ => none
    | .traffic c' t => if c' = c then some t else none

/-- The requests on a connection, with the arrays of the handler at that time. -/
def requests (ts : List Traffic) : List (Recv × Locals) :=
  ts.filterMap fun t =>
    match t with
    | .request o loc => some (o, loc)
    | _ => none

/-- The bytes that the client gets. -/
def inbox (ts : List Traffic) : List UInt8 :=
  ts.flatMap fun t =>
    match t with
    | .delivered bytes => bytes
    | _ => []

theorem slots_append (log out : List ServerEvent) :
    slots (log ++ out) = slots log ++ slots out := List.filterMap_append

theorem traffic_append (c : Nat) (log out : List ServerEvent) :
    traffic c (log ++ out) = traffic c log ++ traffic c out := List.filterMap_append

theorem requests_append (ts us : List Traffic) :
    requests (ts ++ us) = requests ts ++ requests us := List.filterMap_append

theorem inbox_append (ts us : List Traffic) : inbox (ts ++ us) = inbox ts ++ inbox us :=
  List.flatMap_append

theorem slots_map_slot (es : List Event) : slots (es.map .slot) = es := by
  induction es with
  | nil => rfl
  | cons e es ih =>
    show e :: slots (es.map .slot) = e :: es
    rw [ih]

theorem traffic_map_slot (c : Nat) (es : List Event) : traffic c (es.map .slot) = [] := by
  induction es with
  | nil => rfl
  | cons e es ih => exact ih

theorem slots_map_traffic (cs : List Nat) (t : Traffic) :
    slots (cs.map (.traffic · t)) = [] := by
  induction cs with
  | nil => rfl
  | cons c cs ih => exact ih

/-! ### A step is a step of the listener -/

/-- The step of the listener in a step of the server. -/
def ServerAct.access : ServerAct → Action
  | .acceptor a => .acceptor a
  | .next i => .handler i .next
  | .recv i _ _ => .handler i .next
  | .send i _ => .handler i .send

/-- Every step of the server is a step of the listener. -/
theorem listener_step {handlers : Nat} {indexContent : List UInt8} {s s' : Server}
    {a : ServerAct} {out : List ServerEvent}
    (hstep : s.step handlers indexContent a = some (s', out)) :
    step handlers s.listener a.access = some (s'.listener, slots out) := by
  cases a with
  | acceptor a =>
    obtain ⟨r, hr, heq⟩ := Option.map_eq_some_iff.mp hstep
    cases heq
    rw [slots_map_slot]
    exact hr
  | next i =>
    rw [Server.step] at hstep
    split at hstep
    · obtain ⟨r, hr, heq⟩ := Option.map_eq_some_iff.mp hstep
      cases heq
      rw [slots_map_slot]
      exact hr
    · cases hstep
  | recv i o loc =>
    rw [Server.step] at hstep
    split at hstep
    · obtain ⟨r, hr, hstep⟩ := Option.bind_eq_some_iff.mp hstep
      obtain ⟨bufs, -, heq⟩ := Option.map_eq_some_iff.mp hstep
      cases heq
      rw [slots_append, slots_map_slot, slots_map_traffic, List.append_nil]
      exact hr
    · cases hstep
  | send i outLen =>
    obtain ⟨r, hr, hstep⟩ := Option.bind_eq_some_iff.mp hstep
    obtain ⟨sent, -, heq⟩ := Option.map_eq_some_iff.mp hstep
    cases heq
    rw [slots_append, slots_map_slot, slots_map_traffic, List.append_nil]
    exact hr

/-! ### `sendall` -/

/-- The calls of `send` in `sendall` are steps of the server, and they deliver the bytes that
they accept. -/
theorem runLog_sendStep {sock : Socket} {fuel call : Nat} {buf : List UInt8} {len : UInt32}
    {ret : Int} {calls : List SendCall} (hlen : len.toNat = buf.length)
    (h : sendallLoop sock fuel call buf len = some (ret, calls)) :
    runLog sendStep ([buf].filter (· ≠ [])) (calls.map SendCall.result)
      = some ([], accepted calls) := by
  induction fuel generalizing call buf len ret calls with
  | zero => cases h
  | succ fuel ih =>
    rw [sendallLoop] at h
    by_cases hzero : len = 0
    · rw [if_neg (fun hne => hne hzero)] at h
      cases h
      have hnil : buf = [] := List.length_eq_zero_iff.mp (by rw [← hlen, hzero]; rfl)
      rw [hnil]
      rfl
    · rw [if_pos hzero] at h
      have hne : buf ≠ [] := by
        intro hnil
        rw [hnil] at hlen
        exact hzero (UInt32.toNat_inj.mp hlen)
      rw [List.filter_cons_of_pos (by simpa using hne), List.filter_nil]
      dsimp only at h
      split at h
      · next hneg =>
        -- The error is the only call.
        cases h
        rw [List.map_singleton, runLog_singleton, sendStep, if_pos hneg]
        show _ = some ([], ((buf.take len.toNat).take (sock.send call len).toNat) ++ [])
        rw [Int.toNat_of_nonpos (Int.le_of_lt hneg), List.take_zero, List.append_nil]
      · next hnonneg =>
        obtain ⟨⟨ret', calls'⟩, hloop, heq⟩ := Option.map_eq_some_iff.mp h
        cases heq
        obtain ⟨hpos, hle⟩ := (sock.result call len hzero).resolve_left hnonneg
        have hrest := ih (by rw [toNat_sub_ofInt hpos hle, List.length_drop, hlen]) hloop
        have hfirst : sendStep [buf] (sock.send call len)
            = some ([buf.drop (sock.send call len).toNat].filter (· ≠ []),
                buf.take (sock.send call len).toNat) := by
          rw [sendStep, if_neg hnonneg, if_pos ⟨hpos, by rw [← hlen]; exact hle⟩]
          by_cases hall : sock.send call len = buf.length
          · rw [if_pos hall, hall, Int.toNat_natCast, List.drop_length]
            rfl
          · rw [if_neg hall, List.filter_cons_of_pos, List.filter_nil]
            simp only [ne_eq, decide_eq_true_eq, List.drop_eq_nil_iff]
            omega
        rw [List.map_cons, runLog_cons_of_some sendStep _ hfirst, hrest]
        show some ([], _) = some ([], (buf.take len.toNat).take _ ++ accepted calls')
        rw [hlen, List.take_length]

/-! ### One connection -/

/-- What a connection has carried while its handler has `jobs` left for `send`: one request,
and the response to it but for what is left. Behind an error nothing is left. -/
def Underway (indexContent : List UInt8) (jobs : List (List UInt8)) (ts : List Traffic) : Prop :=
  jobs.length ≤ 1 ∧ ∃ o loc, requests ts = [(o, loc)] ∧
    (.failed ∉ ts ∧ inbox ts ++ jobs.flatten = responseTo indexContent o loc ∨
      .failed ∈ ts ∧ jobs = [] ∧ inbox ts <+: responseTo indexContent o loc)

section Connection

variable {indexContent : List UInt8}

/-- A request came, and nothing is sent yet. -/
theorem underway_request {o : Recv} {loc : Locals} {bufs : List (List UInt8)}
    (h : buffers indexContent o loc = some bufs) :
    Underway indexContent (bufs.filter (· ≠ [])) [.request o loc] := by
  have hle := length_buffers_le indexContent h
  refine ⟨(List.length_filter_le _ bufs).trans hle, o, loc, rfl, Or.inl ⟨by simp, ?_⟩⟩
  rw [List.flatten_filter_ne_nil, responseTo, h]
  rfl

/-- A `send` moves bytes from what is left to the client, or gives them up. -/
theorem Underway.send {jobs jobs' : List (List UInt8)} {ts : List Traffic} {outLen : Int}
    {bytes : List UInt8} (h : Underway indexContent jobs ts)
    (hsend : sendStep jobs outLen = some (jobs', bytes)) :
    Underway indexContent jobs'
      (ts ++ [if outLen < 0 then .failed else .delivered bytes]) := by
  obtain ⟨hle, o, loc, hrequests, hjobs⟩ := h
  match jobs with
  | [] => cases hsend
  | buf :: rest =>
    -- There is one buffer, and no `send` has failed.
    have hrest : rest = [] := List.length_eq_zero_iff.mp (by simpa using hle)
    obtain ⟨hgood, hall⟩ := hjobs.resolve_right fun hbad => by cases hbad.2.1
    rw [hrest, List.flatten_singleton] at hall
    rw [hrest, sendStep] at hsend
    split at hsend
    · next hneg =>
      cases hsend
      rw [if_pos hneg]
      refine ⟨Nat.zero_le 1, o, loc, ?_, Or.inr ⟨by simp, rfl, ?_⟩⟩
      · rw [requests_append, hrequests]
        rfl
      · rw [inbox_append, ← hall]
        show inbox ts ++ [] <+: inbox ts ++ buf
        rw [List.append_nil]
        exact List.prefix_append _ _
    · next hnonneg =>
      split at hsend
      · next hbounds =>
        cases hsend
        rw [if_neg hnonneg]
        refine ⟨?_, o, loc, ?_, Or.inl ⟨by simpa using hgood, ?_⟩⟩
        · split
          · exact Nat.zero_le 1
          · exact Nat.le_refl 1
        · rw [requests_append, hrequests]
          rfl
        · rw [inbox_append, ← hall, List.append_assoc]
          show inbox ts ++ ((buf.take outLen.toNat ++ []) ++ _) = _
          rw [List.append_nil]
          split
          · next hlast =>
            rw [List.flatten_nil, List.append_nil, hlast, Int.toNat_natCast, List.take_length]
          · rw [List.flatten_singleton, List.take_append_drop]
      · cases hsend

end Connection

/-! ### All connections -/

/-- The handler of slot `i` is behind `recv`, and its connection is `c`. -/
def Serves (s : Server) (log : List ServerEvent) (i c : Nat) : Prop :=
  ∃ client, s.listener.handler i = .received client ∧ holder i (slots log) = some c

/-- The invariant of the runs.

* `consistent`: the slots and the threads are as the listener has them;
* `answered`: a connection that its handler has closed has had its response;
* `serving`: a connection that is served has had the part that its handler does not have
  left;
* `quiet`: the other connections have carried nothing. -/
structure Delivers (handlers : Nat) (indexContent : List UInt8) (s : Server)
    (log : List ServerEvent) : Prop where
  consistent : Consistent handlers s.listener (slots log)
  answered : ∀ i c, .closed (some i) c ∈ slots log → Underway indexContent [] (traffic c log)
  serving : ∀ i c, Serves s log i c → Underway indexContent (s.job i) (traffic c log)
  quiet : ∀ c, (∀ i, .closed (some i) c ∉ slots log) → (∀ i, ¬ Serves s log i c) →
    traffic c log = []

theorem delivers_init (handlers : Nat) (indexContent : List UInt8) (accepted : Nat → Int) :
    Delivers handlers indexContent (Server.init handlers accepted) [] where
  consistent := consistent_init handlers accepted
  answered _ _ h := absurd h List.not_mem_nil
  serving _ _ h := by
    obtain ⟨client, hphase, -⟩ := h
    cases hphase
  quiet _ _ _ := rfl

section Steps

variable {handlers : Nat} {indexContent : List UInt8} {s : Server} {l' : Listener}
  {log : List ServerEvent} {es : List Event}

/-- A step without traffic. A connection is served as before, unless its handler closes it,
and then nothing of the response is left. -/
theorem Delivers.of_slots (h : Delivers handlers indexContent s log)
    (hok : Consistent handlers l' (slots log ++ es))
    (hclosed : ∀ i c, .closed (some i) c ∈ es → Serves s log i c ∧ s.job i = [])
    (hserves : ∀ i c, Serves ⟨l', s.job⟩ (log ++ es.map .slot) i c → Serves s log i c)
    (hkept : ∀ i c, Serves s log i c →
      Serves ⟨l', s.job⟩ (log ++ es.map .slot) i c ∨ .closed (some i) c ∈ es) :
    Delivers handlers indexContent ⟨l', s.job⟩ (log ++ es.map .slot) := by
  have hslots : slots (log ++ es.map .slot) = slots log ++ es := by
    rw [slots_append, slots_map_slot]
  have htraffic : ∀ c, traffic c (log ++ es.map .slot) = traffic c log := by
    intro c
    rw [traffic_append, traffic_map_slot, List.append_nil]
  refine ⟨?_, fun i c hmem => ?_, fun i c hserved => ?_, fun c hnone hno => ?_⟩
  · rw [hslots]
    exact hok
  · rw [htraffic]
    rw [hslots] at hmem
    rcases List.mem_append.mp hmem with hmem | hmem
    · exact h.answered i c hmem
    · obtain ⟨hserved, hjob⟩ := hclosed i c hmem
      rw [← hjob]
      exact h.serving i c hserved
  · rw [htraffic]
    exact h.serving i c (hserves i c hserved)
  · rw [htraffic]
    rw [hslots] at hnone
    refine h.quiet c (fun i hmem => hnone i (List.mem_append_left _ hmem)) fun i hserved => ?_
    exact (hkept i c hserved).elim (hno i) fun hmem => hnone i (List.mem_append_right _ hmem)

/-- The handler of slot `i` receives from its connection `c`, or sends to it. -/
theorem Delivers.of_use (h : Delivers handlers indexContent s log) {i c : Nat}
    {jobs' : List (List UInt8)} {t : Traffic} (hheld : holder i (slots log) = some c)
    (hopen : c ∉ closes (slots log)) (hok : Consistent handlers l' (slots log ++ [.used i c]))
    (hphase : ∃ client, l'.handler i = .received client)
    (hother : ∀ j ≠ i, l'.handler j = s.listener.handler j)
    (hunderway : Underway indexContent jobs' (traffic c log ++ [t])) :
    Delivers handlers indexContent ⟨l', Function.update s.job i jobs'⟩
      (log ++ [.slot (.used i c), .traffic c t]) := by
  have hslots : slots (log ++ [.slot (.used i c), .traffic c t])
      = slots log ++ [.used i c] := slots_append _ _
  have hholder : ∀ j, holder j (slots log ++ [.used i c]) = holder j (slots log) :=
    fun j => holder_snoc j (slots log) _
  have hown : traffic c (log ++ [.slot (.used i c), .traffic c t]) = traffic c log ++ [t] := by
    rw [traffic_append]
    show _ ++ (if c = c then some t else none).toList = _
    rw [if_pos rfl]
    rfl
  have hforeign : ∀ c' ≠ c,
      traffic c' (log ++ [.slot (.used i c), .traffic c t]) = traffic c' log := by
    intro c' hne
    rw [traffic_append]
    show _ ++ (if c = c' then some t else none).toList = _
    rw [if_neg fun heq => hne heq.symm]
    exact List.append_nil _
  refine ⟨?_, fun j c' hmem => ?_, fun j c' hserved => ?_, fun c' hnone hno => ?_⟩
  · rw [hslots]
    exact hok
  · rw [hslots] at hmem
    have hmem' : .closed (some j) c' ∈ slots log := by simpa using hmem
    have hne : c' ≠ c := by
      intro heq
      rw [heq] at hmem'
      exact hopen (mem_closes.mpr ⟨_, hmem'⟩)
    rw [hforeign c' hne]
    exact h.answered j c' hmem'
  · obtain ⟨client, hreceived, hheld'⟩ := hserved
    rw [hslots, hholder] at hheld'
    show Underway indexContent (Function.update s.job i jobs' j) _
    by_cases hji : j = i
    · rw [hji, hheld] at hheld'
      cases hheld'
      rw [hji, Function.update_self, hown]
      exact hunderway
    · -- Another slot has another connection.
      have hne : c' ≠ c := by
        intro heq
        rw [heq] at hheld'
        exact hji (h.consistent.holder_unique hheld' hheld)
      rw [Function.update_of_ne hji, hforeign c' hne]
      exact h.serving j c' ⟨client, (hother j hji).symm.trans hreceived, hheld'⟩
  · have hne : c' ≠ c := by
      intro heq
      obtain ⟨client, hreceived⟩ := hphase
      refine hno i ⟨client, hreceived, ?_⟩
      rw [hslots, hholder, heq]
      exact hheld
    rw [hforeign c' hne]
    rw [hslots] at hnone
    refine h.quiet c' (fun j hmem => hnone j (List.mem_append_left _ hmem)) ?_
    rintro j ⟨client, hreceived, hheld'⟩
    have hji : j ≠ i := by
      intro heq
      rw [heq, hheld] at hheld'
      exact hne (Option.some.inj hheld').symm
    refine hno j ⟨client, (hother j hji).trans hreceived, ?_⟩
    rw [hslots, hholder]
    exact hheld'

/-- The acceptor closes nothing that a handler has. It creates a handler in a slot without
one, and it leaves the other handlers and what they hold alone. -/
theorem processTcp4_frame {l : Listener} {log : List Event} (h : Consistent handlers l log)
    {a : AcceptorStep} (hstep : processTcp4 handlers l a = some (l', es)) :
    (∀ i c, .closed (some i) c ∉ es) ∧
      ∀ i, l'.handler i = l.handler i ∧
          (l.handler i ≠ .absent → holder i (log ++ es) = holder i log) ∨
        l.handler i = .absent ∧ l'.handler i = .created := by
  have hacceptor := h.acceptor
  rw [AcceptorOk] at hacceptor
  -- A step that only moves the acceptor.
  have hsame : ∀ i, holder i (log ++ []) = holder i log := fun i => by rw [List.append_nil]
  rw [processTcp4.eq_def] at hstep
  split at hstep
  · cases hstep
    exact ⟨fun _ _ => List.not_mem_nil, fun i => Or.inl ⟨rfl, fun _ => hsame i⟩⟩
  · split at hstep
    · cases hstep
    · cases hstep
      exact ⟨by simp, fun i => Or.inl ⟨rfl, fun _ => holder_snoc i log _⟩⟩
  · cases hstep
    exact ⟨fun _ _ => List.not_mem_nil, fun i => Or.inl ⟨rfl, fun _ => hsame i⟩⟩
  · split at hstep
    · split at hstep
      · cases hstep
        exact ⟨fun _ _ => List.not_mem_nil, fun i => Or.inl ⟨rfl, fun _ => hsame i⟩⟩
      · cases hstep
        exact ⟨fun _ _ => List.not_mem_nil, fun i => Or.inl ⟨rfl, fun _ => hsame i⟩⟩
    · cases hstep
      exact ⟨fun _ _ => List.not_mem_nil, fun i => Or.inl ⟨rfl, fun _ => hsame i⟩⟩
  · next client inet slot hphase =>
    rw [hphase] at hacceptor
    split at hstep
    · next hslot =>
      cases hstep
      rcases hacceptor with ⟨-, c, hp⟩ | ⟨j, rfl, hj, -⟩
      · rw [hp.isOpen]
        exact ⟨by simp [onSocket], fun i => Or.inl ⟨rfl, fun _ => holder_snoc i log _⟩⟩
      · omega
    · next hslot =>
      cases hstep
      rcases hacceptor with ⟨hneg, -⟩ | ⟨j, rfl, hj, hfree, c, hp⟩
      · omega
      · -- The slot that is filled has no handler.
        rw [hp.isOpen]
        refine ⟨by simp [onSocket], fun i => Or.inl ⟨rfl, fun hbusy => ?_⟩⟩
        have hij : j ≠ i := by
          intro hij
          rw [← hij] at hbusy
          exact hbusy hfree.1
        exact (holder_snoc i log _).trans (if_neg hij)
  · next inet slot hphase =>
    rw [hphase] at hacceptor
    split at hstep
    · cases hstep
      refine ⟨fun _ _ => List.not_mem_nil, fun i => ?_⟩
      by_cases hi : i = slot
      · rw [hi]
        exact Or.inr ⟨hacceptor.2.1, Function.update_self _ _ _⟩
      · exact Or.inl ⟨Function.update_of_ne hi _ _, fun _ => hsame i⟩
    · cases hstep
      exact ⟨fun _ _ => List.not_mem_nil, fun i => Or.inl ⟨rfl, fun _ => hsame i⟩⟩
  · cases hstep

/-- What is served does not change in a step without traffic that leaves the handlers that
are behind `recv` alone. -/
theorem serves_iff (hframe : ∀ i client,
      l'.handler i = .received client ∨ s.listener.handler i = .received client →
        l'.handler i = s.listener.handler i ∧
          holder i (slots log ++ es) = holder i (slots log)) (i c : Nat) :
    Serves ⟨l', s.job⟩ (log ++ es.map .slot) i c ↔ Serves s log i c := by
  rw [Serves, Serves, slots_append, slots_map_slot]
  constructor
  · rintro ⟨client, hreceived, hheld⟩
    obtain ⟨hhandler, hholder⟩ := hframe i client (Or.inl hreceived)
    exact ⟨client, hhandler.symm.trans hreceived, hholder.symm.trans hheld⟩
  · rintro ⟨client, hreceived, hheld⟩
    obtain ⟨hhandler, hholder⟩ := hframe i client (Or.inr hreceived)
    exact ⟨client, hhandler.trans hreceived, hholder.trans hheld⟩

/-- A step of a handler that is not behind `recv` serves nothing. -/
theorem Delivers.of_idle (h : Delivers handlers indexContent s log)
    (hok : Consistent handlers l' (slots log ++ es)) (hclosed : ∀ i c, .closed (some i) c ∉ es)
    (hframe : ∀ i client,
      l'.handler i = .received client ∨ s.listener.handler i = .received client →
        l'.handler i = s.listener.handler i ∧
          holder i (slots log ++ es) = holder i (slots log)) :
    Delivers handlers indexContent ⟨l', s.job⟩ (log ++ es.map .slot) :=
  h.of_slots hok (fun i c hmem => absurd hmem (hclosed i c))
    (fun i c hserved => (serves_iff hframe i c).mp hserved)
    fun i c hserved => Or.inl ((serves_iff hframe i c).mpr hserved)

/-- What a handler that works with a descriptor knows of it. -/
theorem Consistent.connection (h : Consistent handlers s.listener (slots log)) {i : Nat}
    {client : Int} (hclient : (s.listener.handler i).client = some client) :
    client = s.listener.tcp4Accepted i ∧ ∃ c, s.connection i = some c ∧
      s.listener.table client = some c ∧ holder i (slots log) = some c ∧
        c ∉ closes (slots log) := by
  have hi : i < handlers := by
    by_contra hge
    rw [h.beyond i (Nat.le_of_not_lt hge)] at hclient
    cases hclient
  have hslot := h.slot i hi
  have howns : client = s.listener.tcp4Accepted i ∧ Owns s.listener (slots log) i := by
    rw [SlotOk] at hslot
    cases hphase : s.listener.handler i with
    | started client' =>
      rw [hphase] at hslot hclient
      cases hclient
      exact hslot
    | received client' =>
      rw [hphase] at hslot hclient
      cases hclient
      exact hslot
    | _ =>
      rw [hphase] at hclient
      cases hclient
  obtain ⟨hsame, -, c, htable, hheld⟩ := howns
  rw [← hsame] at htable
  refine ⟨hsame, c, ?_, htable, hheld, (h.isOpen client c htable).2⟩
  rw [Server.connection, hclient]
  exact htable

/-- The next access of a handler, which is no `recv`. -/
theorem Delivers.next (h : Delivers handlers indexContent s log) {i : Nat}
    (hgoes : (s.listener.handler i).goesOn (s.job i) = true)
    (hstep : clientThread s.listener i .next = some (l', es))
    (hok : Consistent handlers l' (slots log ++ es)) :
    Delivers handlers indexContent ⟨l', s.job⟩ (log ++ es.map .slot) := by
  -- A new phase of slot `i` that is not behind `recv` leaves the other slots alone.
  have hother : ∀ {p : Handler} {j : Nat} {client : Int}, (∀ client, p ≠ .received client) →
      (∀ client, s.listener.handler i ≠ .received client) →
      Function.update s.listener.handler i p j = .received client ∨
        s.listener.handler j = .received client → j ≠ i := by
    intro p j client hp hbefore hreceived hji
    rw [hji, Function.update_self] at hreceived
    rcases hreceived with hreceived | hreceived
    · exact hp client hreceived
    · exact hbefore client hreceived
  rw [clientThread.eq_def] at hstep
  cases hphase : s.listener.handler i with
  | absent =>
    rw [hphase] at hstep
    cases hstep
  | created =>
    rw [hphase] at hstep
    cases hstep
    refine h.of_idle hok (fun _ _ => List.not_mem_nil) fun j client hreceived => ?_
    have hji := hother (by simp) (by simp [hphase]) hreceived
    rw [List.append_nil]
    exact ⟨Function.update_of_ne hji _ _, rfl⟩
  | started client =>
    rw [hphase] at hgoes
    cases hgoes
  | received client =>
    -- The handler closes its connection when nothing is left to send.
    obtain ⟨-, c, -, htable, hheld, -⟩ :=
      Consistent.connection h.consistent (by rw [hphase]; rfl)
    rw [hphase] at hgoes hstep
    have hjob : s.job i = [] := List.isEmpty_iff.mp hgoes
    dsimp only at hstep
    rw [htable] at hstep
    cases hstep
    have hholder : ∀ j, holder j (slots log ++ [.closed (some i) c]) = holder j (slots log) :=
      fun j => holder_snoc j (slots log) _
    refine h.of_slots hok (fun j c' hmem => ?_) (fun j c' hserved => ?_) fun j c' hserved => ?_
    · cases List.mem_singleton.mp hmem
      exact ⟨⟨client, hphase, hheld⟩, hjob⟩
    · obtain ⟨client', hreceived, hheld'⟩ := hserved
      have hji : j ≠ i := by
        intro hji
        have hclosed : Function.update s.listener.handler i .closed j = .received client' :=
          hreceived
        rw [hji, Function.update_self] at hclosed
        cases hclosed
      rw [slots_append, slots_map_slot] at hheld'
      exact ⟨client', (Function.update_of_ne hji _ _).symm.trans hreceived,
        (hholder j).symm.trans hheld'⟩
    · obtain ⟨client', hreceived, hheld'⟩ := hserved
      by_cases hji : j = i
      · rw [hji, hheld] at hheld'
        cases hheld'
        rw [hji]
        exact Or.inr List.mem_cons_self
      · refine Or.inl ⟨client', (Function.update_of_ne hji _ _).trans hreceived, ?_⟩
        rw [slots_append, slots_map_slot]
        exact (hholder j).trans hheld'
  | closed =>
    rw [hphase] at hstep
    cases hstep
    refine h.of_idle hok (by simp) fun j client hreceived => ?_
    have hji := hother (by simp) (by simp [hphase]) hreceived
    exact ⟨Function.update_of_ne hji _ _,
      (holder_snoc j (slots log) _).trans (if_neg fun hij => hji hij.symm)⟩

/-- Every step of the server keeps the invariant. -/
theorem Delivers.step {s' : Server} {out : List ServerEvent}
    (h : Delivers handlers indexContent s log) {a : ServerAct}
    (hstep : s.step handlers indexContent a = some (s', out)) :
    Delivers handlers indexContent s' (log ++ out) := by
  have hok := h.consistent.step (listener_step hstep)
  cases a with
  | acceptor a =>
    obtain ⟨⟨l, es⟩, hr, heq⟩ := Option.map_eq_some_iff.mp hstep
    cases heq
    rw [slots_map_slot] at hok
    obtain ⟨hclosed, hframe⟩ := processTcp4_frame h.consistent hr
    refine h.of_idle hok hclosed fun i client hreceived => ?_
    rcases hframe i with ⟨hhandler, hholder⟩ | ⟨habsent, hcreated⟩
    · rw [hhandler, or_self] at hreceived
      exact ⟨hhandler, hholder (by rw [hreceived]; simp)⟩
    · rw [habsent, hcreated] at hreceived
      simp at hreceived
  | next i =>
    rw [Server.step] at hstep
    split at hstep
    · next hgoes =>
      obtain ⟨⟨l, es⟩, hr, heq⟩ := Option.map_eq_some_iff.mp hstep
      cases heq
      rw [slots_map_slot] at hok
      exact h.next hgoes hr hok
    · cases hstep
  | recv i o loc =>
    rw [Server.step] at hstep
    split at hstep
    · next client hphase =>
      obtain ⟨⟨l, es⟩, hr, hstep⟩ := Option.bind_eq_some_iff.mp hstep
      obtain ⟨bufs, hbufs, heq⟩ := Option.map_eq_some_iff.mp hstep
      obtain ⟨-, c, hconnection, htable, hheld, hopen⟩ :=
        Consistent.connection h.consistent (by rw [hphase]; rfl)
      rw [clientThread.eq_def, hphase] at hr
      dsimp only at hr
      rw [htable] at hr
      cases hr
      rw [hconnection] at heq
      cases heq
      refine h.of_use hheld hopen hok ⟨client, Function.update_self _ _ _⟩
        (fun j hj => Function.update_of_ne hj _ _) ?_
      -- The connection has carried nothing before.
      have hquiet : traffic c log = [] := by
        refine h.quiet c (fun j hmem => hopen (mem_closes.mpr ⟨_, hmem⟩)) ?_
        rintro j ⟨client', hreceived, hheld'⟩
        rw [h.consistent.holder_unique hheld' hheld, hphase] at hreceived
        cases hreceived
      rw [hquiet]
      exact underway_request hbufs
    · cases hstep
  | send i outLen =>
    obtain ⟨⟨l, es⟩, hr, hstep⟩ := Option.bind_eq_some_iff.mp hstep
    obtain ⟨⟨jobs', bytes⟩, hsent, heq⟩ := Option.map_eq_some_iff.mp hstep
    rw [clientThread.eq_def] at hr
    cases hphase : s.listener.handler i with
    | received client =>
      obtain ⟨-, c, hconnection, htable, hheld, hopen⟩ :=
        Consistent.connection h.consistent (by rw [hphase]; rfl)
      rw [hphase] at hr
      dsimp only at hr
      rw [htable] at hr
      cases hr
      rw [hconnection] at heq
      cases heq
      exact h.of_use hheld hopen hok ⟨client, hphase⟩ (fun _ _ => rfl)
        ((h.serving i c ⟨client, hphase, hheld⟩).send hsent)
    | _ =>
      rw [hphase] at hr
      cases hr

end Steps

/-! ### Runs -/

/-- What the client of connection `c` gets.

* `once`: at most one request is received from it;
* `own`: it gets the response to this request or the front of it, and nothing else;
* `whole`: it gets all of it if its handler has closed the connection and no `send` failed;
* `refused`: the connection carries nothing if the acceptor closes it. -/
structure OwnResponse (indexContent : List UInt8) (log : List ServerEvent) (c : Nat) : Prop where
  once : (requests (traffic c log)).length ≤ 1
  own : inbox (traffic c log) <+:
    (requests (traffic c log)).flatMap fun r => responseTo indexContent r.1 r.2
  whole : ∀ i, .closed (some i) c ∈ slots log → .failed ∉ traffic c log →
    ∃ o loc, requests (traffic c log) = [(o, loc)] ∧
      inbox (traffic c log) = responseTo indexContent o loc
  refused : .closed none c ∈ slots log → traffic c log = []

/-- What a connection has carried under way is what its client should get. -/
theorem Underway.own {indexContent : List UInt8} {jobs : List (List UInt8)} {ts : List Traffic}
    (h : Underway indexContent jobs ts) :
    (requests ts).length ≤ 1 ∧
      inbox ts <+: (requests ts).flatMap fun r => responseTo indexContent r.1 r.2 := by
  obtain ⟨-, o, loc, hrequests, hjobs⟩ := h
  rw [hrequests, List.flatMap_singleton]
  refine ⟨Nat.le_refl 1, ?_⟩
  rcases hjobs with ⟨-, hall⟩ | ⟨-, -, hfront⟩
  · rw [← hall]
    exact List.prefix_append _ _
  · exact hfront

/-- A connection that the acceptor has closed carries nothing. -/
theorem Delivers.refused {handlers : Nat} {indexContent : List UInt8} {s : Server}
    {log : List ServerEvent} (h : Delivers handlers indexContent s log) {c : Nat}
    (hclosed : .closed none c ∈ slots log) : traffic c log = [] := by
  have howned := h.consistent.lawful.uniquelyOwned
  obtain ⟨pre, post, heq⟩ := List.append_of_mem hclosed
  have hunstored := (howned.byOpener pre c post heq).1
  refine h.quiet c (fun i hmem => ?_) fun i hserved => ?_
  · exact hunstored i ((howned.byWorker i c hmem i).mpr rfl)
  · obtain ⟨client, -, hheld⟩ := hserved
    exact hunstored i (holder_mem_stores hheld)

/-- Every client gets the response to its own request, whatever the order of the steps. -/
theorem own_response (handlers : Nat) (indexContent : List UInt8) (accepted : Nat → Int)
    {acts : List ServerAct} {s : Server} {log : List ServerEvent}
    (hrun : runLog (Server.step handlers indexContent) (Server.init handlers accepted) acts
      = some (s, log)) (c : Nat) : OwnResponse indexContent log c := by
  have h : Delivers handlers indexContent s log :=
    runLog_history (Server.step handlers indexContent) (fun _ _ _ _ _ h hstep => h.step hstep)
      (delivers_init handlers indexContent accepted) hrun
  have hown : (requests (traffic c log)).length ≤ 1 ∧ inbox (traffic c log) <+:
      (requests (traffic c log)).flatMap fun r => responseTo indexContent r.1 r.2 := by
    by_cases hclosed : ∃ i, .closed (some i) c ∈ slots log
    · obtain ⟨i, hmem⟩ := hclosed
      exact (h.answered i c hmem).own
    · by_cases hserved : ∃ i, Serves s log i c
      · obtain ⟨i, hserved⟩ := hserved
        exact (h.serving i c hserved).own
      · rw [h.quiet c (fun i hmem => hclosed ⟨i, hmem⟩) fun i hi => hserved ⟨i, hi⟩]
        exact ⟨Nat.zero_le 1, List.nil_prefix⟩
  refine ⟨hown.1, hown.2, fun i hmem hgood => ?_, h.refused⟩
  obtain ⟨-, o, loc, hrequests, hjobs⟩ := h.answered i c hmem
  have hall := (hjobs.resolve_right fun hbad => hgood hbad.1).2
  rw [List.flatten_nil, List.append_nil] at hall
  exact ⟨o, loc, hrequests, hall⟩

/-- A client asks for the start page. -/
def getIndex : Recv := .data (ascii "GET / ") (by decide) (by decide)

/-- Two clients get the start page at the same time, one of them byte by byte. The
descriptor of the other one is then used again. -/
def threeClients : List ServerAct :=
  [.acceptor (.setup true), .acceptor (.accept 5 true), .acceptor .next, .acceptor .next,
    .acceptor .next, .acceptor (.accept 6 true), .acceptor .next, .acceptor .next,
    .acceptor .next, .acceptor .next, .next 0, .next 1, .recv 1 getIndex ⟨[0, 0], [0], [0]⟩,
    .recv 0 getIndex ⟨[7, 0], [0], [0]⟩, .send 0 1, .send 1 2, .next 1,
    .acceptor (.accept 6 true), .next 1, .acceptor .next, .send 0 1, .acceptor .next,
    .acceptor .next, .acceptor .next, .next 1, .recv 1 getIndex ⟨[0, 0], [0], [0]⟩, .next 0,
    .send 1 (-1), .next 1]

theorem own_response_three :
    ∃ s log, runLog (Server.step CONFIG_NET_SAMPLE_NUM_HANDLERS [104, 105])
        (Server.init CONFIG_NET_SAMPLE_NUM_HANDLERS fun _ => 0) threeClients = some (s, log) ∧
      inbox (traffic 0 log) = [104, 105] ∧ OwnResponse [104, 105] log 0 :=
  ⟨_, _, rfl, rfl, @own_response CONFIG_NET_SAMPLE_NUM_HANDLERS [104, 105] (fun _ => 0)
    threeClients _ _ rfl 0⟩

end UpsFirmware.Esp32
