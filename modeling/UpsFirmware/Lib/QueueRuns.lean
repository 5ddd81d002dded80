import Mathlib.Data.List.Perm.Basic
import UpsFirmware.Lib.MsgQueue

/-!
# `UpsFirmware.Lib.QueueRuns`: runs of a message queue

A producer puts messages with the retry loop `while (put fails) purge`, and one consumer
gets them. The two interleave in any way. `MsgQueue.putLoop` is the producer's step and
`MsgQueue.act` a step of the consumer: a get on an empty queue starts to wait, and it ends
by `resume`, with the message that it was handed or with nothing.

`Accounted` is the invariant of the runs. What was got and what is still pending are put
messages in their order, and every put message was got, is pending, or went in a purge of
a full queue.
-/

set_option autoImplicit false

namespace UpsFirmware.Lib

open QueueEvent

namespace MsgQueue

variable {α : Type} {cap : ℕ+}

/-- A queue has room or is full. -/
theorem lt_or_full (q : MsgQueue α cap) : q.items.length < cap ∨ q.items.length = cap :=
  Nat.lt_or_eq_of_le q.fits

/-- The loop puts its message once, at the second attempt at the latest. -/
theorem puts_putLoop (q : MsgQueue α cap) (m : α) :
    puts (q.putLoop m).2 = [m] ∧ tries (q.putLoop m).2 ≤ 2 := by
  rcases q.lt_or_full with h | h
  · rw [putLoop_of_lt q m h]
    exact ⟨rfl, Nat.le_succ 1⟩
  · rw [putLoop_of_full q m h]
    exact ⟨rfl, Nat.le_refl 2⟩

/-- When nobody waits, a put appends its message. -/
theorem accept_of_absent {q : MsgQueue α cap} (hq : q.waiter = .absent) (m : α)
    (h : q.items.length < cap) :
    (q.accept m h).items = q.items ++ [m] ∧ (q.accept m h).waiter = .absent := by
  rw [accept]
  cases hw : q.waiter with
  | absent => exact ⟨rfl, rfl⟩
  | _ =>
    rw [hq] at hw
    cases hw

/-- After the loop the message is the last one in the queue, unless the consumer was
waiting for it. -/
theorem newest_putPurge (q : MsgQueue α cap) (m : α) :
    (q.putPurge m).items.getLast? = some m ∨
      (q.waiter = .waiting ∧ (q.putPurge m).waiter = .handed m) := by
  have haccept : ∀ (r : MsgQueue α cap) (h : r.items.length < cap), r.waiter = q.waiter →
      (r.accept m h).items.getLast? = some m ∨
        (q.waiter = .waiting ∧ (r.accept m h).waiter = .handed m) := by
    intro r h hr
    rw [accept, ← hr]
    cases hw : r.waiter with
    | waiting => exact Or.inr ⟨rfl, rfl⟩
    | absent => exact Or.inl (by simp)
    | handed m' => exact Or.inl (by simp)
  rcases q.lt_or_full with h | h
  · rw [putPurge_of_lt q m h]
    exact haccept q h rfl
  · rw [putPurge_of_full q m h]
    exact haccept q.purge cap.pos rfl

end MsgQueue

/-! ### Steps -/

/-- An atomic step of the consumer: the start of a get, or the end of a get that waits. -/
inductive ConsumerAct where
  | get
  | resume

namespace MsgQueue

variable {α : Type} {cap : ℕ+}

/-- What is behind the oldest message fits. -/
theorem length_rest_le (q : MsgQueue α cap) {m : α} {ms : List α} (h : q.items = m :: ms) :
    ms.length ≤ cap := by
  have hfits := q.fits
  rw [h, List.length_cons] at hfits
  omega

/-- A step of the consumer and what happens in it. `none` is a step that cannot be taken:
the consumer does not start a get inside another one, and does not end one it has not
started. -/
def act (q : MsgQueue α cap) : ConsumerAct → Option (MsgQueue α cap × List (QueueEvent α))
  | .get =>
      match q.waiter with
      | .absent =>
          match hq : q.items with
          | [] => some ({ q with waiter := .waiting }, [])
          | m :: ms =>
              some ({ q with items := ms, fits := q.length_rest_le hq }, [.got m])
      | _ => none
  | .resume =>
      match q.waiter with
      | .absent => none
      | .waiting => some ({ q with waiter := .absent }, [.timedOut])
      | .handed m => some ({ q with waiter := .absent }, [.got m])

/-- A consumer that is not in a get can start one. -/
theorem exists_act_get {q : MsgQueue α cap} (h : q.waiter = .absent) :
    ∃ r, q.act .get = some r := by
  rw [act, h]
  simp only
  split
  · exact ⟨_, rfl⟩
  · exact ⟨_, rfl⟩

/-- A get that finds a message takes it. -/
theorem act_get_of_cons {q : MsgQueue α cap} (hq : q.waiter = .absent) {m : α} {ms : List α}
    (hitems : q.items = m :: ms) :
    ∃ q', q.act .get = some (q', [.got m]) ∧ q'.items = ms ∧ q'.waiter = .absent := by
  rw [act, hq]
  simp only
  split
  · next hnil =>
    rw [hitems] at hnil
    cases hnil
  · next m' ms' hcons =>
    rw [hitems] at hcons
    cases hcons
    exact ⟨_, rfl, rfl, rfl⟩

/-- A consumer that is in a get can end it. -/
theorem exists_act_resume {q : MsgQueue α cap} (h : q.waiter ≠ .absent) :
    ∃ r, q.act .resume = some r := by
  rw [act]
  cases hw : q.waiter with
  | absent => exact absurd hw h
  | waiting => exact ⟨_, rfl⟩
  | handed m => exact ⟨_, rfl⟩

/-- The messages that are on their way to the consumer, oldest first. -/
def pending (q : MsgQueue α cap) : List α :=
  match q.waiter with
  | .handed m => m :: q.items
  | _ => q.items

/-- A consumer waits on an empty queue only. -/
def Idle (q : MsgQueue α cap) : Prop := q.waiter = .waiting → q.items = []

/-- A put that finds room puts its message behind the pending ones. -/
theorem pending_accept {q : MsgQueue α cap} (hq : q.Idle) (m : α) (h : q.items.length < cap) :
    (q.accept m h).pending = q.pending ++ [m] ∧ (q.accept m h).Idle := by
  rw [accept]
  cases hw : q.waiter with
  | waiting =>
    refine ⟨?_, nofun⟩
    show m :: q.items = q.pending ++ [m]
    rw [pending, hw, hq hw]
    rfl
  | absent =>
    refine ⟨?_, nofun⟩
    show q.items ++ [m] = q.pending ++ [m]
    rw [pending, hw]
  | handed m' =>
    refine ⟨?_, nofun⟩
    show m' :: (q.items ++ [m]) = q.pending ++ [m]
    rw [pending, hw]
    rfl

/-- A purge drops the items, and keeps a message that was handed over. -/
theorem pending_purge (q : MsgQueue α cap) : q.pending = q.purge.pending ++ q.items := by
  cases hw : q.waiter with
  | handed m => simp only [pending, purge, hw, List.cons_append, List.nil_append]
  | _ => simp only [pending, purge, hw, List.nil_append]

/-- The retry loop loses pending messages at most, and puts its own behind them. -/
theorem pending_putPurge {q : MsgQueue α cap} (hq : q.Idle) (m : α) :
    (q.putPurge m).pending.Sublist (q.pending ++ [m]) ∧ (q.putPurge m).Idle := by
  rcases q.lt_or_full with h | h
  · obtain ⟨hpending, hidle⟩ := pending_accept hq m h
    rw [putPurge_of_lt q m h, hpending]
    exact ⟨List.Sublist.refl _, hidle⟩
  · obtain ⟨hpending, hidle⟩ := pending_accept (q := q.purge) (fun _ => rfl) m cap.pos
    rw [putPurge_of_full q m h, hpending, pending_purge q]
    exact ⟨(List.sublist_append_left _ _).append (List.Sublist.refl [m]), hidle⟩

/-- What a step of the consumer can do: it gets the oldest pending message, or it starts
or ends a wait. -/
theorem act_cases {q q' : MsgQueue α cap} {a : ConsumerAct} {out : List (QueueEvent α)}
    (hact : q.act a = some (q', out)) :
    q'.Idle ∧ ((∃ m, out = [.got m] ∧ q.pending = m :: q'.pending) ∨
      ((out = [] ∨ out = [.timedOut]) ∧ q.pending = q'.pending)) := by
  cases a with
  | get =>
    rw [act] at hact
    cases hw : q.waiter with
    | absent =>
      rw [hw] at hact
      simp only at hact
      split at hact
      · rename_i hitems
        cases hact
        refine ⟨fun _ => hitems, Or.inr ⟨Or.inl rfl, ?_⟩⟩
        show q.pending = q.items
        rw [pending, hw]
      · rename_i m ms hitems
        cases hact
        refine ⟨nofun, Or.inl ⟨m, rfl, ?_⟩⟩
        show q.pending = m :: ms
        rw [pending, hw]
        exact hitems
    | waiting =>
      rw [hw] at hact
      cases hact
    | handed m =>
      rw [hw] at hact
      cases hact
  | resume =>
    rw [act] at hact
    cases hw : q.waiter with
    | absent =>
      rw [hw] at hact
      cases hact
    | waiting =>
      rw [hw] at hact
      cases hact
      refine ⟨nofun, Or.inr ⟨Or.inr rfl, ?_⟩⟩
      show q.pending = q.items
      rw [pending, hw]
    | handed m =>
      rw [hw] at hact
      cases hact
      refine ⟨nofun, Or.inl ⟨m, rfl, ?_⟩⟩
      show q.pending = m :: q.items
      rw [pending, hw]

/-- The consumer puts nothing and drops nothing. -/
theorem puts_act {q q' : MsgQueue α cap} {a : ConsumerAct} {out : List (QueueEvent α)}
    (hact : q.act a = some (q', out)) :
    puts out = [] ∧ purges out = [] := by
  obtain ⟨-, ⟨m, rfl, -⟩ | ⟨rfl | rfl, -⟩⟩ := act_cases hact
  all_goals exact ⟨rfl, rfl⟩

/-- What it gets is the oldest pending message, if anything. -/
theorem pending_act {q q' : MsgQueue α cap} {a : ConsumerAct} {out : List (QueueEvent α)}
    (hact : q.act a = some (q', out)) :
    q.pending = gots out ++ q'.pending ∧ (gots out).length ≤ 1 := by
  obtain ⟨-, ⟨m, rfl, hpending⟩ | ⟨rfl | rfl, hpending⟩⟩ := act_cases hact
  · exact ⟨hpending, Nat.le_refl 1⟩
  · exact ⟨hpending, Nat.zero_le 1⟩
  · exact ⟨hpending, Nat.zero_le 1⟩

/-! ### The accounting -/

/-- The invariant of a run with the history `log`. -/
structure Accounted (q : MsgQueue α cap) (log : List (QueueEvent α)) : Prop where
  idle : q.Idle
  order : (gots log ++ q.pending).Sublist (puts log)
  account : (gots log ++ q.pending ++ (purges log).flatten).Perm (puts log)
  full : ∀ ms ∈ purges log, ms.length = cap

theorem accounted_empty : (empty : MsgQueue α cap).Accounted [] where
  idle := fun _ => rfl
  order := List.Sublist.refl _
  account := List.Perm.refl _
  full := nofun

section Accounting

variable {q : MsgQueue α cap} {log : List (QueueEvent α)}

/-- A put that finds room. -/
theorem accounted_accept (h : q.Accounted log) (m : α) (hroom : q.items.length < cap) :
    (q.accept m hroom).Accounted (log ++ [.tried m true]) := by
  obtain ⟨hpending, hidle⟩ := pending_accept h.idle m hroom
  have hputs : puts (log ++ [.tried m true]) = puts log ++ [m] := puts_append _ _
  have hgots : gots (log ++ [.tried m true]) = gots log := by
    rw [gots_append]
    exact List.append_nil _
  have hpurges : purges (log ++ [.tried m true]) = purges log := by
    rw [purges_append]
    exact List.append_nil _
  refine ⟨hidle, ?_, ?_, ?_⟩
  · rw [hputs, hgots, hpending, ← List.append_assoc]
    exact h.order.append (List.Sublist.refl [m])
  · -- The message joins the pending ones, in front of what was purged.
    rw [hputs, hgots, hpurges, hpending, ← List.append_assoc, List.append_assoc]
    refine (List.perm_append_comm.append_left _).trans ?_
    rw [← List.append_assoc]
    exact h.account.append_right [m]
  · rw [hpurges]
    exact h.full

/-- A purge of a full queue books what it drops. -/
theorem accounted_purge (h : q.Accounted log) (m : α) (hfull : q.items.length = cap) :
    q.purge.Accounted (log ++ [.tried m false, .purged q.items]) := by
  have hputs : puts (log ++ [.tried m false, .purged q.items]) = puts log := by
    rw [puts_append]
    exact List.append_nil _
  have hgots : gots (log ++ [.tried m false, .purged q.items]) = gots log := by
    rw [gots_append]
    exact List.append_nil _
  have hpurges : purges (log ++ [.tried m false, .purged q.items]) = purges log ++ [q.items] :=
    purges_append _ _
  refine ⟨fun _ => rfl, ?_, ?_, ?_⟩
  · have horder := h.order
    rw [pending_purge, ← List.append_assoc] at horder
    rw [hputs, hgots]
    exact (List.sublist_append_left _ _).trans horder
  · -- The items move from the pending messages to the purged ones.
    have haccount := h.account
    rw [pending_purge, ← List.append_assoc, List.append_assoc] at haccount
    rw [hputs, hgots, hpurges, List.flatten_append, List.flatten_singleton]
    exact (List.perm_append_comm.append_left _).trans haccount
  · rw [hpurges]
    intro ms hms
    rcases List.mem_append.mp hms with hms | hms
    · exact h.full ms hms
    · rw [List.mem_singleton.mp hms]
      exact hfull

/-- The retry loop keeps the accounts. -/
theorem accounted_putLoop (h : q.Accounted log) (m : α) :
    (q.putLoop m).1.Accounted (log ++ (q.putLoop m).2) := by
  rcases q.lt_or_full with hroom | hfull
  · rw [putLoop_of_lt q m hroom]
    exact accounted_accept h m hroom
  · rw [putLoop_of_full q m hfull]
    have hpurged := accounted_accept (accounted_purge h m hfull) m cap.pos
    rw [List.append_assoc] at hpurged
    exact hpurged

/-- A step of the consumer moves what it got from the pending messages to the got ones. -/
theorem accounted_act (h : q.Accounted log) {a : ConsumerAct} {q' : MsgQueue α cap}
    {out : List (QueueEvent α)} (hact : q.act a = some (q', out)) :
    q'.Accounted (log ++ out) := by
  obtain ⟨hpending, -⟩ := pending_act hact
  obtain ⟨hputs, hpurges⟩ := puts_act hact
  have hmoved : gots log ++ gots out ++ q'.pending = gots log ++ q.pending := by
    rw [hpending, List.append_assoc]
  refine ⟨(act_cases hact).1, ?_, ?_, ?_⟩
  · rw [puts_append, gots_append, hputs, hmoved, List.append_nil]
    exact h.order
  · rw [puts_append, gots_append, purges_append, hputs, hpurges, hmoved, List.append_nil,
      List.append_nil]
    exact h.account
  · rw [purges_append, hpurges, List.append_nil]
    exact h.full

end Accounting

/-! ### Puts in a row, and a get that waits for its time -/

theorem not_waiting {q : MsgQueue α cap} (hq : q.waiter = .absent) : q.waiter ≠ .waiting := by
  rw [hq]
  intro h
  cases h

/-- A put hands its message to a waiting consumer, and leaves any other alone. -/
theorem waiter_putPurge (q : MsgQueue α cap) (m : α) :
    (q.putPurge m).waiter
      = match q.waiter with
        | .waiting => .handed m
        | waiter => waiter := by
  have haccept : ∀ (r : MsgQueue α cap) (h : r.items.length < cap), r.waiter = q.waiter →
      (r.accept m h).waiter
        = match q.waiter with
          | .waiting => .handed m
          | waiter => waiter := by
    intro r h hr
    rw [accept, ← hr]
    cases hw : r.waiter with
    | waiting => rfl
    | absent => rfl
    | handed m' => rfl
  rcases q.lt_or_full with h | h
  · rw [putPurge_of_lt q m h]
    exact haccept q h rfl
  · rw [putPurge_of_full q m h]
    exact haccept q.purge cap.pos rfl

/-- A consumer that is not waiting is left alone by any number of puts. -/
theorem waiter_foldl_putPurge {q : MsgQueue α cap} (hq : q.waiter ≠ .waiting) (ms : List α) :
    (ms.foldl putPurge q).waiter = q.waiter := by
  induction ms generalizing q with
  | nil => rfl
  | cons m ms ih =>
    have hput : (q.putPurge m).waiter = q.waiter := by
      rw [waiter_putPurge]
      cases hw : q.waiter with
      | waiting => exact absurd hw hq
      | absent => rfl
      | handed m' => rfl
    rw [List.foldl_cons, ih (by rw [hput]; exact hq), hput]

/-- Puts in a row lose pending messages at most. -/
theorem pending_foldl_putPurge {q : MsgQueue α cap} (hq : q.Idle) (ms : List α) :
    (ms.foldl putPurge q).pending.Sublist (q.pending ++ ms) := by
  induction ms generalizing q with
  | nil =>
    rw [List.foldl_nil, List.append_nil]
  | cons m ms ih =>
    obtain ⟨hfirst, hidle⟩ := pending_putPurge hq m
    rw [List.foldl_cons, List.append_cons]
    exact (ih hidle).trans (hfirst.append (List.Sublist.refl ms))

/-- Without a waiting consumer, puts in a row leave the newest message last. -/
theorem items_foldl_putPurge {q : MsgQueue α cap} (hq : q.waiter = .absent) (ms : List α) :
    (ms.foldl putPurge q).items.Sublist (q.items ++ ms) ∧
      (q.items ++ ms ≠ [] → (ms.foldl putPurge q).items ≠ []) := by
  have hne := not_waiting hq
  have hpending : ∀ r : MsgQueue α cap, r.waiter = .absent → r.pending = r.items := by
    intro r hr
    rw [pending, hr]
  constructor
  · have hsub := pending_foldl_putPurge (fun h => absurd h hne) ms
    rw [hpending _ (by rw [waiter_foldl_putPurge hne, hq]), hpending q hq] at hsub
    exact hsub
  · intro hsome hnil
    rcases List.eq_nil_or_concat ms with rfl | ⟨front, m, rfl⟩
    · rw [List.append_nil] at hsome
      exact hsome hnil
    · rw [List.concat_eq_append, List.foldl_append, List.foldl_cons, List.foldl_nil] at hnil
      rcases (front.foldl putPurge q).newest_putPurge m with hlast | ⟨hwait, -⟩
      · rw [hnil] at hlast
        cases hlast
      · rw [waiter_foldl_putPurge hne] at hwait
        exact hne hwait

/-- A get hands over the oldest message that is there or comes in time, if there is one,
and the rest stays in order. -/
theorem get_spec {q : MsgQueue α cap} (hq : q.waiter = .absent) (late : List α) :
    ((q.get late).1.toList ++ (q.get late).2.items).Sublist (q.items ++ late) ∧
      (q.get late).2.waiter = .absent ∧
      (q.items ++ late ≠ [] → (q.get late).1 ≠ none) := by
  rw [get]
  split
  · next m ms hitems =>
    -- The queue holds a message, and the others come behind it.
    have hrest : ∀ r : MsgQueue α cap, r.items = ms → r.waiter = .absent →
        (late.foldl putPurge r).items.Sublist (ms ++ late) ∧
          (late.foldl putPurge r).waiter = .absent := by
      rintro r rfl hr
      refine ⟨(items_foldl_putPurge hr late).1, ?_⟩
      rw [waiter_foldl_putPurge (not_waiting hr), hr]
    have hsub := hrest ⟨ms, q.waiter, q.length_rest_le hitems⟩ rfl hq
    refine ⟨?_, hsub.2, fun _ => Option.some_ne_none m⟩
    have hcons : q.items ++ late = m :: (ms ++ late) := by rw [hitems, List.cons_append]
    exact hcons ▸ hsub.1.cons_cons m
  · next hitems =>
    -- The consumer waits, and the first message that comes goes to it.
    have hsub : (late.foldl putPurge { q with waiter := .waiting }).pending.Sublist
        (q.items ++ late) :=
      pending_foldl_putPurge (q := { q with waiter := .waiting }) (fun _ => hitems) late
    have hhanded : ∀ m ms, late = m :: ms →
        (late.foldl putPurge { q with waiter := .waiting }).waiter = .handed m := by
      rintro m ms rfl
      have hput : (putPurge { q with waiter := .waiting } m).waiter = .handed m :=
        waiter_putPurge _ m
      have hne : (putPurge { q with waiter := .waiting } m).waiter ≠ .waiting := by
        rw [hput]
        intro h
        cases h
      rw [List.foldl_cons, waiter_foldl_putPurge hne, hput]
    generalize late.foldl putPurge { q with waiter := .waiting } = q' at hsub hhanded ⊢
    dsimp only
    rw [pending] at hsub
    split
    · next m hm =>
      rw [hm] at hsub
      exact ⟨hsub, rfl, fun _ => Option.some_ne_none m⟩
    · next hnot =>
      have hnil : late = [] := by
        cases hlate : late with
        | nil => rfl
        | cons m ms => exact absurd (hhanded m ms hlate) (hnot m)
      refine ⟨?_, rfl, fun hne => absurd (by rw [hitems, hnil]; rfl) hne⟩
      split at hsub
      · next m hm => exact absurd hm (hnot m)
      · exact hsub

end MsgQueue

end UpsFirmware.Lib
