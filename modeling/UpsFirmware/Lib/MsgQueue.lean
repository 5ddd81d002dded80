import Mathlib.Data.PNat.Basic
import Mathlib.Tactic.Common

/-!
# `UpsFirmware.Lib.MsgQueue`: a bounded message queue with one consumer

The kernel's message queue as its documentation describes it. The queue holds at
most `cap` messages. A put without waiting fails exactly when the queue is full.
When a consumer is blocked on the empty queue, a put hands it the message and
stores nothing. A purge empties the queue. A get takes the oldest message; on an
empty queue it waits for a put until its time runs out.

`putLoop` is the retry loop `while (put fails) purge`, with its puts and purges as
`QueueEvent`s. It terminates because a purge makes room, and `putLoop_of_lt` and
`putLoop_of_full` say what it does. `putPurge` is the queue that it leaves. `get` takes
the messages that are put while the consumer waits as an argument, since their arrival is
the environment's choice.

The queue holds any type of message. Its bound is part of the type, so an
overfull queue cannot be built.
-/

set_option autoImplicit false

namespace UpsFirmware.Lib

/-- The consumer's side of the queue: nobody waits, somebody waits, or somebody
waited and was handed a message. -/
inductive Waiter (α : Type) where
  | absent
  | waiting
  | handed (m : α)

/-- What happens at a queue: a put with its success, a purge with what it drops, a get
with its message, and a get that ends without one. -/
inductive QueueEvent (α : Type) where
  | tried (m : α) (ok : Bool)
  | purged (ms : List α)
  | got (m : α)
  | timedOut

namespace QueueEvent

variable {α : Type}

/-- The messages that were put, those that were got, and what each purge dropped. -/
def puts (log : List (QueueEvent α)) : List α :=
  log.filterMap fun e =>
    match e with
    | .tried m true => some m
    | _ => none

def gots (log : List (QueueEvent α)) : List α :=
  log.filterMap fun e =>
    match e with
    | .got m => some m
    | _ => none

def purges (log : List (QueueEvent α)) : List (List α) :=
  log.filterMap fun e =>
    match e with
    | .purged ms => some ms
    | _ => none

/-- The number of puts, successful or not. -/
def tries (log : List (QueueEvent α)) : Nat :=
  log.countP fun e =>
    match e with
    | .tried _ _ => true
    | _ => false

theorem puts_append (log out : List (QueueEvent α)) : puts (log ++ out) = puts log ++ puts out :=
  List.filterMap_append

theorem gots_append (log out : List (QueueEvent α)) : gots (log ++ out) = gots log ++ gots out :=
  List.filterMap_append

theorem purges_append (log out : List (QueueEvent α)) :
    purges (log ++ out) = purges log ++ purges out := List.filterMap_append

end QueueEvent

/-- A queue of at most `cap` messages, oldest first. -/
structure MsgQueue (α : Type) (cap : ℕ+) where
  items : List α
  waiter : Waiter α
  fits : items.length ≤ cap

namespace MsgQueue

variable {α : Type} {cap : ℕ+}

/-- The queue after initialisation. -/
def empty : MsgQueue α cap := ⟨[], .absent, Nat.zero_le _⟩

/-- A put into a queue that has room. -/
def accept (q : MsgQueue α cap) (m : α) (h : q.items.length < cap) : MsgQueue α cap :=
  match q.waiter with
  | .waiting => { q with waiter := .handed m } -- straight to the consumer
  | _ => { q with
            items := q.items ++ [m]
            fits := by rw [List.length_append]; exact h }

/-- A put without waiting. `none` is the error return of a full queue. -/
def put (q : MsgQueue α cap) (m : α) : Option (MsgQueue α cap) :=
  if h : q.items.length < cap then some (q.accept m h) else none

/-- Drop every message. -/
def purge (q : MsgQueue α cap) : MsgQueue α cap :=
  { q with items := [], fits := Nat.zero_le _ }

theorem put_of_lt (q : MsgQueue α cap) (m : α) (h : q.items.length < cap) :
    q.put m = some (q.accept m h) := dif_pos h

theorem put_of_full (q : MsgQueue α cap) (m : α) (h : q.items.length = cap) :
    q.put m = none := dif_neg (by omega)

/-- `while (put fails) purge`, with its puts and purges. -/
def putLoop (q : MsgQueue α cap) (m : α) : MsgQueue α cap × List (QueueEvent α) :=
  match _h : q.put m with
  | some q' => (q', [.tried m true])
  | none =>
      let r := putLoop q.purge m
      (r.1, .tried m false :: .purged q.items :: r.2)
termination_by q.items.length
decreasing_by
  -- The put failed, so the queue was full, and the purge empties it.
  have hfull : ¬ q.items.length < cap := by
    intro hlt
    rw [put_of_lt q m hlt] at _h
    cases _h
  have hcap := cap.pos
  show 0 < q.items.length
  omega

/-- With room in the queue there is one put. -/
theorem putLoop_of_lt (q : MsgQueue α cap) (m : α) (h : q.items.length < cap) :
    q.putLoop m = (q.accept m h, [.tried m true]) := by
  rw [putLoop]
  split
  · rename_i q' hq'
    rw [put_of_lt q m h] at hq'
    cases hq'
    rfl
  · rename_i hq'
    rw [put_of_lt q m h] at hq'
    cases hq'

/-- On a full queue there are two puts and a purge in between. -/
theorem putLoop_of_full (q : MsgQueue α cap) (m : α) (h : q.items.length = cap) :
    q.putLoop m = (q.purge.accept m cap.pos,
      [.tried m false, .purged q.items, .tried m true]) := by
  rw [putLoop]
  split
  · rename_i q' hq'
    rw [put_of_full q m h] at hq'
    cases hq'
  · -- The second put finds room, since the capacity is positive.
    rw [putLoop_of_lt q.purge m cap.pos]

/-- The queue that the loop leaves. -/
def putPurge (q : MsgQueue α cap) (m : α) : MsgQueue α cap := (q.putLoop m).1

theorem putPurge_of_lt (q : MsgQueue α cap) (m : α) (h : q.items.length < cap) :
    q.putPurge m = q.accept m h := by
  rw [putPurge, putLoop_of_lt q m h]

theorem putPurge_of_full (q : MsgQueue α cap) (m : α) (h : q.items.length = cap) :
    q.putPurge m = q.purge.accept m cap.pos := by
  rw [putPurge, putLoop_of_full q m h]

/-- A get that may wait. `late` are the messages put from the moment the get
looks at the queue: when it finds the queue empty, the first of them ends the
wait. `none` is a wait that timed out. -/
def get (q : MsgQueue α cap) (late : List α) : Option α × MsgQueue α cap :=
  match hq : q.items with
  | m :: ms =>
      -- No wait: the late messages find the consumer gone.
      (some m, late.foldl putPurge
        { q with
          items := ms
          fits := by
            have hfits := q.fits
            rw [hq, List.length_cons] at hfits
            omega })
  | [] =>
      let q' := late.foldl putPurge { q with waiter := .waiting }
      match q'.waiter with
      | .handed m => (some m, { q' with waiter := .absent })
      | _ => (none, { q' with waiter := .absent })

/-- A get on a queue that holds a message takes the oldest one. -/
theorem get_of_cons (q : MsgQueue α cap) {ms : List α} {m : α} (h : q.items = m :: ms) :
    (q.get []).1 = some m ∧ (q.get []).2.items = ms := by
  rw [get]
  split
  · rename_i m' ms' hq
    rw [h] at hq
    cases hq
    exact ⟨rfl, rfl⟩
  · rename_i hq
    rw [h] at hq
    cases hq

/-- A get on an empty queue into which nothing is put times out and leaves the
queue empty. -/
theorem get_of_nil (q : MsgQueue α cap) (h : q.items = []) :
    (q.get []).1 = none ∧ (q.get []).2.items = [] := by
  rw [get]
  split
  · rename_i hq
    rw [h] at hq
    cases hq
  · exact ⟨rfl, h⟩

end MsgQueue

end UpsFirmware.Lib
