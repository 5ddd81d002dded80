import Mathlib.Data.List.Nodup
import Mathlib.Data.List.Infix
import Mathlib.Data.List.Perm.Subperm
import Mathlib.Tactic.Common

/-!
# `UpsFirmware.Lib.Ownership`: slots that own resources

A server opens resources and stores each of them in a slot. A worker of the slot uses the
resource, closes it and releases the slot. A resource that no slot has room for is closed
by the one who opened it. A history of these events is a `List (SlotEvent σ ρ)`.

`Allowed` says which event may follow a history, and a history is `Lawful` when each of
its events was allowed. The results are what every lawful history has:
`Lawful.nodup_closes`, `Lawful.nodup_stores`, `Lawful.holder_or_closed` and
`Lawful.length_serving_le`. `UniquelyOwned` collects them, and `Lawful.uniquelyOwned`
proves it.
-/

set_option autoImplicit false

namespace UpsFirmware.Lib

/-- What happens to a resource or to a slot. A resource is closed by the worker of a slot,
or by the one who opened it (`none`). An operation is `stray` if it names a resource that
is not open. -/
inductive SlotEvent (σ ρ : Type) where
  | opened (r : ρ)
  | stored (i : σ) (r : ρ)
  | used (i : σ) (r : ρ)
  | closed (who : Option σ) (r : ρ)
  | released (i : σ)
  | stray
deriving DecidableEq

namespace SlotEvent

variable {σ ρ : Type}

/-! ### What a history says -/

/-- The resources that were opened, the slots with what was stored in them, and the
resources that were closed. -/
def opens (log : List (SlotEvent σ ρ)) : List ρ :=
  log.filterMap fun e =>
    match e with
    | .opened r => some r
    | _ => none

def stores (log : List (SlotEvent σ ρ)) : List (σ × ρ) :=
  log.filterMap fun e =>
    match e with
    | .stored i r => some (i, r)
    | _ => none

def closes (log : List (SlotEvent σ ρ)) : List ρ :=
  log.filterMap fun e =>
    match e with
    | .closed _ r => some r
    | _ => none

theorem opens_append (log out : List (SlotEvent σ ρ)) :
    opens (log ++ out) = opens log ++ opens out := List.filterMap_append

theorem stores_append (log out : List (SlotEvent σ ρ)) :
    stores (log ++ out) = stores log ++ stores out := List.filterMap_append

theorem closes_append (log out : List (SlotEvent σ ρ)) :
    closes (log ++ out) = closes log ++ closes out := List.filterMap_append

theorem mem_stores {log : List (SlotEvent σ ρ)} {i : σ} {r : ρ} :
    (i, r) ∈ stores log ↔ .stored i r ∈ log := by
  rw [stores, List.mem_filterMap]
  constructor
  · intro ⟨e, he, heq⟩
    cases e with
    | stored j r' =>
      cases heq
      exact he
    | _ => cases heq
  · exact fun h => ⟨_, h, rfl⟩

theorem mem_closes {log : List (SlotEvent σ ρ)} {r : ρ} :
    r ∈ closes log ↔ ∃ who, .closed who r ∈ log := by
  rw [closes, List.mem_filterMap]
  constructor
  · intro ⟨e, he, heq⟩
    cases e with
    | closed who r' =>
      cases heq
      exact ⟨who, he⟩
    | _ => cases heq
  · exact fun ⟨who, h⟩ => ⟨_, h, rfl⟩

variable [DecidableEq σ]

/-- What an event does to the holding of slot `i`. -/
def hold (i : σ) (held : Option ρ) : SlotEvent σ ρ → Option ρ
  | .stored j r => if j = i then some r else held
  | .released j => if j = i then none else held
  | _ => held

/-- The resource that a slot holds: the last one stored in it, until its release. -/
def holder (i : σ) (log : List (SlotEvent σ ρ)) : Option ρ := log.foldl (hold i) none

theorem holder_snoc (i : σ) (log : List (SlotEvent σ ρ)) (e : SlotEvent σ ρ) :
    holder i (log ++ [e]) = hold i (holder i log) e := List.foldl_append ..

/-! ### Lawful histories -/

/-- Which event may follow the history `log`. -/
def Allowed (slots : List σ) (log : List (SlotEvent σ ρ)) : SlotEvent σ ρ → Prop
  | .opened r => r ∉ opens log
  | .stored i r =>
      i ∈ slots ∧ r ∈ opens log ∧ r ∉ (stores log).map Prod.snd ∧ r ∉ closes log ∧
        ∀ r', (i, r') ∈ stores log → r' ∈ closes log
  | .used i r => holder i log = some r ∧ r ∉ closes log
  | .closed (some i) r => holder i log = some r ∧ r ∉ closes log
  | .closed none r =>
      r ∉ closes log ∧ r ∉ (stores log).map Prod.snd ∧
        ∃ before after, log = before ++ .opened r :: after ∧
          ∀ i ∈ slots, (holder i before).isSome
  | .released i => ∃ r, holder i log = some r ∧ r ∈ closes log
  | .stray => False

/-- A history each of whose events was allowed. -/
inductive Lawful (slots : List σ) : List (SlotEvent σ ρ) → Prop
  | nil : Lawful slots []
  | snoc {log : List (SlotEvent σ ρ)} {e : SlotEvent σ ρ} :
      Lawful slots log → Allowed slots log e → Lawful slots (log ++ [e])

variable {slots : List σ} {log : List (SlotEvent σ ρ)}

/-- Every event of a lawful history was allowed by what came before it. -/
theorem Lawful.allowed (h : Lawful slots log) {pre post : List (SlotEvent σ ρ)}
    {e : SlotEvent σ ρ} (heq : log = pre ++ e :: post) : Allowed slots pre e := by
  induction h generalizing post with
  | nil => simp at heq
  | @snoc log e' _ hallowed ih =>
    rcases List.eq_nil_or_concat post with rfl | ⟨post, last, rfl⟩
    · -- `e` is the last event.
      obtain ⟨rfl, hlast⟩ := List.append_inj' heq rfl
      cases hlast
      exact hallowed
    · rw [List.concat_eq_append, ← List.cons_append, ← List.append_assoc] at heq
      exact ih (List.append_inj' heq rfl).1

/-- No resource is closed twice. -/
theorem Lawful.nodup_closes (h : Lawful slots log) : (closes log).Nodup := by
  induction h with
  | nil => exact List.nodup_nil
  | @snoc log e _ hallowed ih =>
    rw [closes_append]
    have hone : ∀ r, r ∉ closes log → (closes log ++ [r]).Nodup := by
      intro r hr
      rw [← List.concat_eq_append]
      exact ih.concat hr
    cases e with
    | closed who r =>
      cases who with
      | none => exact hone r hallowed.1
      | some i => exact hone r hallowed.2
    | _ => rwa [show closes [_] = [] from rfl, List.append_nil]

/-- No resource is stored twice. -/
theorem Lawful.nodup_stores (h : Lawful slots log) : ((stores log).map Prod.snd).Nodup := by
  induction h with
  | nil => exact List.nodup_nil
  | @snoc log e _ hallowed ih =>
    rw [stores_append, List.map_append]
    cases e with
    | stored i r =>
      show ((stores log).map Prod.snd ++ [r]).Nodup
      rw [← List.concat_eq_append]
      exact ih.concat hallowed.2.2.1
    | _ => rwa [show stores [_] = [] from rfl, List.map_nil, List.append_nil]

/-- A resource is stored in one slot only. -/
theorem Lawful.stored_unique (h : Lawful slots log) {i j : σ} {r : ρ}
    (hi : (i, r) ∈ stores log) (hj : (j, r) ∈ stores log) : i = j :=
  congrArg Prod.fst (List.inj_on_of_nodup_map h.nodup_stores hi hj rfl)

/-- What a slot holds was stored in it. -/
theorem holder_mem_stores {i : σ} {r : ρ} (h : holder i log = some r) : (i, r) ∈ stores log := by
  induction log using List.reverseRecOn with
  | nil => cases h
  | append_singleton log e ih =>
    rw [stores_append, List.mem_append]
    rw [holder_snoc] at h
    cases e with
    | stored j r' =>
      rw [hold] at h
      split at h
      · next heq =>
        cases h
        cases heq
        exact .inr List.mem_cons_self
      · exact .inl (ih h)
    | released j =>
      rw [hold] at h
      split at h
      · cases h
      · exact .inl (ih h)
    | _ => exact .inl (ih h)

/-- Events that store nothing fill no slot. -/
theorem isSome_holder_of_append {before after : List (SlotEvent σ ρ)} {i : σ}
    (hnone : stores after = []) (h : (holder i (before ++ after)).isSome) :
    (holder i before).isSome := by
  induction after using List.reverseRecOn with
  | nil => rwa [List.append_nil] at h
  | append_singleton after e ih =>
    rw [stores_append, List.append_eq_nil_iff] at hnone
    rw [← List.append_assoc, holder_snoc] at h
    refine ih hnone.1 ?_
    cases e with
    | stored j r => cases hnone.2
    | released j =>
      rw [hold] at h
      split at h
      · cases h
      · exact h
    | _ => exact h

/-- What was stored in a slot is held there, or it was closed. -/
theorem Lawful.holder_or_closed (h : Lawful slots log) {i : σ} {r : ρ}
    (hmem : (i, r) ∈ stores log) : holder i log = some r ∨ r ∈ closes log := by
  induction h with
  | nil => cases hmem
  | @snoc log e _ hallowed ih =>
    rw [holder_snoc, closes_append, List.mem_append]
    rw [stores_append, List.mem_append] at hmem
    -- An event that stores nothing and releases nothing keeps what was so before.
    have hkeep : hold i (holder i log) e = holder i log → stores [e] = [] →
        hold i (holder i log) e = some r ∨ r ∈ closes log ∨ r ∈ closes [e] := by
      intro hhold hstores
      rw [hstores] at hmem
      rw [hhold]
      exact (ih (hmem.resolve_right List.not_mem_nil)).imp_right .inl
    cases e with
    | stored j r' =>
      rcases hmem with hmem | hmem
      · by_cases hji : j = i
        · cases hji
          exact .inr (.inl (hallowed.2.2.2.2 r hmem))
        · rw [show hold i (holder i log) (.stored j r') = holder i log from if_neg hji]
          exact (ih hmem).imp_right .inl
      · cases List.mem_singleton.mp hmem
        exact .inl (if_pos rfl)
    | released j =>
      by_cases hji : j = i
      · cases hji
        obtain ⟨r', hheld, hclosed⟩ := hallowed
        rcases ih (hmem.resolve_right List.not_mem_nil) with hr | hr
        · rw [hheld] at hr
          cases hr
          exact .inr (.inl hclosed)
        · exact .inr (.inl hr)
      · exact hkeep (if_neg hji) rfl
    | _ => exact hkeep rfl rfl

/-- What was closed by the one who opened it is in no slot. -/
theorem Lawful.not_stored_of_closed_none (h : Lawful slots log)
    {pre post : List (SlotEvent σ ρ)} {r : ρ} (heq : log = pre ++ .closed none r :: post)
    (i : σ) : (i, r) ∉ stores log := by
  intro hmem
  obtain ⟨pre', post', heq'⟩ := List.append_of_mem (mem_stores.mp hmem)
  have hbefore := (h.allowed heq).2.1
  have hafter := (h.allowed heq').2.2.2.1
  -- One of the two events comes first, and then the other one was not allowed.
  have hsplit := List.append_eq_append_iff.mp (heq.symm.trans heq')
  rcases hsplit with ⟨mid, hpre, hmid⟩ | ⟨mid, hpre, hmid⟩
  · rcases List.cons_eq_append_iff.mp hmid with ⟨rfl, hmid⟩ | ⟨mid', rfl, _⟩
    · cases hmid
    · refine hafter (mem_closes.mpr ⟨none, ?_⟩)
      rw [hpre]
      exact List.mem_append_right _ List.mem_cons_self
  · rcases List.cons_eq_append_iff.mp hmid with ⟨rfl, hmid⟩ | ⟨mid', rfl, _⟩
    · cases hmid
    · refine hbefore (List.mem_map.mpr ⟨(i, r), mem_stores.mpr ?_, rfl⟩)
      rw [hpre]
      exact List.mem_append_right _ List.mem_cons_self

/-- Only slots of the server store anything. -/
theorem Lawful.slot_mem (h : Lawful slots log) {p : σ × ρ} (hp : p ∈ stores log) :
    p.1 ∈ slots := by
  obtain ⟨pre, post, heq⟩ := List.append_of_mem (mem_stores.mp hp)
  exact (h.allowed heq).1

/-- What was stored was opened. -/
theorem Lawful.opened_of_stored (h : Lawful slots log) {p : σ × ρ} (hp : p ∈ stores log) :
    p.2 ∈ opens log := by
  obtain ⟨pre, post, heq⟩ := List.append_of_mem (mem_stores.mp hp)
  rw [heq, opens_append]
  exact List.mem_append_left _ (h.allowed heq).2.1

/-- What was closed was opened. -/
theorem Lawful.opened_of_closed (h : Lawful slots log) {r : ρ} (hr : r ∈ closes log) :
    r ∈ opens log := by
  obtain ⟨who, hwho⟩ := mem_closes.mp hr
  obtain ⟨pre, post, heq⟩ := List.append_of_mem hwho
  cases who with
  | none =>
    obtain ⟨_, _, before, after, hpre, _⟩ := h.allowed heq
    rw [heq, hpre, opens_append, opens_append]
    exact List.mem_append_left _ (List.mem_append_right _ List.mem_cons_self)
  | some i =>
    have hstored : (i, r) ∈ stores log := by
      rw [heq, stores_append]
      exact List.mem_append_left _ (holder_mem_stores (h.allowed heq).1)
    exact h.opened_of_stored hstored

/-! ### The resources that are served -/

variable [DecidableEq ρ]

/-- The slots with an open resource that was stored in them. -/
def serving (log : List (SlotEvent σ ρ)) : List (σ × ρ) :=
  (stores log).filter fun p => p.2 ∉ closes log

/-- The open resources are in different slots. -/
theorem Lawful.nodup_serving (h : Lawful slots log) : ((serving log).map Prod.fst).Nodup := by
  have hnodup : (serving log).Nodup := (List.Nodup.of_map _ h.nodup_stores).filter _
  refine hnodup.map_on ?_
  intro p hp q hq hfst
  have hheld : ∀ p ∈ serving log, holder p.1 log = some p.2 := by
    intro p hp
    rw [serving, List.mem_filter, decide_eq_true_eq] at hp
    exact (h.holder_or_closed hp.1).resolve_right hp.2
  have hp' := hheld p hp
  rw [hfst, hheld q hq] at hp'
  exact Prod.ext hfst (Option.some.inj hp').symm

/-- There are no more open resources in slots than slots. -/
theorem Lawful.length_serving_le (h : Lawful slots log) :
    (serving log).length ≤ slots.length := by
  rw [← List.length_map Prod.fst]
  refine (List.subperm_of_subset h.nodup_serving ?_).length_le
  intro i hi
  obtain ⟨p, hp, rfl⟩ := List.mem_map.mp hi
  exact h.slot_mem (List.mem_of_mem_filter hp)

/-! ### Unique owners -/

/-- Slots own their resources uniquely.

* `servedAtMost`: no more resources are served than there are slots;
* `reassigned`: a slot gets a resource after every earlier one of the slot was closed;
* `closedOnce`: no resource is closed twice;
* `byOpener`: who opened a resource closes it only if every slot was taken when it was
  opened, and then no slot ever gets it;
* `byWorker`: a worker closes only what was stored in its slot and in no other;
* `serves`: a worker uses only what its slot holds, while it is open;
* `noStray`: no operation names a resource that is not open. -/
structure UniquelyOwned (slots : List σ) (log : List (SlotEvent σ ρ)) : Prop where
  servedAtMost : (serving log).length ≤ slots.length
  reassigned : ∀ pre i r post, log = pre ++ .stored i r :: post →
    ∀ r', (i, r') ∈ stores pre → r' ∈ closes pre
  closedOnce : (closes log).Nodup
  byOpener : ∀ pre r post, log = pre ++ .closed none r :: post →
    (∀ i, (i, r) ∉ stores log) ∧
      ∃ before after, pre = before ++ .opened r :: after ∧
        ∀ i ∈ slots, (holder i before).isSome
  byWorker : ∀ i r, .closed (some i) r ∈ log → ∀ j, (j, r) ∈ stores log ↔ j = i
  serves : ∀ pre i r post, log = pre ++ .used i r :: post →
    holder i pre = some r ∧ r ∉ closes pre
  noStray : .stray ∉ log

/-- A lawful history has unique owners. -/
theorem Lawful.uniquelyOwned (h : Lawful slots log) : UniquelyOwned slots log where
  servedAtMost := h.length_serving_le
  reassigned pre i r post heq := (h.allowed heq).2.2.2.2
  closedOnce := h.nodup_closes
  byOpener pre r post heq := ⟨h.not_stored_of_closed_none heq, (h.allowed heq).2.2⟩
  byWorker i r hmem j := by
    obtain ⟨pre, post, heq⟩ := List.append_of_mem hmem
    have hstored : (i, r) ∈ stores log := by
      rw [heq, stores_append]
      exact List.mem_append_left _ (holder_mem_stores (h.allowed heq).1)
    constructor
    · exact fun hj => h.stored_unique hj hstored
    · intro hj
      rwa [hj]
  serves pre i r post heq := h.allowed heq
  noStray hmem := by
    obtain ⟨pre, post, heq⟩ := List.append_of_mem hmem
    exact h.allowed heq

end SlotEvent

end UpsFirmware.Lib
