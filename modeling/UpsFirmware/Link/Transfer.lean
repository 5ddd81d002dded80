import UpsFirmware.Link.Discipline

/-!
# `UpsFirmware.Link.Transfer`: what a put and a get copy

The kernel's queue copies bytes. `k_msgq_put` copies one item from the given address into
the queue, `k_msgq_get` copies one item from the queue to the given address, and the size
of an item is fixed when the queue is defined. Both MCUs put and get a `struct Msg`. The
RP2040 initialises its queue with `sizeof(struct Msg)`, the ESP32 defines its queue with
`MSG_SIZE`, which is the size of `rx_buf`.

Here a queue holds items as bytes, and the memory is part of the state. A run is any
sequence of completed frames, gets, and writes of other code. `ExactTransfers` says that
every transfer copies the object and nothing else. `exactTransfers_iff` says that the
item size decides it.
-/

set_option autoImplicit false

namespace UpsFirmware

open Lib Lib.QueueEvent

/-! ### Memory -/

/-- A byte for every address. -/
abbrev Memory := Nat → UInt8

namespace Memory

/-- `size` bytes from `addr` on. -/
def read (mem : Memory) (addr size : Nat) : List UInt8 :=
  (List.range size).map fun i => mem (addr + i)

/-- The memory after the bytes are written from `addr` on. -/
def write (mem : Memory) (addr : Nat) (bytes : List UInt8) : Memory :=
  fun a => if addr ≤ a then (bytes[a - addr]?).getD (mem a) else mem a

@[simp] theorem length_read (mem : Memory) (addr size : Nat) :
    (mem.read addr size).length = size := by
  rw [read, List.length_map, List.length_range]

/-- What was written is read back. -/
theorem read_write (mem : Memory) (addr : Nat) (bytes : List UInt8) :
    (mem.write addr bytes).read addr bytes.length = bytes := by
  refine List.ext_getElem (length_read _ _ _) fun i hi hi' => ?_
  rw [length_read] at hi
  simp only [read, List.getElem_map, List.getElem_range, write]
  rw [if_pos (Nat.le_add_right addr i), Nat.add_sub_cancel_left, List.getElem?_eq_getElem hi]
  rfl

/-- A write touches no other address. -/
theorem write_of_outside (mem : Memory) {addr a : Nat} (bytes : List UInt8)
    (h : a < addr ∨ addr + bytes.length ≤ a) : mem.write addr bytes a = mem a := by
  rw [write]
  split
  · rw [List.getElem?_eq_none (by omega)]
    rfl
  · rfl

end Memory

/-! ### The two MCUs -/

/-- The receivers of the link. -/
inductive Mcu where
  | rp2040
  | esp32
deriving DecidableEq, Repr

/-- The item size of the queue: `k_msgq_init(&msgq, msgq_buffer, sizeof(struct Msg), 2)` and
`K_MSGQ_DEFINE(uart_msgq, MSG_SIZE, 10, 4)`. -/
def Mcu.itemSize : Mcu → Nat
  | .rp2040 => sizeofMsg
  | .esp32 => MSG_SIZE

/-- The capacity of the queue. -/
def Mcu.capacity : Mcu → ℕ+
  | .rp2040 => ⟨2, Nat.two_pos⟩
  | .esp32 => ⟨10, Nat.succ_pos 9⟩

/-- The memory, the queue with its items as bytes, and the address that the get in
progress was given. -/
structure Ram (mcu : Mcu) where
  mem : Memory
  msgq : MsgQueue (List UInt8) mcu.capacity
  dst : Nat

/-- `serial_cb` completes a packet, with its local `struct Msg` at `src`. The consumer
enters `k_msgq_get` with the address of its `struct Msg`, or returns from its wait. Other
code leaves the memory `mem` behind. -/
inductive RamAct where
  | complete (src : Nat) (img : Image)
  | get (dst : Nat)
  | resume
  | other (mem : Memory)

/-- A transfer: the item that a put copies from the message at `src`, or the item that a
get copies to `dst`, with the memory before and after. -/
inductive Transfer where
  | put (img : Image) (src : Nat) (mem : Memory) (item : List UInt8)
  | got (dst : Nat) (item : List UInt8) (before after : Memory)

/-- The items that were put, and those that were got. -/
def putItems (log : List Transfer) : List (List UInt8) :=
  log.filterMap fun t =>
    match t with
    | .put _ _ _ item => some item
    | _ => none

def gotItems (log : List Transfer) : List (List UInt8) :=
  log.filterMap fun t =>
    match t with
    | .got _ item _ _ => some item
    | _ => none

theorem putItems_append (log out : List Transfer) :
    putItems (log ++ out) = putItems log ++ putItems out := List.filterMap_append

theorem gotItems_append (log out : List Transfer) :
    gotItems (log ++ out) = gotItems log ++ gotItems out := List.filterMap_append

namespace Ram

variable {mcu : Mcu}

/-- The end of a step of the consumer: the items that it got are copied to `dst`. -/
def deliver (s : Ram mcu) (dst : Nat) (q : MsgQueue (List UInt8) mcu.capacity) :
    List (List UInt8) → Ram mcu × List Transfer
  | [] => ({ s with msgq := q, dst := dst }, [])
  | item :: _ =>
      let after := s.mem.write dst item
      ({ mem := after, msgq := q, dst := dst }, [.got dst item s.mem after])

/-- A step, and the transfer in it. -/
def act (s : Ram mcu) : RamAct → Option (Ram mcu × List Transfer)
  | .complete src img =>
      -- `struct Msg msg = {}` and `msg_cobs_decode`, then the retry loop
      let mem := s.mem.write src img.toList
      let item := mem.read src mcu.itemSize
      some ({ s with mem := mem, msgq := s.msgq.putPurge item }, [.put img src mem item])
  | .get dst => (s.msgq.act .get).map fun r => s.deliver dst r.1 (gots r.2)
  | .resume => (s.msgq.act .resume).map fun r => s.deliver s.dst r.1 (gots r.2)
  | .other mem => some ({ s with mem := mem }, [])

/-- The state after start-up, with any memory. -/
def start (mcu : Mcu) (mem : Memory) : Ram mcu := ⟨mem, MsgQueue.empty, 0⟩

/-! ### The queue of items -/

/-- The invariant of a run with the transfers `log`: what was got and what is pending are
put items, in order, and all items have the size of the queue. -/
structure InOrder (s : Ram mcu) (log : List Transfer) : Prop where
  idle : s.msgq.Idle
  order : (gotItems log ++ s.msgq.pending).Sublist (putItems log)
  size : ∀ item ∈ putItems log, item.length = mcu.itemSize

theorem inOrder_start (mem : Memory) : (start mcu mem).InOrder [] where
  idle := fun _ => rfl
  order := List.Sublist.refl _
  size := nofun

section Steps

variable {s : Ram mcu} {log : List Transfer}

/-- The transfer of a delivery. -/
theorem deliver_snd (s : Ram mcu) (dst : Nat) (q : MsgQueue (List UInt8) mcu.capacity)
    (items : List (List UInt8)) :
    putItems (s.deliver dst q items).2 = [] ∧ gotItems (s.deliver dst q items).2 = items.take 1 ∧
      (s.deliver dst q items).1.msgq = q := by
  cases items with
  | nil => exact ⟨rfl, rfl, rfl⟩
  | cons item items => exact ⟨rfl, rfl, rfl⟩

/-- A step of the consumer keeps the order. -/
theorem inOrder_consumer (h : s.InOrder log) {a : ConsumerAct}
    {q : MsgQueue (List UInt8) mcu.capacity} {out : List (QueueEvent (List UInt8))}
    (hact : s.msgq.act a = some (q, out)) (dst : Nat) :
    (s.deliver dst q (gots out)).1.InOrder (log ++ (s.deliver dst q (gots out)).2) := by
  obtain ⟨hpending, hone⟩ := MsgQueue.pending_act hact
  obtain ⟨hputs, hgots, hmsgq⟩ := s.deliver_snd dst q (gots out)
  refine ⟨?_, ?_, ?_⟩
  · rw [hmsgq]
    exact (MsgQueue.act_cases hact).1
  · have horder := h.order
    rw [hpending, ← List.append_assoc] at horder
    rw [putItems_append, gotItems_append, hputs, hgots, hmsgq, List.take_of_length_le hone,
      List.append_nil]
    exact horder
  · rw [putItems_append, hputs, List.append_nil]
    exact h.size

/-- Every step keeps the order. -/
theorem inOrder_act (h : s.InOrder log) {a : RamAct} {s' : Ram mcu} {out : List Transfer}
    (hact : s.act a = some (s', out)) : s'.InOrder (log ++ out) := by
  cases a with
  | complete src img =>
    cases hact
    obtain ⟨hpending, hidle⟩ := MsgQueue.pending_putPurge h.idle
      ((s.mem.write src img.toList).read src mcu.itemSize)
    refine ⟨hidle, ?_, ?_⟩
    · rw [putItems_append, gotItems_append]
      show (gotItems log ++ [] ++ _).Sublist (putItems log ++ [_])
      rw [List.append_nil]
      -- What is pending now was pending before, or is the new item.
      refine (hpending.append_left (gotItems log)).trans ?_
      rw [← List.append_assoc]
      exact h.order.append (List.Sublist.refl _)
    · rw [putItems_append]
      intro item hitem
      rcases List.mem_append.mp hitem with hitem | hitem
      · exact h.size item hitem
      · rw [List.mem_singleton.mp hitem]
        exact Memory.length_read _ _ _
  | get dst =>
    obtain ⟨⟨q, es⟩, hget, heq⟩ := Option.map_eq_some_iff.mp hact
    have hconsumer := inOrder_consumer h hget dst
    rw [heq] at hconsumer
    exact hconsumer
  | resume =>
    obtain ⟨⟨q, es⟩, hresume, heq⟩ := Option.map_eq_some_iff.mp hact
    have hconsumer := inOrder_consumer h hresume s.dst
    rw [heq] at hconsumer
    exact hconsumer
  | other mem =>
    cases hact
    rw [List.append_nil]
    exact ⟨h.idle, h.order, h.size⟩

/-- The transfer of a delivery is a write of the item at the address. -/
theorem got_of_deliver {dst : Nat} {q : MsgQueue (List UInt8) mcu.capacity}
    {items : List (List UInt8)} {t : Transfer} (ht : t ∈ (s.deliver dst q items).2) :
    ∃ item, t = .got dst item s.mem (s.mem.write dst item) := by
  cases items with
  | nil => cases ht
  | cons item items => exact ⟨item, List.mem_singleton.mp ht⟩

/-- What a transfer of a step can be. -/
theorem transfer_cases {a : RamAct} {s' : Ram mcu} {out : List Transfer}
    (hact : s.act a = some (s', out)) {t : Transfer} (ht : t ∈ out) :
    (∃ img src, a = .complete src img ∧ t = .put img src (s.mem.write src img.toList)
      ((s.mem.write src img.toList).read src mcu.itemSize)) ∨
    ∃ dst item, t = .got dst item s.mem (s.mem.write dst item) := by
  cases a with
  | complete src img =>
    cases hact
    exact Or.inl ⟨img, src, rfl, List.mem_singleton.mp ht⟩
  | get dst =>
    obtain ⟨⟨q, es⟩, -, heq⟩ := Option.map_eq_some_iff.mp hact
    have hout : (s.deliver dst q (gots es)).2 = out := congrArg Prod.snd heq
    rw [← hout] at ht
    exact Or.inr ⟨dst, got_of_deliver ht⟩
  | resume =>
    obtain ⟨⟨q, es⟩, -, heq⟩ := Option.map_eq_some_iff.mp hact
    have hout : (s.deliver s.dst q (gots es)).2 = out := congrArg Prod.snd heq
    rw [← hout] at ht
    exact Or.inr ⟨s.dst, got_of_deliver ht⟩
  | other mem =>
    cases hact
    cases ht

end Steps

end Ram

/-! ### The law -/

/-- Every transfer copies its object and nothing else. A put copies the bytes of the local
`struct Msg`, which are those of the decoded message. A get writes the bytes of the
destination, and no other. What was got are items that were put, in order, each at most
once. -/
structure ExactTransfers (log : List Transfer) : Prop where
  puts : ∀ img src mem item, .put img src mem item ∈ log →
    item = mem.read src sizeofMsg ∧ item = img.toList
  gots : ∀ dst item before after, .got dst item before after ∈ log →
    item.length = sizeofMsg ∧ after.read dst sizeofMsg = item ∧
      ∀ a, a < dst ∨ dst + sizeofMsg ≤ a → after a = before a
  delivered : (gotItems log).Sublist (putItems log)

section Law

variable {mcu : Mcu} {mem : Memory} {acts : List RamAct} {s : Ram mcu} {log : List Transfer}

theorem mem_gotItems {dst : Nat} {item : List UInt8} {before after : Memory}
    (h : .got dst item before after ∈ log) : item ∈ gotItems log :=
  List.mem_filterMap.mpr ⟨_, h, rfl⟩

theorem mem_putItems {item : List UInt8} (h : item ∈ putItems log) :
    ∃ img src mem, .put img src mem item ∈ log := by
  obtain ⟨t, ht, heq⟩ := List.mem_filterMap.mp h
  cases t with
  | put img src mem item' =>
    cases heq
    exact ⟨img, src, mem, ht⟩
  | got dst item' before after => cases heq

/-- A run keeps the order. -/
theorem inOrder_run (hrun : runLog Ram.act (Ram.start mcu mem) acts = some (s, log)) :
    s.InOrder log :=
  runLog_history (J := Ram.InOrder) Ram.act (fun _ _ _ _ _ h hact => Ram.inOrder_act h hact)
    (Ram.inOrder_start mem) hrun

/-- A queue whose items have the size of a message transfers messages exactly. -/
theorem exactTransfers_of_itemSize (hsize : mcu.itemSize = sizeofMsg)
    (hrun : runLog Ram.act (Ram.start mcu mem) acts = some (s, log)) : ExactTransfers log := by
  have horder := inOrder_run hrun
  have hdelivered := (List.sublist_append_left _ _).trans horder.order
  refine ⟨?_, ?_, hdelivered⟩
  · intro img src mem' item ht
    obtain ⟨a, -, s₁, r₁, hact, ht₁⟩ := runLog_mem_of_report Ram.act hrun ht
    rcases Ram.transfer_cases hact ht₁ with ⟨img', src', -, heq⟩ | ⟨dst, item', heq⟩
    · cases heq
      have hobject := Memory.read_write s₁.mem src img.toList
      rw [Vector.length_toList] at hobject
      rw [hsize]
      exact ⟨rfl, hobject⟩
    · cases heq
  · intro dst item before after ht
    have hlen : item.length = sizeofMsg :=
      (horder.size item (hdelivered.subset (mem_gotItems ht))).trans hsize
    obtain ⟨a, -, s₁, r₁, hact, ht₁⟩ := runLog_mem_of_report Ram.act hrun ht
    rcases Ram.transfer_cases hact ht₁ with ⟨img, src, -, heq⟩ | ⟨dst', item', heq⟩
    · cases heq
    · cases heq
      refine ⟨hlen, ?_, ?_⟩
      · rw [← hlen]
        exact Memory.read_write _ _ _
      · intro addr haddr
        exact Memory.write_of_outside _ _ (by omega)

/-- Without a completed packet there is no transfer. -/
theorem transfers_eq_nil (hnone : ∀ img src, .complete src img ∉ acts)
    (hrun : runLog Ram.act (Ram.start mcu mem) acts = some (s, log)) : log = [] := by
  have horder := inOrder_run hrun
  have hputs : ∀ img src mem' item, .put img src mem' item ∉ log := by
    intro img src mem' item ht
    obtain ⟨a, ha, s₁, r₁, hact, ht₁⟩ := runLog_mem_of_report Ram.act hrun ht
    rcases Ram.transfer_cases hact ht₁ with ⟨img', src', rfl, -⟩ | ⟨dst, item', heq⟩
    · exact hnone img' src' ha
    · cases heq
  refine List.eq_nil_iff_forall_not_mem.mpr fun t ht => ?_
  cases t with
  | put img src mem' item => exact hputs img src mem' item ht
  | got dst item before after =>
    -- Nothing was put, so nothing can be got.
    have hsub := (List.sublist_append_left _ _).trans horder.order
    obtain ⟨img, src, mem', hput⟩ := mem_putItems (hsub.subset (mem_gotItems ht))
    exact hputs img src mem' item hput

/-- On the ESP32 a completed packet is not put exactly. -/
theorem not_exactTransfers_esp32 {s : Ram .esp32}
    (hrun : runLog Ram.act (Ram.start .esp32 mem) acts = some (s, log)) {img : Image} {src : Nat}
    (ha : .complete src img ∈ acts) : ¬ ExactTransfers log := by
  intro hexact
  obtain ⟨s₁, r₁, hact, hreports⟩ := runLog_step_of_mem Ram.act hrun ha
  cases hact
  have hput := (hexact.puts img src _ _ (hreports _ List.mem_cons_self)).2
  -- 32 bytes are not the 14 of the message.
  have hlen := congrArg List.length hput
  rw [Memory.length_read, Vector.length_toList] at hlen
  cases hlen

/-- The transfers of a run are exact on the RP2040, and on the ESP32 exactly when the run
completes no packet. -/
theorem exactTransfers_iff (hrun : runLog Ram.act (Ram.start mcu mem) acts = some (s, log)) :
    ExactTransfers log ↔ mcu = .rp2040 ∨ ∀ img src, .complete src img ∉ acts := by
  constructor
  · intro hexact
    cases mcu with
    | rp2040 => exact Or.inl rfl
    | esp32 => exact Or.inr fun img src ha => not_exactTransfers_esp32 hrun ha hexact
  · intro h
    rcases h with rfl | hnone
    · exact exactTransfers_of_itemSize rfl hrun
    · rw [transfers_eq_nil hnone hrun]
      exact ⟨nofun, nofun, List.Sublist.refl _⟩

/-- One packet on the RP2040, decoded at address 100 and got at address 200. -/
theorem exactTransfers_rp2040 :
    ∃ s log, runLog Ram.act (Ram.start .rp2040 fun _ => 0)
        [.complete 100 (Vector.replicate sizeofMsg 7), .get 200] = some (s, log) ∧
      gotItems log = [List.replicate sizeofMsg 7] ∧
      s.mem.read 200 sizeofMsg = List.replicate sizeofMsg 7 ∧
      ExactTransfers log := by
  obtain ⟨s₁, out, hput, hnone, hitems, hwaiter⟩ : ∃ s₁ out,
      (Ram.start .rp2040 fun _ => 0).act (.complete 100 (Vector.replicate sizeofMsg 7))
        = some (s₁, out) ∧ gotItems out = [] ∧
      s₁.msgq.items = [List.replicate sizeofMsg 7] ∧ s₁.msgq.waiter = .absent := by
    refine ⟨_, _, rfl, rfl, ?_⟩
    exact MsgQueue.putPurge_of_lt (MsgQueue.empty : MsgQueue (List UInt8) 2)
      (List.replicate sizeofMsg 7) (by decide) ▸ ⟨rfl, rfl⟩
  obtain ⟨q, hget, -⟩ := MsgQueue.act_get_of_cons hwaiter hitems
  have hrun : runLog Ram.act (Ram.start .rp2040 fun _ => 0)
      [.complete 100 (Vector.replicate sizeofMsg 7), .get 200]
        = some ((s₁.deliver 200 q [List.replicate sizeofMsg 7]).1,
          out ++ (s₁.deliver 200 q [List.replicate sizeofMsg 7]).2) := by
    rw [runLog_cons_of_some Ram.act _ hput, runLog_singleton, Ram.act, hget]
    rfl
  refine ⟨_, _, hrun, ?_, Memory.read_write s₁.mem 200 (List.replicate sizeofMsg 7),
    (exactTransfers_iff hrun).mpr (Or.inl rfl)⟩
  rw [gotItems_append, hnone]
  rfl

/-- One packet on the ESP32: the put reads 18 bytes behind the message. -/
theorem exactTransfers_fails :
    ¬ ∀ (mcu : Mcu) (mem : Memory) (acts : List RamAct) (s : Ram mcu) (log : List Transfer),
      runLog Ram.act (Ram.start mcu mem) acts = some (s, log) → ExactTransfers log := by
  intro hall
  obtain ⟨r, hrun⟩ : ∃ r, runLog Ram.act (Ram.start .esp32 fun _ => 0)
      [.complete 100 (Vector.replicate sizeofMsg 7)] = some r := ⟨_, rfl⟩
  exact not_exactTransfers_esp32 hrun List.mem_cons_self (hall .esp32 _ _ r.1 r.2 hrun)

/-- On the ESP32 every get writes 32 bytes, 18 of them behind the `struct Msg`. -/
theorem length_of_got_esp32 {s : Ram .esp32}
    (hrun : runLog Ram.act (Ram.start .esp32 mem) acts = some (s, log)) {dst : Nat}
    {item : List UInt8} {before after : Memory} (ht : .got dst item before after ∈ log) :
    item.length = sizeofMsg + 18 := by
  have horder := inOrder_run hrun
  have hsub := (List.sublist_append_left _ _).trans horder.order
  exact horder.size item (hsub.subset (mem_gotItems ht))

end Law

end UpsFirmware
