import Mathlib.Data.List.Infix
import Mathlib.Tactic.Common

/-!
# `UpsFirmware.Esp32.Sendall`: a buffer goes out in pieces

`sendall` (`esp32-app/src/http.c`) calls `send` until the whole buffer is accepted. `send`
may accept less than it is offered, and the next call offers the rest.

A `Socket` answers every call of `send` with an error or with a number of bytes between 1
and what it is offered, as the function is documented. A `SendCall` is a call with its
result, and `accepted` is what a list of calls has put on the socket.

The loop has no bound in the source. Its fuel is one here, and `sendallLoop_delivered`
says that any fuel above the length of the buffer is enough, which calls of `send` there
are, and what the caller gets.
-/

set_option autoImplicit false

namespace UpsFirmware.Esp32

/-- The results of `send`: what it returns when it is called the `call`th time and offered
`len` bytes. It may look at both, so every sequence of results that fits the lengths
offered is possible. -/
structure Socket where
  send : Nat → UInt32 → Int
  result : ∀ call len, len ≠ 0 →
    send call len < 0 ∨ 1 ≤ send call len ∧ send call len ≤ len.toNat

/-- A call of `send`. -/
structure SendCall where
  offered : List UInt8
  result : Int
deriving DecidableEq

/-- The bytes that a call puts on the socket: as many as its result says. -/
def SendCall.accepted (c : SendCall) : List UInt8 := c.offered.take c.result.toNat

/-- The bytes that the calls put on the socket, one after another. -/
def accepted (calls : List SendCall) : List UInt8 := (calls.map SendCall.accepted).flatten

/-- The loop of `sendall`. `buf` is the memory from the pointer on, and `len` has the type
`size_t`. The result is the returned value with the calls of `send`. -/
def sendallLoop (sock : Socket) :
    (fuel call : Nat) → List UInt8 → UInt32 → Option (Int × List SendCall)
  | 0, _, _, _ => none
  | fuel + 1, call, buf, len =>
      if len ≠ 0 then
        let outLen := sock.send call len
        let c : SendCall := ⟨buf.take len.toNat, outLen⟩
        if outLen < 0 then some (outLen, [c])
        else
          (sendallLoop sock fuel (call + 1) (buf.drop outLen.toNat)
            (len - UInt32.ofInt outLen)).map fun r => (r.1, c :: r.2)
      else some (0, [])

/-- `sendall`. -/
def sendall (sock : Socket) (buf : List UInt8) (len : UInt32) : Option (Int × List SendCall) :=
  sendallLoop sock (len.toNat + 1) 0 buf len

/-! ### The law -/

/-- The call of `send` that offers `rest`. -/
def Socket.call (sock : Socket) (i : Nat) (rest : List UInt8) : SendCall :=
  ⟨rest, sock.send i (UInt32.ofNat rest.length)⟩

/-- What `send` is called for, and what the caller gets. Call `i` offers what the calls in
front of it have left, which is not empty. Without an error, the caller gets zero and the
accepted bytes are the buffer. An error is the last call, it is returned, and the accepted
bytes are a prefix of the buffer. `first` is the number of the first call. -/
structure Delivered (sock : Socket) (first : Nat) (bytes : List UInt8) (ret : Int)
    (calls : List SendCall) : Prop where
  asked : ∀ i c, calls[i]? = some c → c.offered ≠ [] ∧
    c = sock.call (first + i) (bytes.drop (accepted (calls.take i)).length)
  complete : (∀ c ∈ calls, 0 ≤ c.result) → ret = 0 ∧ accepted calls = bytes
  failed : ∀ i c, calls[i]? = some c → c.result < 0 →
    ret = c.result ∧ i + 1 = calls.length ∧ accepted calls <+: bytes

section Calls

variable {sock : Socket} {first : Nat}

/-- An empty buffer needs no call. -/
theorem delivered_nil : Delivered sock first [] 0 [] where
  asked i c h := by
    rw [List.getElem?_nil] at h
    cases h
  complete _ := ⟨rfl, rfl⟩
  failed i c h _ := by
    rw [List.getElem?_nil] at h
    cases h

/-- An error at the first call. -/
theorem delivered_error {bytes : List UInt8} (hne : bytes ≠ [])
    (hret : (sock.call first bytes).result < 0) :
    Delivered sock first bytes (sock.call first bytes).result [sock.call first bytes] where
  asked i c h := by
    cases i with
    | zero =>
      cases h
      exact ⟨hne, rfl⟩
    | succ i =>
      rw [List.getElem?_cons_succ, List.getElem?_nil] at h
      cases h
  complete h := absurd (h _ List.mem_cons_self) (Int.not_le.mpr hret)
  failed i c h _ := by
    cases i with
    | zero =>
      cases h
      refine ⟨rfl, rfl, ?_⟩
      show bytes.take (sock.call first bytes).result.toNat ++ [] <+: bytes
      rw [Int.toNat_of_nonpos (Int.le_of_lt hret), List.take_zero]
      exact List.nil_prefix
    | succ i =>
      rw [List.getElem?_cons_succ, List.getElem?_nil] at h
      cases h

/-- A call that accepts bytes, and then the rest of the buffer. -/
theorem Delivered.cons {bytes : List UInt8} {ret out : Int} {calls : List SendCall}
    (hne : bytes ≠ []) (hcall : (sock.call first bytes).result = out) (hout : 0 ≤ out)
    (hle : out ≤ bytes.length)
    (h : Delivered sock (first + 1) (bytes.drop out.toNat) ret calls) :
    Delivered sock first bytes ret (sock.call first bytes :: calls) where
  asked i c hc := by
    cases i with
    | zero =>
      cases hc
      exact ⟨hne, rfl⟩
    | succ i =>
      rw [List.getElem?_cons_succ] at hc
      obtain ⟨hsome, heq⟩ := h.asked i c hc
      refine ⟨hsome, ?_⟩
      -- The first call has accepted `out` bytes, and the others are counted from there.
      have haccepted : (accepted ((sock.call first bytes :: calls).take (i + 1))).length
          = out.toNat + (accepted (calls.take i)).length := by
        show ((sock.call first bytes).accepted ++ accepted (calls.take i)).length = _
        rw [List.length_append, SendCall.accepted, hcall, List.length_take]
        show min out.toNat bytes.length + _ = _
        omega
      rw [haccepted, ← List.drop_drop, heq, Nat.add_assoc, Nat.add_comm 1 i]
  complete hall := by
    obtain ⟨hret, hrest⟩ := h.complete fun c hc => hall c (List.mem_cons_of_mem _ hc)
    refine ⟨hret, ?_⟩
    show bytes.take (sock.call first bytes).result.toNat ++ accepted calls = bytes
    rw [hcall, hrest, List.take_append_drop]
  failed i c hc hneg := by
    cases i with
    | zero =>
      cases hc
      rw [hcall] at hneg
      exact absurd hneg (Int.not_lt.mpr hout)
    | succ i =>
      rw [List.getElem?_cons_succ] at hc
      obtain ⟨hret, hlast, hfront⟩ := h.failed i c hc hneg
      refine ⟨hret, by rw [List.length_cons, hlast], ?_⟩
      show bytes.take (sock.call first bytes).result.toNat ++ accepted calls <+: bytes
      have hjoin := List.prefix_append_right_inj (bytes.take out.toNat) |>.mpr hfront
      rw [List.take_append_drop] at hjoin
      rw [hcall]
      exact hjoin

end Calls

/-! ### The loop -/

/-- The length that is left after a call. -/
theorem toNat_sub_ofInt {len : UInt32} {out : Int} (hpos : 1 ≤ out) (hle : out ≤ len.toNat) :
    (len - UInt32.ofInt out).toNat = len.toNat - out.toNat := by
  have hlen := len.toNat_lt
  have hofInt : (UInt32.ofInt out).toNat = out.toNat := by
    rw [UInt32.ofInt, UInt32.toNat_ofNat', Int.emod_eq_of_lt (by omega) (by omega)]
    omega
  rw [UInt32.toNat_sub_of_le, hofInt]
  rw [UInt32.le_iff_toNat_le, hofInt]
  omega

/-- With any fuel above the length, the loop returns, and it delivers the buffer. The
length that is left is the measure. -/
theorem sendallLoop_delivered (sock : Socket) (n : Nat) :
    ∀ (call : Nat) (buf : List UInt8) (len : UInt32), len.toNat = n → n ≤ buf.length →
      ∃ ret calls, Delivered sock call (buf.take n) ret calls ∧
        ∀ fuel, n < fuel → sendallLoop sock fuel call buf len = some (ret, calls) := by
  induction n using Nat.strongRecOn with
  | ind n ih =>
    intro call buf len hlen hbuf
    have hsucc : ∀ {fuel}, n < fuel → ∃ k, fuel = k + 1 :=
      fun hfuel => Nat.exists_eq_add_one_of_ne_zero (Nat.ne_zero_of_lt hfuel)
    by_cases hzero : len = 0
    · -- Nothing is left, and `send` is not called.
      have hn : n = 0 := by
        rw [← hlen, hzero]
        rfl
      refine ⟨0, [], ?_, fun fuel hfuel => ?_⟩
      · rw [hn, List.take_zero]
        exact delivered_nil
      · obtain ⟨k, rfl⟩ := hsucc hfuel
        rw [sendallLoop, if_neg (fun hne => hne hzero)]
    · -- `send` is called with what is left.
      have htake : (buf.take n).length = n := List.length_take_of_le hbuf
      have hcall : sock.call call (buf.take n) = ⟨buf.take n, sock.send call len⟩ := by
        rw [Socket.call, htake, ← hlen, UInt32.ofNat_toNat]
      have hne : buf.take n ≠ [] := by
        intro hnil
        rw [hnil] at htake
        exact hzero (UInt32.toNat_inj.mp (hlen.trans htake.symm))
      rcases sock.result call len hzero with hneg | ⟨hpos, hle⟩
      · have herror := @delivered_error sock call (buf.take n) hne (by rw [hcall]; exact hneg)
        refine ⟨_, _, herror, fun fuel hfuel => ?_⟩
        obtain ⟨k, rfl⟩ := hsucc hfuel
        rw [sendallLoop, if_pos hzero, if_pos hneg, hcall, hlen]
      · -- At least one byte is accepted, so the rest is shorter.
        have hrest := toNat_sub_ofInt hpos hle
        obtain ⟨ret, calls, hdelivered, hrun⟩ := ih (n - (sock.send call len).toNat) (by omega)
          (call + 1) (buf.drop (sock.send call len).toNat) _ (by rw [hrest, hlen])
          (by rw [List.length_drop]; omega)
        refine ⟨ret, sock.call call (buf.take n) :: calls, ?_, fun fuel hfuel => ?_⟩
        · rw [← List.drop_take] at hdelivered
          exact hdelivered.cons hne (by rw [hcall]) (by omega) (by omega)
        · obtain ⟨k, rfl⟩ := hsucc hfuel
          rw [sendallLoop, if_pos hzero, if_neg (by omega), hrun k (by omega), hlen, hcall]
          rfl

/-- A socket without errors takes every buffer that has a `size_t` length. -/
theorem sendall_complete (sock : Socket) (hgood : ∀ call len, 0 ≤ sock.send call len)
    (bytes : List UInt8) (hlen : bytes.length < 4294967296) :
    ∃ calls, sendall sock bytes (UInt32.ofNat bytes.length) = some (0, calls) ∧
      accepted calls = bytes := by
  have hlength : (UInt32.ofNat bytes.length).toNat = bytes.length :=
    UInt32.toNat_ofNat_of_lt' hlen
  obtain ⟨ret, calls, hdelivered, hrun⟩ := sendallLoop_delivered sock bytes.length 0 bytes
    (UInt32.ofNat bytes.length) hlength (Nat.le_refl _)
  have hcalls := hrun ((UInt32.ofNat bytes.length).toNat + 1) (by rw [hlength]; omega)
  obtain ⟨hret, hbytes⟩ := hdelivered.complete fun c hc => by
    obtain ⟨i, hi⟩ := List.mem_iff_getElem?.mp hc
    rw [(hdelivered.asked i c hi).2]
    exact hgood _ _
  rw [List.take_length] at hbytes
  rw [hret] at hcalls
  exact ⟨calls, hcalls, hbytes⟩

/-- `sendall` returns, whatever `send` does. Call `i` of `send` offers what the calls in
front of it have left of the buffer, and its result is what `send` returns for that. Without
an error `sendall` returns zero, and the accepted bytes are the buffer. With an error it
returns the error at once, and the accepted bytes are a prefix of the buffer. -/
theorem sendall_delivers (sock : Socket) (buf : List UInt8) (len : UInt32)
    (hbuf : len.toNat ≤ buf.length) :
    ∃ ret calls,
      (∀ fuel, len.toNat < fuel → sendallLoop sock fuel 0 buf len = some (ret, calls)) ∧
      (∀ i c, calls[i]? = some c → c.offered ≠ [] ∧
        c.offered = (buf.take len.toNat).drop (accepted (calls.take i)).length ∧
        c.result = sock.send i (UInt32.ofNat c.offered.length)) ∧
      ((∀ c ∈ calls, 0 ≤ c.result) → ret = 0 ∧ accepted calls = buf.take len.toNat) ∧
      ∀ i c, calls[i]? = some c → c.result < 0 →
        ret = c.result ∧ i + 1 = calls.length ∧ accepted calls <+: buf.take len.toNat := by
  obtain ⟨ret, calls, hdelivered, hrun⟩ :=
    sendallLoop_delivered sock len.toNat 0 buf len rfl hbuf
  refine ⟨ret, calls, hrun, ?_, hdelivered.complete, hdelivered.failed⟩
  intro i c hc
  obtain ⟨hne, heq⟩ := hdelivered.asked i c hc
  rw [Nat.zero_add] at heq
  exact ⟨hne, by rw [heq]; rfl, by rw [heq]; rfl⟩

/-- A socket that accepts two bytes at a time. -/
def twoAtATime : Socket where
  send _ len := min 2 len.toNat
  result call len hlen := by
    have hpos : len.toNat ≠ 0 := fun h => hlen (UInt32.toNat_inj.mp h)
    omega

/-- Five bytes through a socket that accepts two at a time. -/
theorem sendall_delivers_twoAtATime :
    ∃ calls, sendall twoAtATime [1, 2, 3, 4, 5] 5 = some (0, calls) ∧
      (∀ i c, calls[i]? = some c →
        c.offered = [1, 2, 3, 4, 5].drop (accepted (calls.take i)).length ∧
        c.result = twoAtATime.send i (UInt32.ofNat c.offered.length)) ∧
      accepted calls = [1, 2, 3, 4, 5] := by
  obtain ⟨ret, calls, hrun, hasked, hcomplete, -⟩ :=
    sendall_delivers twoAtATime [1, 2, 3, 4, 5] 5 (by decide)
  have hcalls : some (ret, calls)
      = some (0, [⟨[1, 2, 3, 4, 5], 2⟩, ⟨[3, 4, 5], 2⟩, ⟨[5], 1⟩]) := by
    rw [← hrun 6 (by decide)]
    decide
  rw [Option.some.injEq, Prod.mk.injEq] at hcalls
  have hgood : ∀ c ∈ calls, 0 ≤ c.result := by
    rw [hcalls.2]
    decide
  obtain ⟨hret, hbytes⟩ := hcomplete hgood
  refine ⟨calls, ?_, fun i c hc => (hasked i c hc).2, hbytes⟩
  rw [← hret]
  exact hrun 6 (by decide)

end UpsFirmware.Esp32
