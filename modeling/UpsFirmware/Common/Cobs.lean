import UpsFirmware.Common.Msg
import UpsFirmware.Lib.Stuffing

/-!
# `UpsFirmware.Common.Cobs`: the codec of the inter-MCU link

`msg_cobs_encode` and `msg_cobs_decode` (`common/msg.c`). The encoder runs over
the message from its last byte to its first and keeps the distance to the next
zero in `k`. The decoder starts at index 0 of the buffer, follows the offsets,
and writes a zero over each. Neither checks a buffer length. The encoder's
writes end at index 15, and the model asks for a buffer that long. How far the
decoder reads depends on the bytes it finds, so the model makes every access of
its loop checked: `none` is an access past the end of the buffer.

The two loops are connected to `Lib.Stuffing` once, by `msgCobsEncode_toList` and
`msgCobsDecode_loop_toList`. The rest of the file reads its results off there:

* `msgCobsDecode_frame`: what the decoder returns on a buffer that starts with a
  frame.
* `msgCobs_bijection`: the two directions of the round trip.
* `msgCobsDecode_loop_isSome_iff`: when the decoder stays inside its buffer.
-/

set_option autoImplicit false

namespace UpsFirmware

open Lib Lib.Stuffing

/-- Bytes as an alphabet: `0` is the delimiter, and byte `k` spells distance
`k`. -/
instance : OffsetAlphabet UInt8 where
  delim := 0
  dist := UInt8.toNat
  letter := UInt8.ofNat
  maxDist := 255
  dist_letter k hk := by
    rw [UInt8.toNat_ofNat', Nat.mod_eq_of_lt (by omega)]
  letter_dist _ := UInt8.ofNat_toNat
  dist_eq_zero a := by
    rw [← UInt8.toNat_inj]
    rfl

theorem delim_eq_zero : (OffsetAlphabet.delim : UInt8) = 0 := rfl

/-! ### `msg_cobs_encode` -/

/-- `while (i--)` of `msg_cobs_encode`, with `i` bytes left. `k` is the distance
from the byte about to be written to the next zero. -/
def msgCobsEncode.loop {n : Nat} (ptr : Image) (hn : sizeofMsg + 2 ≤ n) :
    (i : Nat) → i ≤ sizeofMsg → Nat → Vector UInt8 n → Nat × Vector UInt8 n
  | 0, _, k, buf => (k, buf)
  | i + 1, hi, k, buf =>
      -- Byte `i` of the message goes to index `i + 1`, behind the first offset.
      if ptr[i] = 0 then
        loop ptr hn i (by omega) 1 (buf.set (i + 1) (UInt8.ofNat k) (by omega))
      else
        loop ptr hn i (by omega) (k + 1) (buf.set (i + 1) ptr[i] (by omega))

/-- `msg_cobs_encode`: the buffer after the call, and the returned length. -/
def msgCobsEncode {n : Nat} (msg : Image) (buf : Vector UInt8 n)
    (hn : sizeofMsg + 2 ≤ n) : Vector UInt8 n × Nat :=
  let buf := buf.set (sizeofMsg + 1) 0 (by omega) -- End Byte
  let r := msgCobsEncode.loop msg hn sizeofMsg (Nat.le_refl _) 1 buf
  (r.2.set 0 (UInt8.ofNat r.1) (by omega), sizeofMsg + 2) -- First byte

/-! ### `msg_cobs_decode` -/

/-- The `for` loop of `msg_cobs_decode` at index `i`. `i += offset - 1` and the
loop's own `i++` together move `i` by the offset. -/
def msgCobsDecode.loop {n : Nat} (buf : Vector UInt8 n) (i : Nat) :
    Option (Vector UInt8 n) :=
  if h : i < n then
    if buf[i] = 0 then some buf
    else loop (buf.set i 0) (i + buf[i].toNat)
  else none
termination_by n - i
decreasing_by
  -- A byte that is not zero moves `i` ahead.
  have hpos : buf[i].toNat ≠ 0 := fun h0 =>
    ‹¬ buf[i] = 0› ((OffsetAlphabet.dist_eq_zero buf[i]).mp h0)
  omega

/-- The indices the loop reads, and writes unless the walk ends there. The last
one is past the end of the buffer when the walk leaves it. -/
def msgCobsDecode.visited {n : Nat} (buf : Vector UInt8 n) (i : Nat) : List Nat :=
  if h : i < n then
    if buf[i] = 0 then [i]
    else i :: visited (buf.set i 0) (i + buf[i].toNat)
  else [i]
termination_by n - i
decreasing_by
  have hpos : buf[i].toNat ≠ 0 := fun h0 =>
    ‹¬ buf[i] = 0› ((OffsetAlphabet.dist_eq_zero buf[i]).mp h0)
  omega

/-- `memcpy(msg, buf + 1, len)`. -/
def copyMsg {n : Nat} (buf : Vector UInt8 n) (hn : sizeofMsg + 1 ≤ n) : Image :=
  Vector.ofFn fun j => buf[j.val + 1]

/-- `msg_cobs_decode`: the message, and the buffer with the offsets zeroed. -/
def msgCobsDecode {n : Nat} (buf : Vector UInt8 n) (hn : sizeofMsg + 1 ≤ n) :
    Option (Image × Vector UInt8 n) :=
  (msgCobsDecode.loop buf 0).map fun buf => (copyMsg buf hn, buf)

/-! ### The loops and the stuffing library -/

/-- Writing at `i` replaces the letter in front of what stands behind `i`. -/
theorem drop_set_self {α : Type} {l : List α} {i : Nat} (a : α) (h : i < l.length) :
    (l.set i a).drop i = a :: l.drop (i + 1) := by
  rw [List.drop_eq_getElem_cons (by simpa using h), List.getElem_set_self,
    List.drop_set_of_lt (Nat.lt_succ_self i)]

/-- The encoder's loop invariant. With `i` bytes left, `k` and the bytes behind
index `i` are the stuffing of the message bytes from `i` on; at the end they are
the stuffing of the whole message. -/
theorem msgCobsEncode_loop_spec {n : Nat} (ptr : Image) (hn : sizeofMsg + 2 ≤ n)
    (rest : List UInt8) :
    ∀ (i : Nat) (hi : i ≤ sizeofMsg) (k : Nat) (buf : Vector UInt8 n),
      k = (stuff (ptr.toList.drop i)).1 →
      buf.toList.drop (i + 1) = (stuff (ptr.toList.drop i)).2 ++ rest →
      (msgCobsEncode.loop ptr hn i hi k buf).1 = (stuff ptr.toList).1 ∧
      (msgCobsEncode.loop ptr hn i hi k buf).2.toList.drop 1
        = (stuff ptr.toList).2 ++ rest := by
  intro i
  induction i with
  | zero =>
    intro hi k buf hk hbuf
    exact ⟨hk, hbuf⟩
  | succ i ih =>
    intro hi k buf hk hbuf
    have hlen : i < ptr.toList.length := by rw [Vector.length_toList]; omega
    have hblen : i + 1 < buf.toList.length := by rw [Vector.length_toList]; omega
    have hdrop : ptr.toList.drop i = ptr[i] :: ptr.toList.drop (i + 1) := by
      rw [List.drop_eq_getElem_cons hlen, Vector.getElem_toList]
    rw [msgCobsEncode.loop]
    by_cases hz : ptr[i] = 0
    · -- A zero of the message: the distance goes into the buffer, counting restarts.
      rw [if_pos hz]
      have hstuff := stuff_cons_delim (ptr.toList.drop (i + 1))
      rw [delim_eq_zero, ← hz, ← hdrop] at hstuff
      refine ih (by omega) 1 _ (by rw [hstuff]) ?_
      rw [Vector.toList_set, drop_set_self _ hblen, hbuf, hstuff, hk]
      rfl
    · -- Any other byte is copied, and the zero is one further away.
      rw [if_neg hz]
      have hstuff := stuff_cons_of_ne (x := ptr[i]) hz (ptr.toList.drop (i + 1))
      rw [← hdrop] at hstuff
      refine ih (by omega) (k + 1) _ (by rw [hstuff, hk]) ?_
      rw [Vector.toList_set, drop_set_self _ hblen, hbuf, hstuff]
      rfl

/-- What `msg_cobs_encode` leaves in the buffer: the stuffed message, the end
byte, and the old bytes behind it. -/
theorem msgCobsEncode_toList {n : Nat} (msg : Image) (buf : Vector UInt8 n)
    (hn : sizeofMsg + 2 ≤ n) :
    (msgCobsEncode msg buf hn).1.toList
      = stuffed msg.toList ++ 0 :: buf.toList.drop (sizeofMsg + 2) := by
  have hlen : sizeofMsg + 1 < buf.toList.length := by rw [Vector.length_toList]; omega
  have hall : msg.toList.drop sizeofMsg = [] :=
    List.drop_eq_nil_of_le (Nat.le_of_eq Vector.length_toList)
  obtain ⟨hk, hbytes⟩ := msgCobsEncode_loop_spec msg hn
    (0 :: buf.toList.drop (sizeofMsg + 2)) sizeofMsg (Nat.le_refl _) 1
    (buf.set (sizeofMsg + 1) 0 (by omega)) (by rw [hall]; rfl)
    (by rw [hall, Vector.toList_set, drop_set_self _ hlen]; rfl)
  have hfirst : ∀ (b : Vector UInt8 n) (x : UInt8),
      (b.set 0 x (by omega)).toList = x :: b.toList.drop 1 := by
    intro b x
    have hb : 0 < b.toList.length := by rw [Vector.length_toList]; omega
    rw [Vector.toList_set, ← drop_set_self x hb, List.drop_zero]
  rw [msgCobsEncode, hfirst, hbytes, hk]
  rfl

/-- Writing at `i` and cutting further ahead: the letters before `i`, the new
letter, and the letters in between. -/
theorem take_set_add {α : Type} {l : List α} {i d : Nat} (a : α) (h : i < l.length)
    (hd : 0 < d) :
    (l.set i a).take (i + d) = l.take i ++ a :: (l.drop (i + 1)).take (d - 1) := by
  have hmin : i + d - min i l.length = (d - 1) + 1 := by omega
  rw [List.set_eq_take_append_cons_drop, if_pos h, List.take_append, List.length_take, hmin,
    List.take_succ_cons, List.take_of_length_le (by rw [List.length_take]; omega)]

/-- The decoder's loop is the walk of the stuffing library, in place. -/
theorem msgCobsDecode_loop_toList {n : Nat} (buf : Vector UInt8 n) (i : Nat) :
    (msgCobsDecode.loop buf i).map Vector.toList
      = (follow 0 (buf.toList.drop i)).map (buf.toList.take i ++ ·) := by
  induction buf, i using msgCobsDecode.loop.induct with
  | case1 buf i h hz =>
    -- The walk ends on a zero and rewrites nothing.
    have hdrop : buf.toList.drop i = 0 :: buf.toList.drop (i + 1) := by
      rw [List.drop_eq_getElem_cons (by rw [Vector.length_toList]; exact h),
        Vector.getElem_toList, hz]
    rw [msgCobsDecode.loop, dif_pos h, if_pos hz, hdrop, ← delim_eq_zero, follow_zero_delim,
      delim_eq_zero, ← hdrop]
    simp
  | case2 buf i h hz ih =>
    -- One hop: the letters it passes move in front of the rest of the walk.
    have hlen : i < buf.toList.length := by rw [Vector.length_toList]; exact h
    have hpos : 0 < buf[i].toNat := dist_pos hz
    have hdrop : buf.toList.drop i = buf[i] :: buf.toList.drop (i + 1) := by
      rw [List.drop_eq_getElem_cons hlen, Vector.getElem_toList]
    rw [msgCobsDecode.loop, dif_pos h, if_neg hz, ih, Vector.toList_set,
      List.drop_set_of_lt (by omega), take_set_add 0 hlen hpos, hdrop, follow_zero_of_ne hz,
      follow_eq_drop (OffsetAlphabet.dist buf[i] - 1), List.drop_drop]
    have hidx : i + 1 + (OffsetAlphabet.dist buf[i] - 1) = i + buf[i].toNat := by
      show i + 1 + (buf[i].toNat - 1) = _
      omega
    rw [hidx, Option.map_map, Option.map_map]
    congr 1
    funext ys
    simp only [Function.comp_apply, List.append_assoc, List.cons_append]
    rfl
  | case3 buf i h =>
    -- Behind the buffer there is nothing to read.
    rw [msgCobsDecode.loop, dif_neg h,
      List.drop_eq_nil_iff.mpr (by rw [Vector.length_toList]; omega)]
    rfl

/-! ### Where the decoder goes -/

/-- The decoder's loop stays inside its buffer exactly when the offsets, followed
from `i` through the bytes as they are before the call, lead to a zero. -/
theorem msgCobsDecode_loop_isSome_iff {n : Nat} (buf : Vector UInt8 n) :
    (msgCobsDecode.loop buf 0).isSome ↔
      ∃ z, Hops buf.toList 0 z ∧ buf.toList[z]? = some 0 := by
  have h := congrArg Option.isSome (msgCobsDecode_loop_toList buf 0)
  rw [Option.isSome_map, Option.isSome_map, List.drop_zero] at h
  rw [h, follow_isSome_iff]
  rfl

/-- The loop stays inside its buffer exactly when every index it visits does. -/
theorem msgCobsDecode_visited_lt_iff {n : Nat} (buf : Vector UInt8 n) (i : Nat) :
    (∀ k ∈ msgCobsDecode.visited buf i, k < n) ↔ (msgCobsDecode.loop buf i).isSome := by
  induction buf, i using msgCobsDecode.loop.induct with
  | case1 buf i h hz =>
    rw [msgCobsDecode.visited, dif_pos h, if_pos hz, msgCobsDecode.loop, dif_pos h, if_pos hz]
    simp [h]
  | case2 buf i h hz ih =>
    rw [msgCobsDecode.visited, dif_pos h, if_neg hz, msgCobsDecode.loop, dif_pos h, if_neg hz,
      ← ih]
    simp [h]
  | case3 buf i h =>
    rw [msgCobsDecode.visited, dif_neg h, msgCobsDecode.loop, dif_neg h]
    simpa using h

/-! ### The round trip -/

/-- The 14 bytes behind index 0 are the message. -/
theorem copyMsg_eq {n : Nat} (buf : Vector UInt8 n) (hn : sizeofMsg + 1 ≤ n) (msg : Image)
    (b : UInt8) (rest : List UInt8) (h : buf.toList = b :: msg.toList ++ rest) :
    copyMsg buf hn = msg := by
  apply Vector.ext
  intro j hj
  have hlen : j < msg.toList.length := by rw [Vector.length_toList]; exact hj
  have hget : buf.toList[j + 1]? = some msg[j] := by
    rw [h, List.cons_append, List.getElem?_cons_succ, List.getElem?_append_left hlen,
      List.getElem?_eq_getElem hlen, Vector.getElem_toList]
  rw [List.getElem?_eq_getElem (by rw [Vector.length_toList]; omega), Vector.getElem_toList,
    Option.some.injEq] at hget
  rw [copyMsg, Vector.getElem_ofFn]
  exact hget

/-- `msg_cobs_decode` on a buffer that starts with the 15 bytes of the frame of
`msg`. It returns `msg` and leaves the frame with its offsets zeroed, unless the
walk goes on behind the frame and leaves the buffer there. -/
theorem msgCobsDecode_frame {n : Nat} (buf : Vector UInt8 n) (hn : sizeofMsg + 1 ≤ n)
    (msg : Image) (tail : List UInt8) (h : buf.toList = stuffed msg.toList ++ tail) :
    (msgCobsDecode buf hn).map (fun r => (r.1, r.2.toList))
      = (follow 0 tail).map fun t => (msg, 0 :: msg.toList ++ t) := by
  have hloop := msgCobsDecode_loop_toList buf 0
  rw [List.drop_zero, h, follow_stuffed _ _ (by rw [Vector.length_toList]; decide),
    Option.map_map] at hloop
  simp only [List.take_zero, Function.comp_def, List.nil_append, delim_eq_zero] at hloop
  rw [msgCobsDecode]
  cases hdec : msgCobsDecode.loop buf 0 with
  | none =>
    rw [hdec] at hloop
    cases hf : follow 0 tail with
    | none => rfl
    | some t => rw [hf] at hloop; simp at hloop
  | some buf' =>
    rw [hdec] at hloop
    cases hf : follow 0 tail with
    | none => rw [hf] at hloop; simp at hloop
    | some t =>
      rw [hf, Option.map_some, Option.map_some, Option.some.injEq] at hloop
      simp only [Option.map_some, copyMsg_eq buf' hn msg _ _ hloop, hloop]

/-- A whole frame, end byte included, decodes to its message. -/
theorem msgCobsDecode_eq_some {n : Nat} (buf : Vector UInt8 n) (hn : sizeofMsg + 1 ≤ n)
    (msg : Image) (rest : List UInt8) (h : buf.toList = stuffed msg.toList ++ 0 :: rest) :
    ∃ buf' : Vector UInt8 n, msgCobsDecode buf hn = some (msg, buf') := by
  have hdec := msgCobsDecode_frame buf hn msg (0 :: rest) h
  rw [← delim_eq_zero, follow_zero_delim, Option.map_some, Option.map_eq_some_iff] at hdec
  obtain ⟨⟨msg', buf'⟩, hsome, heq⟩ := hdec
  have hmsg : msg' = msg := congrArg Prod.fst heq
  subst hmsg
  exact ⟨buf', hsome⟩

/-- A frame's bytes before the end byte are all non-zero. -/
theorem ne_zero_of_mem_stuffed (msg : Image) : ∀ b ∈ stuffed msg.toList, b ≠ 0 :=
  ne_delim_of_mem_stuffed msg.toList (by rw [Vector.length_toList]; decide)

theorem length_stuffed_image (msg : Image) : (stuffed msg.toList).length = sizeofMsg + 1 := by
  rw [length_stuffed, Vector.length_toList]

/-- The bytes of an encoded message: 15 that are not zero, the zero, and the old ones. -/
theorem msgCobsEncode_bytes {n : Nat} (msg : Image) (buf : Vector UInt8 n)
    (hn : sizeofMsg + 2 ≤ n) :
    (∀ i < 15, (msgCobsEncode msg buf hn).1[i]? ≠ some 0) ∧
      (msgCobsEncode msg buf hn).1[15]? = some 0 ∧
      ∀ i, 16 ≤ i → (msgCobsEncode msg buf hn).1[i]? = buf[i]? := by
  have hsize : sizeofMsg = 14 := rfl
  have hlist := msgCobsEncode_toList msg buf hn
  have hlen := length_stuffed_image msg
  refine ⟨?_, ?_, ?_⟩
  · intro i hi
    rw [← Vector.getElem?_toList, hlist, List.getElem?_append_left (by omega)]
    intro h0
    exact ne_zero_of_mem_stuffed msg 0 (List.mem_of_getElem? h0) rfl
  · rw [← Vector.getElem?_toList, hlist, List.getElem?_append_right (by omega), hlen]
    rfl
  · intro i hi
    have hidx : i - (sizeofMsg + 1) = (i - 16) + 1 := by omega
    rw [← Vector.getElem?_toList, ← Vector.getElem?_toList, hlist,
      List.getElem?_append_right (by omega), hlen, hidx, List.getElem?_cons_succ,
      List.getElem?_drop]
    congr 1
    omega

/-- 15 non-zero bytes and a zero, whose offsets lead to the zero, are the frame of a
message. -/
theorem eq_stuffed_of_hops (frame : Vector UInt8 16) (hne : ∀ i < 15, frame[i]? ≠ some 0)
    (h0 : frame[15]? = some 0) (hops : Hops frame.toList 0 15) :
    ∃ msg : Image, frame.toList = stuffed msg.toList ++ [0] := by
  -- The frame is its first 15 bytes and the end byte.
  have hlen : frame.toList.length = 16 := Vector.length_toList
  have hsplit : frame.toList = frame.toList.take 15 ++ [0] := by
    rw [← Vector.getElem?_toList, List.getElem?_eq_getElem (by omega), Option.some.injEq] at h0
    rw [← h0, List.take_append_getElem (by omega), List.take_of_length_le (by omega)]
  have htake : (frame.toList.take 15).length = 15 := by rw [List.length_take]; omega
  have hne' : ∀ b ∈ frame.toList.take 15, b ≠ 0 := by
    intro b hb hb0
    subst hb0
    obtain ⟨i, hi, hget⟩ := List.mem_take_iff_getElem.mp hb
    refine hne i (by omega) ?_
    rw [← Vector.getElem?_toList, List.getElem?_eq_getElem (by omega), hget]
  have hchain : Hops (frame.toList.take 15) 0 (frame.toList.take 15).length := by
    rw [htake]
    rw [hsplit] at hops
    exact hops_of_append hops (by omega)
  obtain ⟨xs, hstuffed⟩ := stuffed_of_hops (frame.toList.take 15) hne'
    (List.ne_nil_of_length_pos (by omega)) hchain
  -- The letters behind the first offset are the stuffing of a message's bytes.
  have hxs : xs.length = sizeofMsg := by
    have hsize : sizeofMsg = 14 := rfl
    rw [← hstuffed, length_stuffed] at htake
    omega
  rw [← hstuffed] at hsplit
  exact ⟨⟨xs.toArray, by simpa using hxs⟩, hsplit⟩

/-- The codec is a bijection between messages and frames. For every message, the
encoder reports 16 bytes, writes 15 non-zero bytes and a zero, touches nothing
behind them, and the decoder returns the message. For every 15 non-zero bytes
and a zero whose offsets lead from index 0 to index 15, encoding what the
decoder returns gives the same 16 bytes. -/
theorem msgCobs_bijection :
    (∀ (n : Nat) (msg : Image) (buf : Vector UInt8 n) (hn : sizeofMsg + 2 ≤ n),
      (msgCobsEncode msg buf hn).2 = 16 ∧
      (∀ i < 15, (msgCobsEncode msg buf hn).1[i]? ≠ some 0) ∧
      (msgCobsEncode msg buf hn).1[15]? = some 0 ∧
      (∀ i, 16 ≤ i → (msgCobsEncode msg buf hn).1[i]? = buf[i]?) ∧
      ∃ buf', msgCobsDecode (msgCobsEncode msg buf hn).1 (by omega) = some (msg, buf')) ∧
    (∀ frame : Vector UInt8 16, (∀ i < 15, frame[i]? ≠ some 0) → frame[15]? = some 0 →
      Hops frame.toList 0 15 →
      ∃ msg buf', msgCobsDecode frame (by decide) = some (msg, buf') ∧
        ∀ (n : Nat) (buf : Vector UInt8 n) (hn : sizeofMsg + 2 ≤ n),
          (msgCobsEncode msg buf hn).1.toList.take 16 = frame.toList) := by
  constructor
  · intro n msg buf hn
    obtain ⟨buf', hdec⟩ := msgCobsDecode_eq_some (msgCobsEncode msg buf hn).1 (by omega) msg
      _ (msgCobsEncode_toList msg buf hn)
    obtain ⟨hne, hend, hbehind⟩ := msgCobsEncode_bytes msg buf hn
    exact ⟨rfl, hne, hend, hbehind, buf', hdec⟩
  · intro frame hne h0 hops
    obtain ⟨msg, hframe⟩ := eq_stuffed_of_hops frame hne h0 hops
    obtain ⟨buf', hdec⟩ := msgCobsDecode_eq_some frame (by decide) msg [] hframe
    refine ⟨msg, buf', hdec, ?_⟩
    intro n buf hn
    have h16 : (stuffed msg.toList ++ [0]).length = 16 := by
      rw [List.length_append, length_stuffed_image]
      rfl
    rw [msgCobsEncode_toList, List.append_cons, hframe]
    exact List.take_left' h16

/-- `msgCobs_bijection` at the frame of the all-zero message, fifteen ones and a
zero: its offsets lead from index to index up to 15. -/
theorem msgCobs_bijection_zeros :
    ∃ msg buf', msgCobsDecode (#v[1, 1, 1, 1, 1, 1, 1, 1, 1, 1, 1, 1, 1, 1, 1, 0] :
        Vector UInt8 16) (by decide) = some (msg, buf') ∧
      (msgCobsEncode msg (Vector.replicate 64 0) (by decide)).1.toList.take 16
        = [1, 1, 1, 1, 1, 1, 1, 1, 1, 1, 1, 1, 1, 1, 1, 0] := by
  obtain ⟨msg, buf', hdec, henc⟩ := msgCobs_bijection.2
    #v[1, 1, 1, 1, 1, 1, 1, 1, 1, 1, 1, 1, 1, 1, 1, 0] (by decide) (by decide) (by
      have hhop : ∀ i < 15, Hop ([1, 1, 1, 1, 1, 1, 1, 1, 1, 1, 1, 1, 1, 1, 1, 0] : List UInt8)
          i (i + 1) := by
        intro i hi
        exact ⟨1, by revert i; decide, by decide, rfl⟩
      have hall : ∀ k ≤ 15, Hops ([1, 1, 1, 1, 1, 1, 1, 1, 1, 1, 1, 1, 1, 1, 1, 0] : List UInt8)
          0 k := by
        intro k
        induction k with
        | zero => intro _; exact .refl
        | succ k ih => intro hk; exact (ih (by omega)).tail (hhop k (by omega))
      exact hall 15 (Nat.le_refl _))
  exact ⟨msg, buf', hdec, henc 64 _ (by decide)⟩

end UpsFirmware
