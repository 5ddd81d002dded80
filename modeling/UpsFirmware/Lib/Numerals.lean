import Mathlib.Data.Nat.Digits.Lemmas
import Mathlib.Tactic.Common

/-!
# `UpsFirmware.Lib.Numerals`: numbers written with a limited number of digits

A routine that writes a number in a base divides it again and again, and stops when
nothing is left or when its buffer is full. `lowDigits` is that loop. It writes at least
one digit, so zero is `[0]`, and the digits come lowest first.

`readNumeral` is the reader: the digits come highest first, and each one multiplies what
is read so far by the base. `readNumeral_lowDigits` says what a full buffer costs. What is
read back is the number modulo `base ^ room`, whatever zeros are put in front.
-/

set_option autoImplicit false

namespace UpsFirmware.Lib

/-- The digits of a number, lowest first, until it is used up or `room` digits are
written. -/
def lowDigits (base : Nat) : Nat → Nat → List Nat
  | 0, _ => []
  | room + 1, value =>
    value % base :: if value / base = 0 then [] else lowDigits base room (value / base)

theorem lowDigits_succ (base room value : Nat) :
    lowDigits base (room + 1) value
      = value % base :: if value / base = 0 then [] else lowDigits base room (value / base) :=
  rfl

/-- The value of a numeral, highest digit first. -/
def readNumeral (base : Nat) (digits : List Nat) : Nat :=
  digits.foldl (fun value digit => value * base + digit) 0

/-- Read from the lowest digit on, a numeral is `Nat.ofDigits`. -/
theorem readNumeral_reverse (base : Nat) (digits : List Nat) :
    readNumeral base digits.reverse = Nat.ofDigits base digits := by
  rw [readNumeral, List.foldl_reverse]
  induction digits with
  | nil => rfl
  | cons d digits ih =>
    rw [List.foldr_cons, ih, Nat.ofDigits_cons, Nat.mul_comm, Nat.add_comm]

/-- No more digits than there is room. -/
theorem length_lowDigits_le (base room value : Nat) :
    (lowDigits base room value).length ≤ room := by
  induction room generalizing value with
  | zero => exact le_rfl
  | succ room ih =>
    rw [lowDigits_succ, List.length_cons]
    split
    · simp
    · exact Nat.succ_le_succ (ih (value / base))

/-- A digit is below the base. -/
theorem lowDigits_lt {base : Nat} (hbase : 0 < base) {room value d : Nat}
    (hd : d ∈ lowDigits base room value) : d < base := by
  induction room generalizing value with
  | zero => cases hd
  | succ room ih =>
    rw [lowDigits_succ, List.mem_cons] at hd
    rcases hd with rfl | hd
    · exact Nat.mod_lt value hbase
    · split at hd
      · cases hd
      · exact ih hd

/-- The digits that fit give the number modulo a power of the base. -/
theorem ofDigits_lowDigits (base room value : Nat) :
    Nat.ofDigits base (lowDigits base room value) = value % base ^ room := by
  induction room generalizing value with
  | zero =>
    rw [Nat.pow_zero, Nat.mod_one]
    rfl
  | succ room ih =>
    rw [lowDigits_succ, Nat.ofDigits_cons, Nat.pow_succ', Nat.mod_mul]
    split
    · rename_i hzero
      rw [hzero, Nat.zero_mod]
      rfl
    · rw [ih]

/-- These are the digits, cut to the room there is. -/
theorem lowDigits_eq_take {base value : Nat} (hbase : 1 < base) (hvalue : value ≠ 0)
    (room : Nat) : lowDigits base room value = (base.digits value).take room := by
  induction room generalizing value with
  | zero => rfl
  | succ room ih =>
    rw [lowDigits_succ, Nat.digits_def' hbase (Nat.pos_of_ne_zero hvalue), List.take_succ_cons]
    by_cases hzero : value / base = 0
    · rw [if_pos hzero, hzero, Nat.digits_zero, List.take_nil]
    · rw [if_neg hzero, ih hzero]

/-- With enough room, these are the digits. -/
theorem lowDigits_eq_digits {base room value : Nat} (hbase : 1 < base) (hvalue : value ≠ 0)
    (hfits : value < base ^ room) : lowDigits base room value = base.digits value := by
  rw [lowDigits_eq_take hbase hvalue, List.take_of_length_le]
  exact (Nat.digits_length_le_iff hbase value).mpr hfits

/-- Zeros in front of a number that is cut to `room` digits do not change what is read
back. -/
theorem readNumeral_lowDigits (base room value zeros : Nat) :
    readNumeral base (lowDigits base room value ++ List.replicate zeros 0).reverse
      = value % base ^ room := by
  rw [readNumeral_reverse, Nat.ofDigits_append_replicate_zero, ofDigits_lowDigits]

/-- A number has at most `k` digits exactly when it is below the power, for `k` from one
on and enough room. -/
theorem length_lowDigits_le_iff {base room k : Nat} (hbase : 1 < base) (hk : k < room)
    (hpos : 0 < k) (value : Nat) :
    (lowDigits base room value).length ≤ k ↔ value < base ^ k := by
  by_cases hvalue : value = 0
  · obtain ⟨room, rfl⟩ : ∃ r, room = r + 1 := ⟨room - 1, by omega⟩
    have hzero : value / base = 0 := by rw [hvalue, Nat.zero_div]
    rw [lowDigits_succ, if_pos hzero, hvalue]
    exact iff_of_true hpos (Nat.pow_pos (Nat.zero_lt_of_lt hbase))
  · have hlen : (lowDigits base room value).length
        = min room (base.digits value).length := by
      rw [lowDigits_eq_take hbase hvalue, List.length_take]
    rw [← Nat.digits_length_le_iff hbase, hlen]
    omega

/-- There is no zero in front of a number that fits. -/
theorem getLast_lowDigits {base room value : Nat} (hbase : 1 < base) (hvalue : value ≠ 0)
    (hfits : value < base ^ room) : (lowDigits base room value).getLast? ≠ some 0 := by
  rw [lowDigits_eq_digits hbase hvalue hfits,
    List.getLast?_eq_some_getLast (Nat.digits_ne_nil_iff_ne_zero.mpr hvalue), Ne,
    Option.some.injEq]
  exact Nat.getLast_digit_ne_zero base hvalue

end UpsFirmware.Lib
