import Mathlib.Algebra.Group.Nat.Defs
import Mathlib.Tactic.Common

/-!
# `UpsFirmware.Lib.Rounding`: natural numbers with a few significant bits

`roundTo unit t` is the multiple of `unit` nearest to `t`, and the even multiple when
`t` lies in the middle. `roundSig p t` keeps the `p` most significant bits of `t`, so
its unit depends on the size of `t`. It is what a conversion of an integer to a
floating-point format with a significand of `p` bits gives.

`roundSig_error` bounds the error by the size of the numbers, and `roundSig_of_lt` says
that numbers with at most `p` bits are kept.
-/

set_option autoImplicit false

namespace UpsFirmware.Lib

/-- The multiple of `unit` nearest to `t`, ties to even. -/
def roundTo (unit t : Nat) : Nat :=
  if 2 * (t % unit) < unit ∨ (2 * (t % unit) = unit ∧ t / unit % 2 = 0) then t / unit * unit
  else (t / unit + 1) * unit

/-- Rounding moves a number by at most half a unit. -/
theorem roundTo_error {unit : Nat} (hunit : 0 < unit) (t : Nat) :
    2 * roundTo unit t ≤ 2 * t + unit ∧ 2 * t ≤ 2 * roundTo unit t + unit := by
  have hdiv := Nat.div_add_mod' t unit
  have hmod := Nat.mod_lt t hunit
  rw [roundTo]
  split
  · -- down
    omega
  · rw [Nat.add_mul, Nat.one_mul]
    omega

/-- Rounding does not go below a multiple that is not above the number. -/
theorem le_roundTo {unit a t : Nat} (hdvd : unit ∣ a) (hle : a ≤ t) : a ≤ roundTo unit t := by
  obtain ⟨c, rfl⟩ := hdvd
  have hdown : unit * c ≤ t / unit * unit := by
    rcases Nat.eq_zero_or_pos unit with rfl | hunit
    · rw [Nat.zero_mul]
      exact Nat.zero_le _
    · rw [Nat.mul_comm unit c]
      refine Nat.mul_le_mul_right unit ((Nat.le_div_iff_mul_le hunit).mpr ?_)
      rw [Nat.mul_comm]
      exact hle
  rw [roundTo]
  split
  · exact hdown
  · rw [Nat.add_mul]
    omega

/-- The multiple of one nearest to a number is the number. -/
theorem roundTo_one (t : Nat) : roundTo 1 t = t := by
  simp [roundTo, Nat.mod_one]

/-- The number with the `p` most significant bits of `t`, rounded. -/
def roundSig (p t : Nat) : Nat := roundTo (2 ^ (t.log2 + 1 - p)) t

/-- The number of bits of a number is at most the number of bits of a power of two
above it. -/
theorem log2_lt_of_lt {t w : Nat} (hw : 0 < w) (ht : t < 2 ^ w) : t.log2 < w := by
  cases t with
  | zero => exact hw
  | succ t => exact (Nat.log2_lt (Nat.succ_ne_zero t)).mpr ht

/-- The error for numbers of `w` bits: half of the last unit. -/
theorem roundSig_error {w t : Nat} (p : Nat) (hw : 0 < w) (ht : t < 2 ^ w) :
    2 * roundSig p t ≤ 2 * t + 2 ^ (w - p) ∧ 2 * t ≤ 2 * roundSig p t + 2 ^ (w - p) := by
  have herr := roundTo_error (Nat.two_pow_pos (t.log2 + 1 - p)) t
  have hunit : 2 ^ (t.log2 + 1 - p) ≤ 2 ^ (w - p) := by
    have hlog := log2_lt_of_lt hw ht
    exact Nat.pow_le_pow_right (by decide) (by omega)
  rw [roundSig]
  omega

/-- Numbers of `p` bits are kept. -/
theorem roundSig_of_lt {p t : Nat} (hp : 0 < p) (ht : t < 2 ^ p) : roundSig p t = t := by
  have hlog := log2_lt_of_lt hp ht
  have hunit : t.log2 + 1 - p = 0 := by omega
  rw [roundSig, hunit, Nat.pow_zero, roundTo_one]

end UpsFirmware.Lib
