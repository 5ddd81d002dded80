import Mathlib.Algebra.Group.Nat.Defs
import Mathlib.Tactic.Common

/-!
# `UpsFirmware.Lib.Streaks`: unbroken runs and countdowns

`streak p n` is the length of the unbroken run of steps with `p` right before step `n`.
`le_streak_iff` says that in terms of the steps themselves.

A countdown detects long streaks. It starts from `full`; a step with `p` takes one off,
or fires at zero and starts again, and every other step starts it again.
`countdown_eq` gives its value, and `countdown_fires_iff` says that it fires at the end
of every `full + 1` steps of a streak, and at no other time.
-/

set_option autoImplicit false

namespace UpsFirmware.Lib

variable (p : Nat → Prop) [DecidablePred p]

/-- The length of the unbroken run of steps with `p` right before step `n`. -/
def streak : Nat → Nat
  | 0 => 0
  | n + 1 => if p n then streak n + 1 else 0

theorem streak_succ (n : Nat) : streak p (n + 1) = if p n then streak p n + 1 else 0 := rfl

/-- A streak has at least `k` steps exactly when the last `k` steps are there and have
`p`. -/
theorem le_streak_iff (n k : Nat) :
    k ≤ streak p n ↔ k ≤ n ∧ ∀ i < n, n ≤ i + k → p i := by
  induction n generalizing k with
  | zero =>
    show k ≤ 0 ↔ _
    constructor
    · intro hk
      exact ⟨hk, fun i hi => absurd hi (Nat.not_lt_zero i)⟩
    · intro h
      exact h.1
  | succ n ih =>
    rw [streak_succ]
    cases k with
    | zero =>
      refine iff_of_true (Nat.zero_le _) ⟨Nat.zero_le _, fun i hi hle => ?_⟩
      exact absurd hi (by omega)
    | succ k =>
      by_cases hp : p n
      · -- The last step has `p`: the streak before it is one shorter.
        rw [if_pos hp, Nat.add_le_add_iff_right, Nat.add_le_add_iff_right, ih]
        refine and_congr_right fun _ => ⟨fun h i hi hle => ?_, fun h i hi hle => ?_⟩
        · by_cases hin : i = n
          · rw [hin]
            exact hp
          · exact h i (by omega) (by omega)
        · exact h i (by omega) (by omega)
      · rw [if_neg hp]
        refine iff_of_false (by omega) fun h => hp ?_
        exact h.2 n (Nat.lt_succ_self n) (by omega)

/-! ### Countdowns -/

/-- The residue of a number that has just grown. -/
theorem succ_mod_succ (k full : Nat) :
    (k + 1) % (full + 1) = if k % (full + 1) = full then 0 else k % (full + 1) + 1 := by
  have hlt : k % (full + 1) < full + 1 := Nat.mod_lt k (Nat.succ_pos full)
  have hmod : (k + 1) % (full + 1) = (k % (full + 1) + 1) % (full + 1) := by
    rw [Nat.mod_add_mod]
  rw [hmod]
  by_cases hfull : k % (full + 1) = full
  · rw [if_pos hfull, hfull, Nat.mod_self]
  · rw [if_neg hfull, Nat.mod_eq_of_lt (by omega)]

variable {p} {full : Nat} (count : Nat → Int) (h₀ : count 0 = full)
  (hstep : ∀ n, count (n + 1) = if p n ∧ count n ≠ 0 then count n - 1 else full)

include h₀ hstep

/-- A countdown is below its start by the length of the streak, counted from its last
start. -/
theorem countdown_eq (n : Nat) :
    count n = full - ((streak p n % (full + 1) : Nat) : Int) := by
  induction n with
  | zero =>
    rw [h₀, streak, Nat.zero_mod]
    simp
  | succ n ih =>
    have hlt : streak p n % (full + 1) < full + 1 := Nat.mod_lt _ (Nat.succ_pos full)
    rw [hstep, streak_succ]
    by_cases hp : p n
    · rw [if_pos hp, succ_mod_succ]
      by_cases hfull : streak p n % (full + 1) = full
      · -- The countdown is at zero, and fires.
        have hzero : count n = 0 := by omega
        rw [if_neg (fun h => h.2 hzero), if_pos hfull]
        simp
      · rw [if_pos ⟨hp, by omega⟩, if_neg hfull, ih]
        omega
    · rw [if_neg (fun h => hp h.1), if_neg hp, Nat.zero_mod]
      simp

/-- A countdown stays between zero and its start. -/
theorem countdown_bounds (n : Nat) : 0 ≤ count n ∧ count n ≤ full := by
  have hlt : streak p n % (full + 1) < full + 1 := Nat.mod_lt _ (Nat.succ_pos full)
  rw [countdown_eq count h₀ hstep n]
  omega

/-- A countdown fires when the streak that ends with its step has a multiple of
`full + 1` steps. -/
theorem countdown_fires_iff (n : Nat) :
    p n ∧ count n = 0 ↔ p n ∧ full + 1 ∣ streak p (n + 1) := by
  refine and_congr_right fun hp => ?_
  have hlt : streak p n % (full + 1) < full + 1 := Nat.mod_lt _ (Nat.succ_pos full)
  rw [streak_succ, if_pos hp, Nat.dvd_iff_mod_eq_zero, succ_mod_succ,
    countdown_eq count h₀ hstep n]
  by_cases hfull : streak p n % (full + 1) = full
  · rw [if_pos hfull]
    omega
  · rw [if_neg hfull]
    omega

end UpsFirmware.Lib
