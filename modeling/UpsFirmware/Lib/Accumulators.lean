import Mathlib.Algebra.BigOperators.Intervals
import Mathlib.Algebra.Order.BigOperators.Group.Finset
import Mathlib.Algebra.Order.Group.MinMax

/-!
# `UpsFirmware.Lib.Accumulators`: sums that are clamped or restarted

Two ways to keep an endless sum small, and what each says about the increments.

* `flooredSum floor x₀ inc` adds the increments to `x₀` and never goes below
  `floor`. It is the largest of the sums that start at `x₀` or, behind any step, at
  the floor (`flooredSum_le_iff`), so a bound on it is a bound on the sums of the
  increments alone. It grows with its increments (`flooredSum_mono`).
* A counter that starts again at some steps holds the sum of what was added since
  the last of them (`sum_since_restart`).

The first holds in every ordered commutative group, the second in every commutative
monoid.
-/

set_option autoImplicit false

namespace UpsFirmware.Lib

/-! ### Sums with a floor -/

section Floored

variable {α : Type} (floor x₀ : α)

/-- Where a sum starts whose first increment is number `m`. -/
def startAt (m : Nat) : α := if m = 0 then x₀ else floor

theorem startAt_succ (m : Nat) : startAt floor x₀ (m + 1) = floor := if_neg (Nat.succ_ne_zero m)

variable [AddCommGroup α] [LinearOrder α] (inc : Nat → α)

/-- The sum of the increments, kept at or above `floor`. -/
def flooredSum : Nat → α
  | 0 => x₀
  | n + 1 => max floor (flooredSum n + inc n)

theorem flooredSum_succ (n : Nat) :
    flooredSum floor x₀ inc (n + 1) = max floor (flooredSum floor x₀ inc n + inc n) := rfl

/-- The floor holds. -/
theorem floor_le_flooredSum (h₀ : floor ≤ x₀) (n : Nat) : floor ≤ flooredSum floor x₀ inc n := by
  cases n with
  | zero => exact h₀
  | succ n => exact le_max_left _ _

variable [IsOrderedAddMonoid α]

/-- A floored sum is bounded exactly when every plain sum behind it is: the one from
`x₀` on, and those from the floor on. -/
theorem flooredSum_le_iff {bound : α} (n : Nat) :
    flooredSum floor x₀ inc n ≤ bound ↔
      ∀ m ≤ n, startAt floor x₀ m + ∑ k ∈ Finset.Ico m n, inc k ≤ bound := by
  induction n generalizing bound with
  | zero =>
    constructor
    · intro h m hm
      rw [Nat.le_zero.mp hm, Finset.Ico_self, Finset.sum_empty, add_zero]
      exact h
    · intro h
      have hzero := h 0 (Nat.le_refl 0)
      rw [Finset.Ico_self, Finset.sum_empty, add_zero] at hzero
      exact hzero
  | succ n ih =>
    -- The last increment is moved to the bound.
    rw [flooredSum_succ, max_le_iff, ← le_sub_iff_add_le, ih]
    have hlast : ∀ m ≤ n, (startAt floor x₀ m + ∑ k ∈ Finset.Ico m n, inc k ≤ bound - inc n ↔
        startAt floor x₀ m + ∑ k ∈ Finset.Ico m (n + 1), inc k ≤ bound) := by
      intro m hm
      rw [Finset.sum_Ico_succ_top hm, ← add_assoc, le_sub_iff_add_le]
    constructor
    · rintro ⟨hfloor, hsums⟩ m hm
      cases Nat.lt_or_ge n m with
      | inl hlt =>
        -- The empty sum behind the last step.
        have hm' : m = n + 1 := by omega
        rw [hm', Finset.Ico_self, Finset.sum_empty, add_zero, startAt_succ]
        exact hfloor
      | inr hle => exact (hlast m hle).mp (hsums m hle)
    · intro hsums
      have hfloor := hsums (n + 1) (Nat.le_refl _)
      rw [Finset.Ico_self, Finset.sum_empty, add_zero, startAt_succ] at hfloor
      exact ⟨hfloor, fun m hm => (hlast m hm).mpr (hsums m (by omega))⟩

variable {inc}

/-- Larger increments give a larger sum. -/
theorem flooredSum_mono {inc' : Nat → α} (h : ∀ k, inc k ≤ inc' k) (n : Nat) :
    flooredSum floor x₀ inc n ≤ flooredSum floor x₀ inc' n := by
  induction n with
  | zero => exact le_refl _
  | succ n ih => exact max_le_max (le_refl _) (add_le_add ih (h n))

end Floored

/-! ### Counters that start again -/

/-- A counter that starts from zero, adds `inc n` in step `n`, and is zero again
before every step that `restarts`. Before step `n` it holds what was added since the
last of these. -/
theorem sum_since_restart {M : Type} [AddCommMonoid M] (restarts : Nat → Prop)
    [DecidablePred restarts] (inc count : Nat → M) (h₀ : count 0 = 0)
    (hstep : ∀ n, count (n + 1) = if restarts (n + 1) then 0 else count n + inc n) (n : Nat) :
    count n = ∑ k ∈ Finset.Ico (Nat.findGreatest restarts n) n, inc k := by
  induction n with
  | zero => exact h₀
  | succ n ih =>
    rw [hstep, Nat.findGreatest_succ]
    by_cases hr : restarts (n + 1)
    · rw [if_pos hr, if_pos hr, Finset.Ico_self, Finset.sum_empty]
    · rw [if_neg hr, if_neg hr, Finset.sum_Ico_succ_top (Nat.findGreatest_le n), ih]

end UpsFirmware.Lib
