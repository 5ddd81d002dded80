import Mathlib.Logic.Function.Basic
import Mathlib.Tactic.Common

/-!
# `UpsFirmware.Lib.Mirror`: turning an array around in place

A loop that turns an array around exchanges element `k` with a partner in pass `k`, and
puts both through a function on the way. `mirrorRun f partner mem k` is the memory after
`k` passes.

`mirrorRun_mirror` is what a loop does whose partners run down from index `e`: element
`j` and element `e - j` have changed places up to the number of passes.
`mirrorRun_of_untouched` says that an element survives that is never exchanged.
-/

set_option autoImplicit false

namespace UpsFirmware.Lib

variable {α : Type} (f : α → α)

/-- Elements `i` and `j` change places, and both are put through `f`. -/
def mirrorSwap (mem : Nat → α) (i j : Nat) : Nat → α :=
  Function.update (Function.update mem j (f (mem i))) i (f (mem j))

/-- The memory after `k` passes. -/
def mirrorRun (partner : Nat → Nat) (mem : Nat → α) : Nat → Nat → α
  | 0 => mem
  | k + 1 => mirrorSwap f (mirrorRun partner mem k) k (partner k)

theorem mirrorRun_succ (partner : Nat → Nat) (mem : Nat → α) (k : Nat) :
    mirrorRun f partner mem (k + 1)
      = mirrorSwap f (mirrorRun f partner mem k) k (partner k) := rfl

/-- The three places of an exchange. -/
theorem mirrorSwap_apply (mem : Nat → α) (i j a : Nat) :
    mirrorSwap f mem i j a
      = if a = i then f (mem j) else if a = j then f (mem i) else mem a := by
  rw [mirrorSwap, Function.update_apply, Function.update_apply]

/-- An element survives that is never exchanged. -/
theorem mirrorRun_of_untouched {partner : Nat → Nat} (mem : Nat → α) {k a : Nat}
    (h : ∀ i < k, a ≠ i ∧ a ≠ partner i) : mirrorRun f partner mem k a = mem a := by
  induction k with
  | zero => rfl
  | succ k ih =>
    obtain ⟨hindex, hpartner⟩ := h k (Nat.lt_succ_self k)
    rw [mirrorRun_succ, mirrorSwap_apply, if_neg hindex, if_neg hpartner]
    exact ih fun i hi => h i (Nat.lt_succ_of_lt hi)

/-- Partners that run down from `e`: after `k` passes the outer `k` elements on either
side are mirrored, and the others are as they were. -/
theorem mirrorRun_mirror {partner : Nat → Nat} (mem : Nat → α) {e k : Nat}
    (hk : 2 * k ≤ e + 1) (hpartner : ∀ i < k, partner i = e - i) (a : Nat) :
    mirrorRun f partner mem k a
      = if a < k ∨ e < a + k ∧ a ≤ e then f (mem (e - a)) else mem a := by
  induction k generalizing a with
  | zero => rw [if_neg (by omega), mirrorRun]
  | succ k ih =>
    have hrun := ih (by omega) fun i hi => hpartner i (Nat.lt_succ_of_lt hi)
    rw [mirrorRun_succ, mirrorSwap_apply, hpartner k (Nat.lt_succ_self k)]
    by_cases hindex : a = k
    · -- The partner has not been exchanged before.
      rw [if_pos hindex, hrun, if_neg (by omega), if_pos (by omega), hindex]
    · rw [if_neg hindex]
      by_cases hpair : a = e - k
      · have hback : e - a = k := by omega
        rw [if_pos hpair, hrun, if_neg (by omega), if_pos (by omega), hback]
      · rw [if_neg hpair, hrun]
        by_cases hout : a < k ∨ e < a + k ∧ a ≤ e
        · rw [if_pos hout, if_pos (by omega)]
        · rw [if_neg hout, if_neg (by omega)]

end UpsFirmware.Lib
