import Mathlib.Data.List.Infix
import Mathlib.Tactic.Common

/-!
# `UpsFirmware.Lib.Tokens`: fixed texts in a stream

A stream is read by fixed texts: `expect` takes one off, `readOptional` takes those of a
list that are there, in the order of the list. `Apart` is the relation that makes this
unambiguous, that neither of two texts begins with the other. Texts that are pairwise
apart can be left out in any combination, and what is read is what was written
(`readOptional_append`).
-/

set_option autoImplicit false

namespace UpsFirmware.Lib

variable {α : Type}

/-- Neither of two texts begins with the other. -/
def Apart (a b : List α) : Prop := ¬ a <+: b ∧ ¬ b <+: a

/-- A text does not begin another one that is apart from it, whatever goes on behind. -/
theorem Apart.not_startsWith {a b : List α} (h : Apart a b) (s : List α) : ¬ a <+: b ++ s := by
  intro hfront
  rcases List.prefix_or_prefix_of_prefix hfront (List.prefix_append b s) with hab | hba
  · exact h.1 hab
  · exact h.2 hba

variable [DecidableEq α]

instance (a b : List α) : Decidable (Apart a b) := inferInstanceAs (Decidable (_ ∧ _))

/-- A fixed text is taken off the stream. -/
def expect (token s : List α) : Option (List α) :=
  if token.isPrefixOf s then some (s.drop token.length) else none

theorem expect_append (token s : List α) : expect token (token ++ s) = some s := by
  rw [expect, if_pos (by rw [List.isPrefixOf_iff_prefix]; exact List.prefix_append token s),
    List.drop_left]

/-- A text that does not stand there is not taken. -/
theorem expect_eq_none {token s : List α} (h : ¬ token <+: s) : expect token s = none := by
  rw [expect, if_neg]
  rw [List.isPrefixOf_iff_prefix]
  exact h

variable {κ : Type}

/-- The texts of a list that stand in the stream, in the order of the list, each with its
name. -/
def readOptional : List (κ × List α) → List α → List κ × List α
  | [], s => ([], s)
  | (name, token) :: tokens, s =>
    match expect token s with
    | some s =>
      let r := readOptional tokens s
      (name :: r.1, r.2)
    | none => readOptional tokens s

/-- Texts that are pairwise apart, and apart from what stands behind them, are read as they
were written. -/
theorem readOptional_append {tokens : List (κ × List α)}
    (hapart : tokens.Pairwise fun a b => Apart a.2 b.2) {rest : List α}
    (hrest : ∀ token ∈ tokens, ¬ token.2 <+: rest) (p : κ × List α → Bool) :
    readOptional tokens ((tokens.filter p).flatMap Prod.snd ++ rest)
      = ((tokens.filter p).map Prod.fst, rest) := by
  induction tokens with
  | nil => rfl
  | cons token tokens ih =>
    obtain ⟨hfirst, hothers⟩ := List.pairwise_cons.mp hapart
    have hnext := ih hothers fun t ht => hrest t (List.mem_cons_of_mem token ht)
    obtain ⟨name, text⟩ := token
    by_cases hp : p (name, text) = true
    · rw [List.filter_cons_of_pos hp, List.flatMap_cons, List.append_assoc, readOptional,
        expect_append]
      show (name :: (readOptional tokens _).1, (readOptional tokens _).2) = _
      rw [hnext]
      rfl
    · -- The first of the others that is written decides, or what stands behind them all.
      have hnone : ¬ text <+: (tokens.filter p).flatMap Prod.snd ++ rest := by
        cases hwritten : tokens.filter p with
        | nil => exact hrest (name, text) List.mem_cons_self
        | cons other others =>
          have hmem : other ∈ tokens := by
            have hin : other ∈ tokens.filter p := by
              rw [hwritten]
              exact List.mem_cons_self
            exact List.mem_of_mem_filter hin
          rw [List.flatMap_cons, List.append_assoc]
          exact (hfirst other hmem).not_startsWith _
      rw [List.filter_cons_of_neg hp, readOptional, expect_eq_none hnone]
      exact hnext

end UpsFirmware.Lib
