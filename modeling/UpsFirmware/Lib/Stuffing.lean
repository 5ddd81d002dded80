import Mathlib.Data.List.Basic
import Mathlib.Logic.Relation

/-!
# `UpsFirmware.Lib.Stuffing`: delimiter stuffing with an offset chain

Consistent-overhead stuffing removes one letter, the delimiter, from a message.
Each delimiter of the message is replaced by the distance to the next one, and
one more distance in front of the message leads to the first. A reader starts at
index `0` and follows the distances; every letter it lands on is a distance, and
writing the delimiter back there restores the message.

* `stuff xs` is the distance to the first delimiter and the rewritten letters.
  `stuffed xs` puts the two together.
* `follow j ys` walks the chain in place: it skips `j` letters, reads a distance,
  writes the delimiter over it and goes on, until it lands on a delimiter. It is
  `none` when the chain leaves the list.
* `Hops ys i j` says that the chain started at index `i` visits index `j`. It
  reads the letters as they were received and rewrites nothing.

The round trip is `follow_stuffed` in one direction and `stuffed_of_hops` in the
other. `getElem?_of_follow` and `follow_zero_of_follow` say what a walk leaves
behind. `follow_isSome_iff` says when the walk stays in the list. Everything is
over an arbitrary alphabet in which distances up to `maxDist` have letters.
-/

set_option autoImplicit false

namespace UpsFirmware.Lib

/-- An alphabet whose letters also spell distances. The delimiter spells `0`,
and every distance from `1` to `maxDist` has a letter. -/
class OffsetAlphabet (α : Type) where
  delim : α
  dist : α → Nat
  letter : Nat → α
  maxDist : Nat
  dist_letter : ∀ k, k ≤ maxDist → dist (letter k) = k
  letter_dist : ∀ a, letter (dist a) = a
  dist_eq_zero : ∀ a, dist a = 0 ↔ a = delim

namespace Stuffing

open OffsetAlphabet

variable {α : Type} [OffsetAlphabet α] [DecidableEq α]

omit [DecidableEq α] in
theorem dist_pos {a : α} (h : a ≠ delim) : 0 < dist a :=
  Nat.pos_of_ne_zero fun h0 => h ((dist_eq_zero a).mp h0)

/-! ### Stuffing and its reader -/

/-- The distance from just before `xs` to its first delimiter (the end of `xs`
counts as one), and the letters of `xs` with each delimiter replaced by the
distance to the next. -/
def stuff : List α → Nat × List α
  | [] => (1, [])
  | x :: xs =>
      if x = delim then (1, letter (stuff xs).1 :: (stuff xs).2)
      else ((stuff xs).1 + 1, x :: (stuff xs).2)

/-- The stuffed message: the first distance, then the rewritten letters. -/
def stuffed (xs : List α) : List α := letter (stuff xs).1 :: (stuff xs).2

/-- Walk the chain of distances, starting `j` letters ahead. Each distance is
overwritten with the delimiter. The walk ends on a delimiter; it is `none` when
it runs past the end of the list. -/
def follow : Nat → List α → Option (List α)
  | _, [] => none
  | 0, y :: ys =>
      if y = delim then some (y :: ys)
      else (follow (dist y - 1) ys).map (delim :: ·)
  | j + 1, y :: ys => (follow j ys).map (y :: ·)

@[simp] theorem stuff_nil : stuff ([] : List α) = (1, []) := rfl

theorem stuff_cons_delim (xs : List α) :
    stuff (delim :: xs) = (1, letter (stuff xs).1 :: (stuff xs).2) := if_pos rfl

theorem stuff_cons_of_ne {x : α} (h : x ≠ delim) (xs : List α) :
    stuff (x :: xs) = ((stuff xs).1 + 1, x :: (stuff xs).2) := if_neg h

@[simp] theorem follow_nil (j : Nat) : follow j ([] : List α) = none := by
  cases j <;> rfl

theorem follow_zero_delim (ys : List α) :
    follow 0 (delim :: ys) = some (delim :: ys) := if_pos rfl

theorem follow_zero_of_ne {y : α} (h : y ≠ delim) (ys : List α) :
    follow 0 (y :: ys) = (follow (dist y - 1) ys).map (delim :: ·) := if_neg h

theorem follow_succ (j : Nat) (y : α) (ys : List α) :
    follow (j + 1) (y :: ys) = (follow j ys).map (y :: ·) := rfl

/-- Skipping `j` letters is walking the rest and putting the `j` letters back. -/
theorem follow_eq_drop : ∀ (j : Nat) (ys : List α),
    follow j ys = (follow 0 (ys.drop j)).map (ys.take j ++ ·)
  | 0, ys => by simp
  | j + 1, [] => by simp
  | j + 1, y :: ys => by
      rw [follow_succ, follow_eq_drop j ys, List.drop_succ_cons, List.take_succ_cons,
        Option.map_map]
      rfl

/-! ### Shape of a stuffed message -/

@[simp] theorem length_stuff (xs : List α) : (stuff xs).2.length = xs.length := by
  induction xs with
  | nil => rfl
  | cons x xs ih =>
    by_cases hx : x = delim
    · subst hx
      simp [stuff_cons_delim, ih]
    · simp [stuff_cons_of_ne hx, ih]

@[simp] theorem length_stuffed (xs : List α) : (stuffed xs).length = xs.length + 1 := by
  simp [stuffed]

theorem one_le_stuff (xs : List α) : 1 ≤ (stuff xs).1 := by
  cases xs with
  | nil => simp
  | cons x xs =>
    by_cases hx : x = delim
    · subst hx
      simp [stuff_cons_delim]
    · simp [stuff_cons_of_ne hx]

/-- No distance exceeds the number of letters left, plus one for the end. -/
theorem stuff_le (xs : List α) : (stuff xs).1 ≤ xs.length + 1 := by
  induction xs with
  | nil => simp
  | cons x xs ih =>
    by_cases hx : x = delim
    · -- At a delimiter the distance starts again at `1`.
      subst hx
      simp [stuff_cons_delim]
    · -- Any other letter is one further away than `ih` says.
      simp only [stuff_cons_of_ne hx, List.length_cons]
      omega

omit [DecidableEq α] in
theorem letter_ne_delim {k : Nat} (h1 : 1 ≤ k) (hk : k ≤ maxDist α) :
    (letter k : α) ≠ delim := by
  intro h
  have h0 := (dist_eq_zero (letter k : α)).mpr h
  rw [dist_letter k hk] at h0
  omega

/-- A short enough message leaves no delimiter among the stuffed letters. -/
theorem ne_delim_of_mem_stuff (xs : List α) (h : xs.length ≤ maxDist α) :
    ∀ y ∈ (stuff xs).2, y ≠ delim := by
  induction xs with
  | nil => intro y hy; simp at hy
  | cons x xs ih =>
    have hlen : xs.length + 1 ≤ maxDist α := h
    have hxs := ih (by omega)
    intro y hy
    by_cases hx : x = delim
    · -- A distance stands in place of `x`. It fits the alphabet, so it has a letter.
      subst hx
      rw [stuff_cons_delim] at hy
      rcases List.mem_cons.mp hy with rfl | hy
      · exact letter_ne_delim (one_le_stuff xs) (Nat.le_trans (stuff_le xs) hlen)
      · exact hxs y hy
    · -- `x` itself stays.
      rw [stuff_cons_of_ne hx] at hy
      rcases List.mem_cons.mp hy with rfl | hy
      · exact hx
      · exact hxs y hy

theorem ne_delim_of_mem_stuffed (xs : List α) (h : xs.length + 1 ≤ maxDist α) :
    ∀ y ∈ stuffed xs, y ≠ delim := by
  intro y hy
  rcases List.mem_cons.mp hy with rfl | hy
  · exact letter_ne_delim (one_le_stuff xs) (Nat.le_trans (stuff_le xs) h)
  · exact ne_delim_of_mem_stuff xs (by omega) y hy

/-! ### Reading back what was stuffed -/

/-- Started at the first distance of `stuff xs`, the walk visits exactly the
places of the delimiters, restores the message, and goes on in what stands
behind it. -/
theorem follow_stuff (tail : List α) :
    ∀ xs : List α, xs.length ≤ maxDist α →
      follow ((stuff xs).1 - 1) ((stuff xs).2 ++ tail) = (follow 0 tail).map (xs ++ ·) := by
  intro xs
  induction xs with
  | nil => intro _; simp
  | cons x xs ih =>
    intro hlen
    rw [List.length_cons] at hlen
    have hrec := ih (by omega)
    have h1 := one_le_stuff xs
    by_cases hx : x = delim
    · -- The walk stands on the distance to the next delimiter, and hops there.
      subst hx
      have hle := stuff_le xs
      rw [stuff_cons_delim, List.cons_append, Nat.sub_self,
        follow_zero_of_ne (letter_ne_delim h1 (by omega)), dist_letter _ (by omega), hrec,
        Option.map_map]
      rfl
    · -- The walk skips `x`, and is then where `ih` starts.
      have hk : (stuff xs).1 + 1 - 1 = ((stuff xs).1 - 1) + 1 := by omega
      rw [stuff_cons_of_ne hx, List.cons_append]
      simp only [hk, follow_succ, hrec, Option.map_map]
      rfl

/-- The reader on a stuffed message: a delimiter in place of the first distance,
the message, and then whatever the walk makes of the tail. -/
theorem follow_stuffed (xs tail : List α) (h : xs.length + 1 ≤ maxDist α) :
    follow 0 (stuffed xs ++ tail) = (follow 0 tail).map (delim :: xs ++ ·) := by
  have hle := stuff_le xs
  rw [stuffed, List.cons_append, follow_zero_of_ne (letter_ne_delim (one_le_stuff xs) (by omega)),
    dist_letter _ (by omega), follow_stuff tail xs (by omega), Option.map_map]
  rfl

/-! ### What the reader leaves behind -/

/-- The walk changes a letter only to the delimiter. -/
theorem getElem?_of_follow (ys : List α) : ∀ (j : Nat) {zs : List α},
    follow j ys = some zs → ∀ i : Nat, zs[i]? = ys[i]? ∨ zs[i]? = some delim := by
  induction ys with
  | nil => intro j zs h; simp at h
  | cons y ys ih =>
    intro j zs h i
    cases j with
    | zero =>
      by_cases hy : y = delim
      · subst hy
        rw [follow_zero_delim] at h
        cases h
        exact Or.inl rfl
      · -- The distance at the front was overwritten, the rest is the tail's walk.
        rw [follow_zero_of_ne hy, Option.map_eq_some_iff] at h
        obtain ⟨zs', hz, rfl⟩ := h
        cases i with
        | zero => exact Or.inr rfl
        | succ i => simpa using ih _ hz i
    | succ j =>
      rw [follow_succ, Option.map_eq_some_iff] at h
      obtain ⟨zs', hz, rfl⟩ := h
      cases i with
      | zero => exact Or.inl rfl
      | succ i => simpa using ih _ hz i

/-- A walk started on a letter leaves the delimiter there. A second walk from
the same place ends at once. -/
theorem follow_zero_of_follow {ys zs : List α} (h : follow 0 ys = some zs) :
    follow 0 zs = some zs := by
  cases ys with
  | nil => simp at h
  | cons y ys =>
    by_cases hy : y = delim
    · -- The first walk ended where it started.
      subst hy
      rw [follow_zero_delim] at h
      cases h
      exact follow_zero_delim ys
    · -- The first walk left a delimiter where it started.
      rw [follow_zero_of_ne hy, Option.map_eq_some_iff] at h
      obtain ⟨zs', -, rfl⟩ := h
      exact follow_zero_delim zs'

/-! ### The chain as a relation on indices -/

/-- One hop: from an index that holds a distance to the index that far ahead. -/
def Hop (ys : List α) (i j : Nat) : Prop :=
  ∃ y, ys[i]? = some y ∧ y ≠ delim ∧ j = i + dist y

/-- The chain of hops started at index `i` reaches index `j`. -/
def Hops (ys : List α) : Nat → Nat → Prop := Relation.ReflTransGen (Hop ys)

omit [DecidableEq α]

theorem hop_cons_succ (y : α) (ys : List α) (i j : Nat) :
    Hop (y :: ys) (i + 1) j ↔ ∃ j', j = j' + 1 ∧ Hop ys i j' := by
  constructor
  · rintro ⟨a, ha, hne, rfl⟩
    exact ⟨i + dist a, by omega, a, by simpa using ha, hne, rfl⟩
  · rintro ⟨j', rfl, a, ha, hne, rfl⟩
    exact ⟨a, by simpa using ha, hne, by omega⟩

/-- The chain never goes back, so it does not see what stands before it. -/
theorem hops_cons_succ (y : α) (ys : List α) (i j : Nat) :
    Hops (y :: ys) (i + 1) (j + 1) ↔ Hops ys i j := by
  constructor
  · intro h
    -- Induction on the chain, with its start taken from one index further on.
    have hgen : ∀ a b, Hops (y :: ys) a b → ∀ i, a = i + 1 → ∃ j, b = j + 1 ∧ Hops ys i j := by
      intro a b hab
      induction hab with
      | refl => intro i hi; exact ⟨i, hi, .refl⟩
      | tail _ hbc ih =>
        intro i hi
        obtain ⟨j, rfl, hj⟩ := ih i hi
        obtain ⟨k, rfl, hk⟩ := (hop_cons_succ y ys j _).mp hbc
        exact ⟨k, rfl, hj.tail hk⟩
    obtain ⟨j', hj', h'⟩ := hgen _ _ h i rfl
    cases hj'
    exact h'
  · intro h
    induction h with
    | refl => exact .refl
    | tail _ hbc ih => exact ih.tail ((hop_cons_succ y ys _ _).mpr ⟨_, rfl, hbc⟩)

theorem hops_le {ys : List α} {i j : Nat} (h : Hops ys i j) : i ≤ j := by
  induction h with
  | refl => exact Nat.le_refl i
  | tail _ hbc ih =>
    obtain ⟨_, _, _, rfl⟩ := hbc
    omega

/-- A chain that ends inside `ys` or just behind it does not read further. -/
theorem hops_of_append {ys zs : List α} {i j : Nat} (h : Hops (ys ++ zs) i j)
    (hj : j ≤ ys.length) : Hops ys i j := by
  induction h with
  | refl => exact .refl
  | tail _ hbc ih =>
    obtain ⟨y, hy, hne, rfl⟩ := hbc
    -- Hops go ahead, so the last hop starts before `j` and reads a letter of `ys`.
    have hpos := dist_pos hne
    rw [List.getElem?_append_left (by omega)] at hy
    exact (ih (by omega)).tail ⟨y, hy, hne, rfl⟩

/-- From a distance at the front, the chain goes on in the tail. -/
theorem hops_cons_zero {y : α} (hy : y ≠ delim) (ys : List α) (j : Nat) :
    Hops (y :: ys) 0 (j + 1) ↔ Hops ys (dist y - 1) j := by
  have hpos := dist_pos hy
  -- There is one hop from the front, over `dist y` letters.
  have hhop : ∀ b, Hop (y :: ys) 0 b ↔ b = dist y - 1 + 1 := by
    intro b
    constructor
    · rintro ⟨a, ha, _, rfl⟩
      simp only [List.getElem?_cons_zero, Option.some.injEq] at ha
      subst ha
      omega
    · rintro rfl
      exact ⟨y, rfl, hy, by omega⟩
  constructor
  · intro h
    rcases Relation.ReflTransGen.cases_head h with h0 | ⟨b, hb, hrest⟩
    · omega
    · rw [(hhop b).mp hb] at hrest
      exact (hops_cons_succ y ys _ j).mp hrest
  · intro h
    exact .head ((hhop _).mpr rfl) ((hops_cons_succ y ys _ j).mpr h)

/-- A chain started behind the first `n` letters is a chain in what follows
them. -/
theorem hops_drop (n : Nat) (ys : List α) (i j : Nat) (hn : n ≤ ys.length) :
    Hops (ys.drop n) i j ↔ Hops ys (n + i) (n + j) := by
  induction n generalizing ys with
  | zero => simp
  | succ n ih =>
    cases ys with
    | nil => simp at hn
    | cons y ys =>
      rw [List.drop_succ_cons, ih ys (Nat.le_of_succ_le_succ hn), ← hops_cons_succ y]
      have hi : n + i + 1 = n + 1 + i := by omega
      have hj : n + j + 1 = n + 1 + j := by omega
      rw [hi, hj]

variable [DecidableEq α]

/-- The walk stays in the list exactly when the chain reaches a delimiter. The
walk overwrites the distances as it goes and the relation does not: a place
that was overwritten is never read again. -/
theorem follow_isSome_iff : ∀ (ys : List α) (j : Nat),
    (follow j ys).isSome ↔ ∃ z, Hops ys j z ∧ ys[z]? = some delim := by
  intro ys
  induction ys with
  | nil => intro j; simp
  | cons y ys ih =>
    intro j
    -- A chain that has left the front ends in the tail.
    have htail : ∀ {i k : Nat}, (∀ z, Hops (y :: ys) i (z + 1) ↔ Hops ys k z) →
        ¬ (Hops (y :: ys) i 0 ∧ y = delim) →
        ((∃ z, Hops ys k z ∧ ys[z]? = some delim) ↔
          ∃ z, Hops (y :: ys) i z ∧ (y :: ys)[z]? = some delim) := by
      intro i k hz hnot
      constructor
      · rintro ⟨z, hz', hd⟩
        exact ⟨z + 1, (hz z).mpr hz', by simpa using hd⟩
      · rintro ⟨z, hz', hd⟩
        cases z with
        | zero => exact absurd ⟨hz', by simpa using hd⟩ hnot
        | succ z => exact ⟨z, (hz z).mp hz', by simpa using hd⟩
    cases j with
    | zero =>
      by_cases hy : y = delim
      · subst hy
        rw [follow_zero_delim]
        exact ⟨fun _ => ⟨0, .refl, rfl⟩, fun _ => rfl⟩
      · rw [follow_zero_of_ne hy, Option.isSome_map, ih]
        exact htail (hops_cons_zero hy ys) fun h => hy h.2
    | succ j =>
      rw [follow_succ, Option.isSome_map, ih]
      exact htail (hops_cons_succ y ys j) fun h => by
        have := hops_le h.1
        omega

/-! ### Stuffing what was read -/

/-- Letters without a delimiter whose chain, started `j` ahead, lands exactly on
their end are the stuffing of some message. -/
theorem stuff_of_hops :
    ∀ (ys : List α) (j : Nat), (∀ y ∈ ys, y ≠ delim) → Hops ys j ys.length →
      ∃ xs : List α, stuff xs = (j + 1, ys) := by
  intro ys
  induction ys with
  | nil =>
    intro j _ h
    have hj : j = 0 := Nat.le_zero.mp (hops_le h)
    subst hj
    exact ⟨[], rfl⟩
  | cons y ys ih =>
    intro j hne h
    have hy : y ≠ delim := hne y (by simp)
    have hys : ∀ a ∈ ys, a ≠ delim := fun a ha => hne a (by simp [ha])
    rw [List.length_cons] at h
    cases j with
    | zero =>
      -- `y` is a distance: the message has a delimiter here.
      obtain ⟨xs, hstuff⟩ := ih (dist y - 1) hys ((hops_cons_zero hy ys _).mp h)
      refine ⟨delim :: xs, ?_⟩
      rw [stuff_cons_delim, hstuff, Nat.sub_add_cancel (dist_pos hy), letter_dist]
    | succ j =>
      -- `y` is skipped: it is a letter of the message.
      obtain ⟨xs, hstuff⟩ := ih j hys ((hops_cons_succ y ys j _).mp h)
      exact ⟨y :: xs, by rw [stuff_cons_of_ne hy, hstuff]⟩

/-- The same for a whole stuffed message: its chain starts at index `0`. -/
theorem stuffed_of_hops (ys : List α) (hne : ∀ y ∈ ys, y ≠ delim) (hys : ys ≠ [])
    (h : Hops ys 0 ys.length) : ∃ xs : List α, stuffed xs = ys := by
  cases ys with
  | nil => exact absurd rfl hys
  | cons y ys =>
    have hy : y ≠ delim := hne y (by simp)
    obtain ⟨xs, hstuff⟩ := stuff_of_hops ys (dist y - 1)
      (fun a ha => hne a (by simp [ha])) ((hops_cons_zero hy ys _).mp h)
    exact ⟨xs, by rw [stuffed, hstuff, Nat.sub_add_cancel (dist_pos hy), letter_dist]⟩

end Stuffing

end UpsFirmware.Lib
