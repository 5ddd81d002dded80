import Mathlib.Data.List.Basic
import Mathlib.Data.List.TakeDrop
import Mathlib.Tactic.Common

/-!
# `UpsFirmware.Lib.BoundedBuffer`: text written to a buffer with a limit

A C routine that fills a buffer is given an address and a limit. It drops what does not
fit the limit, but it does not know where the memory behind the address ends. The memory
is a list here, `putAt` writes one element at an index below the limit, and `none` is a
write behind the end of the memory.

`putAll` writes a text element by element, and `writeString` ends it, behind the text or
at the last place below the limit. `writeString_eq` gives the memory that is left: the
text cut to the limit, the terminator, and the old memory behind it. It also says when
there is one, namely when the smaller of the limit and the text with its terminator fits
the memory.
-/

set_option autoImplicit false

namespace UpsFirmware.Lib

variable {α : Type}

/-- One element at an index, if it is below the limit. -/
def putAt (limit idx : Nat) (buf : List α) (a : α) : Option (List α) :=
  if idx < limit then
    if idx < buf.length then some (buf.set idx a) else none
  else some buf

/-- A text at successive indices from `idx` on. -/
def putAll (limit : Nat) : Nat → List α → List α → Option (List α)
  | _, buf, [] => some buf
  | idx, buf, a :: text => (putAt limit idx buf a).bind fun buf => putAll limit (idx + 1) buf text

/-- A text from the start of the buffer on, and the terminator `z`. -/
def writeString (limit : Nat) (z : α) (buf text : List α) : Option (List α) :=
  (putAll limit 0 buf text).bind fun buf =>
    putAt limit (if text.length < limit then text.length else limit - 1) buf z

/-- Behind the limit nothing is written. -/
theorem putAll_of_le {limit idx : Nat} (h : limit ≤ idx) (buf text : List α) :
    putAll limit idx buf text = some buf := by
  induction text generalizing idx with
  | nil => rfl
  | cons a text ih =>
    rw [putAll, putAt, if_neg (by omega), Option.bind_some]
    exact ih (by omega)

/-- A write behind what is already there replaces the first element of the rest. -/
theorem putAt_append {limit : Nat} (front : List α) (h : front.length < limit)
    (b a : α) (rest : List α) :
    putAt limit front.length (front ++ b :: rest) a = some (front ++ a :: rest) := by
  rw [putAt, if_pos h, if_pos (by simp), List.set_append_right _ _ (Nat.le_refl _), Nat.sub_self]
  rfl

/-- The text goes behind what is already there, as far as the limit. -/
theorem putAll_append (limit : Nat) (front rest text : List α) (h : front.length ≤ limit) :
    putAll limit front.length (front ++ rest) text
      = if min text.length (limit - front.length) ≤ rest.length then
          some (front ++ text.take (limit - front.length) ++
            rest.drop (min text.length (limit - front.length)))
        else none := by
  induction text generalizing front rest with
  | nil => simp [putAll]
  | cons a text ih =>
    by_cases hlimit : front.length = limit
    · rw [putAll_of_le (by omega), hlimit, Nat.sub_self, Nat.min_zero]
      simp
    · obtain ⟨room, hroom⟩ : ∃ room, limit - front.length = room + 1 :=
        ⟨limit - front.length - 1, by omega⟩
      rw [putAll, List.length_cons, hroom, List.take_succ_cons, Nat.add_min_add_right]
      cases rest with
      | nil =>
        -- The memory ends here.
        rw [putAt, if_pos (by omega), if_neg (by simp), Option.bind_none, if_neg (by simp)]
      | cons b rest =>
        have hfront : (front ++ [a]).length = front.length + 1 := by simp
        have hnext := ih (front ++ [a]) rest (by omega)
        have hless : limit - (front.length + 1) = room := by omega
        rw [hfront, hless, List.append_assoc, List.singleton_append] at hnext
        rw [putAt_append front (by omega), Option.bind_some, hnext, List.length_cons,
          List.drop_succ_cons]
        by_cases hfits : min text.length room ≤ rest.length
        · rw [if_pos hfits, if_pos (by omega), List.append_assoc front]
          rfl
        · rw [if_neg hfits, if_neg (by omega)]

/-- A string in a buffer: the text as far as the limit leaves room for the terminator,
the terminator, and the old memory behind it. -/
theorem writeString_eq {limit : Nat} (hlimit : 0 < limit) (z : α) (buf text : List α) :
    writeString limit z buf text
      = if min (text.length + 1) limit ≤ buf.length then
          some (text.take (limit - 1) ++ z :: buf.drop (min text.length (limit - 1) + 1))
        else none := by
  have hall := putAll_append limit [] buf text (Nat.zero_le limit)
  rw [List.length_nil, List.nil_append, Nat.sub_zero, List.nil_append] at hall
  rw [writeString, hall]
  by_cases hfits : min text.length limit ≤ buf.length
  · rw [if_pos hfits, Option.bind_some]
    by_cases hlt : text.length < limit
    · -- The terminator goes behind the text.
      rw [if_pos hlt, List.take_of_length_le (Nat.le_of_lt hlt),
        List.take_of_length_le (by omega),
        Nat.min_eq_left (Nat.le_of_lt hlt), Nat.min_eq_left (by omega : text.length + 1 ≤ limit),
        Nat.min_eq_left (by omega : text.length ≤ limit - 1)]
      cases hrest : buf.drop text.length with
      | nil =>
        have hend : buf.length ≤ text.length := List.drop_eq_nil_iff.mp hrest
        rw [List.append_nil, putAt, if_pos hlt, if_neg (Nat.lt_irrefl _), if_neg (by omega)]
      | cons b rest =>
        have hlen := congrArg List.length hrest
        rw [List.length_drop, List.length_cons] at hlen
        rw [putAt_append text hlt, if_pos (by omega), ← List.drop_drop, hrest]
        rfl
    · -- The terminator replaces the last element that was written.
      have hlast : text.take limit = text.take (limit - 1) ++ (text.drop (limit - 1)).take 1 := by
        rw [← List.take_add]
        congr 1
        omega
      obtain ⟨b, hb⟩ : ∃ b, (text.drop (limit - 1)).take 1 = [b] := by
        refine List.length_eq_one_iff.mp ?_
        rw [List.length_take, List.length_drop]
        omega
      have hfront : (text.take (limit - 1)).length = limit - 1 := by
        rw [List.length_take]
        omega
      have hput := @putAt_append α limit (text.take (limit - 1)) (by omega) b z
        (buf.drop limit)
      rw [hfront] at hput
      rw [if_neg hlt, hlast, hb, Nat.min_eq_right (by omega : limit ≤ text.length),
        List.append_assoc, List.singleton_append, hput,
        Nat.min_eq_right (by omega : limit ≤ text.length + 1),
        Nat.min_eq_right (by omega : limit - 1 ≤ text.length), if_pos (by omega),
        Nat.sub_add_cancel hlimit]
  · rw [if_neg hfits, Option.bind_none, if_neg (by omega)]

/-- With the limit zero nothing is written. -/
theorem writeString_zero (z : α) (buf text : List α) :
    writeString 0 z buf text = some buf := by
  rw [writeString, putAll_of_le (Nat.le_refl _)]
  simp [putAt]

end UpsFirmware.Lib
