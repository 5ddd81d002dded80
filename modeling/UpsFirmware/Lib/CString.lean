import Mathlib.Data.List.Infix
import Mathlib.Tactic.Common

/-!
# `UpsFirmware.Lib.CString`: strings of the C library

A C function that is given a string reads memory from an address on, up to the first zero
byte and that byte included. The memory from the address on is a `List UInt8` here, and
`cString` is the string in it. `stringReads` counts the bytes read; on a memory without a
zero byte it is more than there are.

`scanWord` is the conversion `%s` of `sscanf` and `strstr` is `strstr`.
`stringReads_le_iff` says when a string ends inside the first `n` bytes, and
`cString_append` that what lies behind its end does not matter. `strstr_eq_none_iff` and
`strstr_append` say what `strstr` finds.
-/

set_option autoImplicit false

namespace UpsFirmware.Lib

/-- The string in a memory, without its terminator. -/
def cString (mem : List UInt8) : List UInt8 := mem.takeWhile (· ≠ 0)

/-- The number of bytes that a function reads that is given a string. -/
def stringReads (mem : List UInt8) : Nat := (cString mem).length + 1

/-- A string ends inside the first `n` bytes exactly when they have a zero. -/
theorem stringReads_le_iff (front back : List UInt8) :
    stringReads (front ++ back) ≤ front.length ↔ 0 ∈ front := by
  rw [stringReads, Nat.succ_le_iff, cString]
  induction front with
  | nil => simp
  | cons c front ih =>
    by_cases hc : c = 0
    · simp [hc]
    · rw [List.cons_append, List.takeWhile_cons_of_pos (by simpa using hc), List.length_cons,
        List.length_cons, Nat.succ_lt_succ_iff, ih, List.mem_cons]
      simp [Ne.symm hc]

/-- What lies behind a string that ends does not matter. -/
theorem cString_append {front : List UInt8} (h : 0 ∈ front) (back : List UInt8) :
    cString (front ++ back) = cString front := by
  induction front with
  | nil => cases h
  | cons c front ih =>
    rw [cString, cString]
    by_cases hc : c = 0
    · rw [List.cons_append, List.takeWhile_cons_of_neg (by simp [hc]),
        List.takeWhile_cons_of_neg (by simp [hc])]
    · have hfront : 0 ∈ front := by
        rcases List.mem_cons.mp h with h | h
        · exact absurd h.symm hc
        · exact h
      rw [List.cons_append, List.takeWhile_cons_of_pos (by simpa using hc),
        List.takeWhile_cons_of_pos (by simpa using hc)]
      exact congrArg (c :: ·) (ih hfront)

/-- A string goes on behind bytes that are not zero. -/
theorem cString_append_of_notMem {front : List UInt8} (h : 0 ∉ front) (back : List UInt8) :
    cString (front ++ back) = front ++ cString back := by
  induction front with
  | nil => rfl
  | cons c front ih =>
    rw [List.mem_cons, not_or] at h
    have hc : c ≠ 0 := Ne.symm h.1
    rw [cString, List.cons_append, List.takeWhile_cons_of_pos (by simpa using hc),
      List.cons_append]
    exact congrArg (c :: ·) (ih h.2)

/-- A string that ends is shorter than its memory. -/
theorem length_cString_lt {mem : List UInt8} (h : 0 ∈ mem) : (cString mem).length < mem.length := by
  have hreads := (stringReads_le_iff mem []).mpr h
  rw [List.append_nil] at hreads
  exact hreads

/-! ### Scanning -/

/-- `isspace`. -/
def isSpace (c : UInt8) : Bool := c = 32 || (9 ≤ c && c ≤ 13)

/-- The conversion `%s`: white space is skipped, and a word is read up to the next white
space. The second component is the rest; `none` is a string without a word. -/
def scanWord (s : List UInt8) : Option (List UInt8 × List UInt8) :=
  let rest := s.dropWhile isSpace
  if rest = [] then none
  else some (rest.takeWhile fun c => !isSpace c, rest.dropWhile fun c => !isSpace c)

/-- White space in front of a word is skipped. -/
theorem scanWord_cons_of_isSpace {c : UInt8} (h : isSpace c = true) (s : List UInt8) :
    scanWord (c :: s) = scanWord s := by
  rw [scanWord, scanWord, List.dropWhile_cons_of_pos h]

/-- A word ends at the white space behind it. -/
theorem scanWord_word {word : List UInt8} (hne : word ≠ [])
    (hword : word.all (fun c => !isSpace c) = true) {c : UInt8} (hc : isSpace c = true)
    (rest : List UInt8) : scanWord (word ++ c :: rest) = some (word, c :: rest) := by
  have hkeep : ∀ a ∈ word, (!isSpace a) = true := List.all_eq_true.mp hword
  have hskip : (word ++ c :: rest).dropWhile isSpace = word ++ c :: rest := by
    cases word with
    | nil => exact absurd rfl hne
    | cons a word =>
      rw [List.cons_append, List.dropWhile_cons_of_neg]
      rw [Bool.not_eq_true, ← Bool.not_eq_true']
      exact hkeep a List.mem_cons_self
  have hstop : ¬ (!isSpace c) = true := by
    rw [hc]
    exact Bool.false_ne_true
  have htake : (word ++ c :: rest).takeWhile (fun a => !isSpace a) = word := by
    rw [List.takeWhile_append_of_pos hkeep]
    exact (congrArg (word ++ ·) (List.takeWhile_cons_of_neg hstop)).trans (List.append_nil word)
  have hdrop : (word ++ c :: rest).dropWhile (fun a => !isSpace a) = c :: rest := by
    rw [List.dropWhile_append_of_pos hkeep]
    exact List.dropWhile_cons_of_neg hstop
  rw [scanWord, hskip, if_neg (by simp), htake, hdrop]

/-- A word and the rest are no longer than the string. -/
theorem length_scanWord {s word rest : List UInt8} (h : scanWord s = some (word, rest)) :
    word.length + rest.length ≤ s.length := by
  rw [scanWord] at h
  split at h
  · cases h
  · cases h
    have hskip := (List.dropWhile_suffix isSpace (l := s)).length_le
    rw [← List.length_append, List.takeWhile_append_dropWhile]
    exact hskip

/-- `strstr`: the string from the first match on. -/
def strstr (needle : List UInt8) : List UInt8 → Option (List UInt8)
  | [] => if needle = [] then some [] else none
  | c :: s => if needle.isPrefixOf (c :: s) then some (c :: s) else strstr needle s

/-- `strstr` fails exactly when there is no match. -/
theorem strstr_eq_none_iff (needle s : List UInt8) :
    strstr needle s = none ↔ ¬ needle <:+: s := by
  induction s with
  | nil =>
    rw [strstr, List.infix_nil]
    by_cases h : needle = []
    · rw [if_pos h]
      exact iff_of_false (Option.some_ne_none _) (fun hne => hne h)
    · rw [if_neg h]
      exact iff_of_true rfl h
  | cons c s ih =>
    rw [strstr, List.infix_cons_iff, not_or, ← List.isPrefixOf_iff_prefix]
    by_cases h : needle.isPrefixOf (c :: s) = true
    · rw [if_pos h]
      exact iff_of_false (Option.some_ne_none _) (fun hne => hne.1 h)
    · rw [if_neg h, ih]
      exact ⟨fun hrest => ⟨h, hrest⟩, fun hboth => hboth.2⟩

theorem isSome_strstr_iff (needle s : List UInt8) :
    (strstr needle s).isSome = true ↔ needle <:+: s := by
  rw [Option.isSome_iff_ne_none, Ne, strstr_eq_none_iff, not_not]

/-- `strstr` finds the first match: the one that no other begins before. -/
theorem strstr_append {front needle : List UInt8} (hne : needle ≠ [])
    (hfirst : ¬ needle <:+: front ++ needle.dropLast) (rest : List UInt8) :
    strstr needle (front ++ needle ++ rest) = some (needle ++ rest) := by
  induction front with
  | nil =>
    cases needle with
    | nil => exact absurd rfl hne
    | cons a needle =>
      rw [List.nil_append, List.cons_append, strstr, if_pos]
      rw [List.isPrefixOf_iff_prefix, ← List.cons_append]
      exact List.prefix_append _ _
  | cons c front ih =>
    rw [List.cons_append, List.infix_cons_iff, not_or] at hfirst
    rw [List.cons_append, List.cons_append, strstr, if_neg]
    · exact ih hfirst.2
    · -- A match at `c` would end in front of the last byte of the known one.
      intro hmatch
      rw [List.isPrefixOf_iff_prefix] at hmatch
      refine hfirst.1 (List.prefix_of_prefix_length_le hmatch ?_ ?_)
      · refine ⟨needle.drop (needle.length - 1) ++ rest, ?_⟩
        rw [List.dropLast_eq_take, List.cons_append, List.append_assoc, List.append_assoc,
          ← List.append_assoc (List.take _ _), List.take_append_drop]
      · rw [List.length_cons, List.length_append, List.length_dropLast]
        have hpos : 0 < needle.length := List.length_pos_of_ne_nil hne
        omega

end UpsFirmware.Lib
