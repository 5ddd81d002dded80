import Mathlib.Data.Rat.Defs
import UpsFirmware.Esp32.Screen
import UpsFirmware.Lib.Rounding

/-!
# `UpsFirmware.Esp32.Pages`: what the pages show

The functions `screen_draw_*` (`esp32-app/src/screen.c`) as the calls that they make. A text
is the format and the arguments of its `sprintf`.

The gauge of the battery fills the columns of its icon from the left. `screen_fill_battery`
multiplies by the double nearest to 0.22, rounds the product to a double and cuts it off,
and `timesPoint22_eq` says that this is the exact quotient. `mem_draws_iff` leaves the banner
of a page, and the two lemmas behind it say which columns and which text that draws.
-/

set_option autoImplicit false

namespace UpsFirmware.Esp32

open Lib

def FW_VERSION : Int := 0
def FW_SUBVERSION : Int := 1

/-! ### Drawing -/

/-- An argument of `sprintf`. A `float` is the exact quotient, where the source passes the
`float` nearest to it. -/
inductive TextArg where
  | int (v : Int)
  | float (v : ℚ)
deriving DecidableEq

/-- A call that draws. -/
inductive Draw where
  | framebufferClear
  | logo
  | text (fmt : String) (args : List TextArg) (x y : Nat)
  | rect (x₁ y₁ x₂ y₂ : Nat)
  | line (x₁ y₁ x₂ y₂ : Nat)
  | framebufferFinalize
deriving DecidableEq

def screenDrawBattery : List Draw := [.rect 98 50 120 60, .rect 121 52 124 58]

/-- `(int)(capacity * 0.22)`. The double nearest to 0.22 is 7926335344172073 / 2⁵⁵, and the
product is rounded to the 53 bits of a double. -/
def timesPoint22 (capacity : Nat) : Nat := roundSig 53 (capacity * 7926335344172073) / 2 ^ 55

def screenFillBattery (capacity : Nat) : List Draw :=
  let capacity := timesPoint22 capacity
  (List.range 23).flatMap fun i =>
    if capacity > i then [.line (98 + i) 50 (98 + i) 60] else []

def screenDrawIntro : List Draw :=
  [.framebufferClear, .logo, .text "R1 FW: %d.%d" [.int FW_VERSION, .int FW_SUBVERSION] 0 50,
    .framebufferFinalize]

def screenDrawError : List Draw :=
  [.framebufferClear, .text "Error! No msg" [] 0 0, .text "from RP2040!" [] 0 20,
    .framebufferFinalize]

def screenDrawBanner (msg : Msg) : List Draw :=
  screenDrawBattery ++ screenFillBattery msg.gas.toNat ++
    [if msg.state = MSG_STATE_CHARGING then .text "Char" [] 0 46 else .text "Dischar" [] 0 46]

/-- The page with the output. Its quotients by 1000 are exact here, and a `float` in the
source. -/
def screenDrawVout (msg : Msg) : List Draw :=
  [.framebufferClear, .text "Vout: %.2fV" [.float ((msg.vout.toNat : ℚ) / 1000)] 0 0,
    .text "Idis: %.1fA" [.float ((msg.iout.toNat : ℚ) / 1000)] 0 20] ++
    screenDrawBanner msg ++ [.framebufferFinalize]

/-- The page with the battery. Its quotients are exact, as those of `screenDrawVout`. -/
def screenDrawVbat (msg : Msg) : List Draw :=
  [.framebufferClear, .text "Vbat: %.2fV" [.float ((msg.vbat.toNat : ℚ) / 1000)] 0 0,
    .text "Ichg: %.1fA" [.float ((msg.ibat.toNat : ℚ) / 1000)] 0 20] ++
    screenDrawBanner msg ++ [.framebufferFinalize]

/-- The calls that draw a page. -/
def Page.draws : Page → List Draw
  | .intro => screenDrawIntro
  | .error => screenDrawError
  | .vbat msg => screenDrawVbat msg
  | .vout msg => screenDrawVout msg

/-! ### The gauge -/

/-- The product with the double is the exact one when it is cut off. -/
theorem timesPoint22_eq {capacity : Nat} (h : capacity < 2 ^ 16) :
    timesPoint22 capacity = 22 * capacity / 100 := by
  have hbits : capacity * 7926335344172073 < 2 ^ 69 := by omega
  obtain ⟨hupper, -⟩ := roundSig_error 53 (by decide) hbits
  -- The whole part is a multiple of the unit, so rounding does not go below it.
  have hunit : 2 ^ ((capacity * 7926335344172073).log2 + 1 - 53) ∣
      22 * capacity / 100 * 2 ^ 55 := by
    have hlog := log2_lt_of_lt (by decide) hbits
    exact Dvd.dvd.mul_left (Nat.pow_dvd_pow 2 (by omega)) _
  have hlower := le_roundTo hunit (t := capacity * 7926335344172073) (by omega)
  rw [← roundSig] at hlower
  rw [timesPoint22]
  omega

/-- The columns that are filled. -/
theorem line_mem_screenFillBattery_iff {capacity : Nat} (h : capacity < 2 ^ 16) (x : Nat) :
    .line x 50 x 60 ∈ screenFillBattery capacity ↔
      98 ≤ x ∧ x ≤ 120 ∧ 100 * (x - 97) ≤ 22 * capacity := by
  rw [screenFillBattery, timesPoint22_eq h, List.mem_flatMap]
  constructor
  · rintro ⟨i, hi, hline⟩
    rw [List.mem_range] at hi
    split at hline
    · rw [List.mem_singleton, Draw.line.injEq] at hline
      omega
    · cases hline
  · rintro ⟨hleft, hright, hfill⟩
    refine ⟨x - 98, List.mem_range.mpr (by omega), ?_⟩
    rw [if_pos (by omega), List.mem_singleton, Draw.line.injEq]
    omega

/-- The calls of the two pages around those of their banner. -/
theorem mem_draws_iff {d : Draw} {page : Page} {m : Msg} (hpage : page.msg = some m)
    (hclear : d ≠ .framebufferClear) (hfinalize : d ≠ .framebufferFinalize)
    (htext : ∀ fmt args, d ≠ .text fmt args 0 0 ∧ d ≠ .text fmt args 0 20) :
    d ∈ page.draws ↔ d ∈ screenDrawBanner m := by
  cases page with
  | intro => cases hpage
  | error => cases hpage
  | vbat msg =>
    cases hpage
    rw [Page.draws, screenDrawVbat]
    simp only [List.mem_append, List.mem_cons, List.not_mem_nil, hclear, hfinalize,
      (htext _ _).1, (htext _ _).2, or_false, false_or]
  | vout msg =>
    cases hpage
    rw [Page.draws, screenDrawVout]
    simp only [List.mem_append, List.mem_cons, List.not_mem_nil, hclear, hfinalize,
      (htext _ _).1, (htext _ _).2, or_false, false_or]

/-- The columns of the banner are those of the gauge. -/
theorem line_mem_screenDrawBanner_iff (m : Msg) (x : Nat) :
    .line x 50 x 60 ∈ screenDrawBanner m ↔ .line x 50 x 60 ∈ screenFillBattery m.gas.toNat := by
  rw [screenDrawBanner, screenDrawBattery]
  simp only [List.mem_append, List.mem_cons, List.not_mem_nil, reduceCtorEq, false_or, or_false,
    or_iff_left_iff_imp]
  intro htext
  split at htext
  · cases htext
  · cases htext

/-- The text of the banner. -/
theorem text_mem_screenDrawBanner_iff (m : Msg) (s : String) :
    .text s [] 0 46 ∈ screenDrawBanner m ↔
      s = if m.state = MSG_STATE_CHARGING then "Char" else "Dischar" := by
  have hgauge : .text s [] 0 46 ∉ screenFillBattery m.gas.toNat := by
    rw [screenFillBattery, List.mem_flatMap]
    rintro ⟨i, -, hline⟩
    split at hline
    · cases List.mem_singleton.mp hline
    · cases hline
  rw [screenDrawBanner, screenDrawBattery]
  simp only [List.mem_append, List.mem_cons, List.not_mem_nil, reduceCtorEq, hgauge, false_or,
    or_false]
  split
  · rw [Draw.text.injEq]
    exact ⟨And.left, fun h => ⟨h, rfl, rfl, rfl⟩⟩
  · rw [Draw.text.injEq]
    exact ⟨And.left, fun h => ⟨h, rfl, rfl, rfl⟩⟩

end UpsFirmware.Esp32
