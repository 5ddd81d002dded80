import UpsFirmware.Lib.Runs
import UpsFirmware.Rp2040.Effects

/-!
# `UpsFirmware.Rp2040.HwErrors`: counting the hardware faults

`class HwErrors` (`rp2040-app/src/hw_errors.cpp`). `check` reads the three fault
inputs, counts the asserted ones in one shared counter, and sets a bit of the
error code for an input that is asserted while the counter is above
`error_count`. Every 1001 calls without an error it zeroes the counter. `clear`
zeroes the counter and the code.

The loop of `buckboost` calls `check` in every pass, and `clear` in a pass whose
`check` is not zero. `HwErrors.pass` is what one pass of the loop does here. A
run of passes starts every `check` in a state that is `Settled`: the code is zero
and the counter is not above `error_count`. From there `check_eq_zero_iff` says
when a pass trips, `run_quiet` bounds how soon it can, and `run_trips` how late.
-/

set_option autoImplicit false

namespace UpsFirmware

open UpsFirmware.Lib

/-- The three inputs, as `gpio_pin_get_dt` reads them. -/
structure FaultPins where
  loadOc : Bool
  battOc : Bool
  battOv : Bool
deriving DecidableEq

/-- The members of `class HwErrors`. -/
structure HwErrors where
  errorCode : UInt8
  errorCount : UInt16 -- How many errors until you flag it
  curErrorCount : UInt16 -- Current amount of flagged errors
  rstCtr : UInt16

namespace HwErrors

/-! ### `enum Errors` -/

def LOAD_OC : UInt8 := 0
def BATT_OC : UInt8 := 1
def BATT_OV : UInt8 := 2

/-- `HwErrors::HwErrors`. -/
def new : HwErrors where
  errorCode := 0
  errorCount := 100
  curErrorCount := 0
  rstCtr := 1000

/-- The head of `check`: `if (!rst_ctr-- && !error_code)`. -/
def resetWindow (h : HwErrors) : HwErrors :=
  -- At zero the decrement wraps to 65535, unless the window starts again.
  let expired := h.rstCtr = 0
  let h := { h with rstCtr := h.rstCtr - 1 }
  if expired ∧ h.errorCode = 0 then { h with curErrorCount := 0, rstCtr := 1000 } else h

/-- One of the three inputs in `check`. -/
def checkInput (asserted : Bool) (led : Pin) (text : String) (bit : UInt8) (h : HwErrors) :
    HwErrors × List Effect :=
  if asserted then
    let h := { h with curErrorCount := h.curErrorCount + 1 }
    if h.curErrorCount > h.errorCount then
      ({ h with errorCode := h.errorCode ||| (1 <<< bit) },
        [.gpioPinSet led true, .printk text []])
    else (h, [.gpioPinSet led true])
  else (h, [.gpioPinSet led false])

/-- Load Overcurrent. -/
def checkLoadOc (asserted : Bool) : HwErrors → HwErrors × List Effect :=
  checkInput asserted .loadOcLed "Load Overcurrent! \n" LOAD_OC

/-- Battery Overcurrent. -/
def checkBattOc (asserted : Bool) : HwErrors → HwErrors × List Effect :=
  checkInput asserted .battOcLed "Battery Overcurrent! \n" BATT_OC

/-- Battery Overvoltage. -/
def checkBattOv (asserted : Bool) : HwErrors → HwErrors × List Effect :=
  checkInput asserted .battOvLed "Battery Overvoltage! \n" BATT_OV

/-- `HwErrors::check`. Its return value is the new `errorCode`. -/
def check (h : HwErrors) (pins : FaultPins) : HwErrors × List Effect :=
  let r1 := h.resetWindow.checkLoadOc pins.loadOc
  let r2 := r1.1.checkBattOc pins.battOc
  let r3 := r2.1.checkBattOv pins.battOv
  (r3.1, r1.2 ++ r2.2 ++ r3.2)

/-- `HwErrors::clear`. -/
def clear (h : HwErrors) : HwErrors := { h with errorCode := 0, curErrorCount := 0 }

/-- What one pass of the loop does to the counters: `check`, and `clear` if it is
not zero. -/
def pass (h : HwErrors) (pins : FaultPins) : HwErrors :=
  let h := (h.check pins).1
  if h.errorCode = 0 then h else h.clear

end HwErrors

/-! ### The effects of `check` -/

/-- Checking one input sets its LED and prints at most its line. -/
theorem mem_checkInput {asserted : Bool} {led : Pin} {text : String} {bit : UInt8}
    {h : HwErrors} {e : Effect} (he : e ∈ (HwErrors.checkInput asserted led text bit h).2) :
    (∃ value, e = .gpioPinSet led value) ∨ e = .printk text [] := by
  rw [HwErrors.checkInput] at he
  split at he
  · simp only at he
    split at he
    · rcases List.mem_cons.mp he with he | he
      · exact Or.inl ⟨true, he⟩
      · exact Or.inr (List.mem_singleton.mp he)
    · exact Or.inl ⟨true, List.mem_singleton.mp he⟩
  · exact Or.inl ⟨false, List.mem_singleton.mp he⟩

/-- `check` sets LEDs and prints lines of its own. -/
theorem HwErrors.mem_check {h : HwErrors} {pins : FaultPins} {e : Effect}
    (he : e ∈ (h.check pins).2) :
    (∃ led ∈ [Pin.loadOcLed, .battOcLed, .battOvLed], ∃ value, e = .gpioPinSet led value) ∨
    ∃ text ∈ ["Load Overcurrent! \n", "Battery Overcurrent! \n", "Battery Overvoltage! \n"],
      e = .printk text [] := by
  simp only [HwErrors.check, List.mem_append] at he
  -- The three inputs differ in their LED and their line only.
  rcases he with (he | he) | he
  all_goals
    rcases mem_checkInput he with ⟨value, rfl⟩ | rfl
    · exact Or.inl ⟨_, by decide, value, rfl⟩
    · exact Or.inr ⟨_, by decide, rfl⟩

/-- `check` leaves the power stage alone. -/
theorem HwErrors.harmless_check (h : HwErrors) (pins : FaultPins) :
    ∀ e ∈ (h.check pins).2, e.Harmless := by
  intro e he
  rcases HwErrors.mem_check he with ⟨led, hled, value, rfl⟩ | ⟨text, -, rfl⟩
  · cases led with
    | pwmEn => exact absurd hled (by decide)
    | _ => exact trivial
  · exact trivial

/-! ### One `check` -/

/-- The number of asserted inputs. -/
def FaultPins.asserted (pins : FaultPins) : Nat :=
  pins.loadOc.toNat + pins.battOc.toNat + pins.battOv.toNat

theorem FaultPins.asserted_le (pins : FaultPins) : pins.asserted ≤ 3 := by
  have h1 := pins.loadOc.toNat_le
  have h2 := pins.battOc.toNat_le
  have h3 := pins.battOv.toNat_le
  rw [FaultPins.asserted]
  omega

/-- The counters while `check` goes through the inputs: `c` is the count, and the
code is zero as long as the count is not above `error_count`. -/
structure HwErrors.Counts (h : HwErrors) (c : Nat) : Prop where
  errorCount : h.errorCount = 100
  count : h.curErrorCount.toNat = c
  code : h.errorCode = 0 ↔ c ≤ 100

/-- Far from where a `uint16_t` wraps, an asserted input is counted. -/
theorem HwErrors.Counts.toNat_succ {h : HwErrors} {c : Nat} (hc : h.Counts c)
    (hsmall : c < 65535) : (h.curErrorCount + 1).toNat = c + 1 := by
  have hone : (1 : UInt16).toNat = 1 := rfl
  rw [UInt16.toNat_add, hc.count, hone]
  omega

/-- When an asserted input takes the count above the limit. -/
theorem HwErrors.Counts.above_iff {h : HwErrors} {c : Nat} (hc : h.Counts c)
    (hsmall : c < 65535) : h.curErrorCount + 1 > h.errorCount ↔ 100 < c + 1 := by
  rw [gt_iff_lt, UInt16.lt_iff_toNat_lt, hc.toNat_succ hsmall, hc.errorCount]
  rfl

/-- Checking one input counts it. -/
theorem HwErrors.Counts.checkInput {h : HwErrors} {c : Nat} (hc : h.Counts c)
    (hsmall : c < 65535) (asserted : Bool) (led : Pin) (text : String) (bit : UInt8)
    (hbit : (1 : UInt8) <<< bit ≠ 0) :
    (HwErrors.checkInput asserted led text bit h).1.Counts (c + asserted.toNat) := by
  cases asserted with
  | false => exact hc
  | true =>
    have hcount := hc.toNat_succ hsmall
    have habove := hc.above_iff hsmall
    rw [HwErrors.checkInput, if_pos rfl]
    by_cases hgt : h.curErrorCount + 1 > h.errorCount
    · -- The count is above the limit: the input's bit is set.
      have hlt := habove.mp hgt
      simp only [if_pos hgt]
      refine ⟨hc.errorCount, hcount, ?_⟩
      constructor
      · intro h0
        exact absurd (UInt8.or_eq_zero_iff.mp h0).2 hbit
      · intro hle
        rw [Bool.toNat_true] at hle
        omega
    · have hle : ¬ 100 < c + 1 := fun hlt => hgt (habove.mpr hlt)
      simp only [if_neg hgt]
      refine ⟨hc.errorCount, hcount, ?_⟩
      have hcode : h.errorCode = 0 := hc.code.mpr (by omega)
      exact ⟨fun _ => by rw [Bool.toNat_true]; omega, fun _ => hcode⟩

/-- Between two passes: the code is zero, the count is not above `error_count`,
and the window has not run past its end. -/
structure HwErrors.Settled (h : HwErrors) : Prop where
  code : h.errorCode = 0
  errorCount : h.errorCount = 100
  count : h.curErrorCount.toNat ≤ 100
  window : h.rstCtr.toNat ≤ 1000

/-- The count that a `check` starts from. -/
def HwErrors.base (h : HwErrors) : Nat := if h.rstCtr = 0 then 0 else h.curErrorCount.toNat

theorem HwErrors.base_le {h : HwErrors} (hs : h.Settled) : h.base ≤ 100 := by
  rw [HwErrors.base]
  split
  · exact Nat.zero_le _
  · exact hs.count

theorem HwErrors.settled_new : HwErrors.new.Settled where
  code := rfl
  errorCount := rfl
  count := by decide
  window := by decide

/-- The window counts down to zero and starts again. -/
theorem HwErrors.resetWindow_rstCtr {h : HwErrors} (hs : h.Settled) :
    h.resetWindow.rstCtr.toNat = if h.rstCtr.toNat = 0 then 1000 else h.rstCtr.toNat - 1 := by
  rw [HwErrors.resetWindow]
  by_cases hz : h.rstCtr = 0
  · simp [hz, hs.code]
  · have hne : h.rstCtr.toNat ≠ 0 := fun h0 => hz (UInt16.toNat_inj.mp h0)
    have hw := hs.window
    have hone : (1 : UInt16).toNat = 1 := rfl
    simp only [hz, false_and, if_false, if_neg hne, UInt16.toNat_sub, hone]
    omega

theorem HwErrors.resetWindow_counts {h : HwErrors} (hs : h.Settled) :
    h.resetWindow.Counts h.base := by
  have hbase := HwErrors.base_le hs
  rw [HwErrors.resetWindow]
  by_cases hz : h.rstCtr = 0
  · -- The window starts again, and the count with it.
    rw [HwErrors.base, if_pos hz]
    simp only [hz, hs.code, and_self, if_true]
    exact ⟨hs.errorCount, rfl, by simp⟩
  · rw [HwErrors.base, if_neg hz] at hbase ⊢
    simp only [hz, false_and, if_false]
    exact ⟨hs.errorCount, rfl, iff_of_true hs.code hbase⟩

/-- The inputs do not touch the window. -/
theorem HwErrors.checkInput_rstCtr (asserted : Bool) (led : Pin) (text : String) (bit : UInt8)
    (h : HwErrors) : (HwErrors.checkInput asserted led text bit h).1.rstCtr = h.rstCtr := by
  rw [HwErrors.checkInput]
  split
  · simp only
    split
    · rfl
    · rfl
  · rfl

theorem HwErrors.check_rstCtr (h : HwErrors) (pins : FaultPins) :
    (h.check pins).1.rstCtr = h.resetWindow.rstCtr := by
  simp only [HwErrors.check, HwErrors.checkLoadOc, HwErrors.checkBattOc, HwErrors.checkBattOv,
    HwErrors.checkInput_rstCtr]

/-- The counters behind the first input and behind the second one. -/
theorem HwErrors.check_stages {h : HwErrors} (hs : h.Settled) (pins : FaultPins) :
    (h.resetWindow.checkLoadOc pins.loadOc).1.Counts (h.base + pins.loadOc.toNat) ∧
      ((h.resetWindow.checkLoadOc pins.loadOc).1.checkBattOc pins.battOc).1.Counts
        (h.base + pins.loadOc.toNat + pins.battOc.toNat) := by
  -- The count stays under 104, far from where a `uint16_t` wraps.
  have hbase := HwErrors.base_le hs
  have h1 := pins.loadOc.toNat_le
  have c1 := (HwErrors.resetWindow_counts hs).checkInput (by omega) pins.loadOc .loadOcLed
    "Load Overcurrent! \n" HwErrors.LOAD_OC (by decide)
  have c2 := c1.checkInput (by omega) pins.battOc .battOcLed
    "Battery Overcurrent! \n" HwErrors.BATT_OC (by decide)
  exact ⟨c1, c2⟩

/-- A `check` adds the asserted inputs to the count it starts from. -/
theorem HwErrors.check_counts {h : HwErrors} (hs : h.Settled) (pins : FaultPins) :
    (h.check pins).1.Counts (h.base + pins.asserted) := by
  have hbase := HwErrors.base_le hs
  have h1 := pins.loadOc.toNat_le
  have h2 := pins.battOc.toNat_le
  have c2 := (HwErrors.check_stages hs pins).2
  have c3 := c2.checkInput (by omega) pins.battOv .battOvLed
    "Battery Overvoltage! \n" HwErrors.BATT_OV (by decide)
  rw [FaultPins.asserted, ← Nat.add_assoc, ← Nat.add_assoc]
  exact c3

/-- When a pass trips. -/
theorem HwErrors.check_eq_zero_iff {h : HwErrors} (hs : h.Settled) (pins : FaultPins) :
    (h.check pins).1.errorCode = 0 ↔ h.base + pins.asserted ≤ 100 :=
  (HwErrors.check_counts hs pins).code

/-! ### Passes -/

/-- A pass that trips clears the counter and the code. -/
theorem HwErrors.pass_of_trip {h : HwErrors} {pins : FaultPins}
    (hne : (h.check pins).1.errorCode ≠ 0) : h.pass pins = (h.check pins).1.clear := if_neg hne

/-- The window after a pass. -/
theorem HwErrors.pass_rstCtr {h : HwErrors} (hs : h.Settled) (pins : FaultPins) :
    (h.pass pins).rstCtr.toNat = if h.rstCtr.toNat = 0 then 1000 else h.rstCtr.toNat - 1 := by
  rw [← HwErrors.resetWindow_rstCtr hs, ← HwErrors.check_rstCtr h pins, HwErrors.pass]
  split
  · rfl
  · rfl

/-- The count after a pass. -/
theorem HwErrors.pass_count {h : HwErrors} (hs : h.Settled) (pins : FaultPins) :
    (h.pass pins).curErrorCount.toNat
      = if h.base + pins.asserted ≤ 100 then h.base + pins.asserted else 0 := by
  rw [HwErrors.pass]
  by_cases hz : (h.check pins).1.errorCode = 0
  · simp only [if_pos hz]
    rw [if_pos ((HwErrors.check_eq_zero_iff hs pins).mp hz)]
    exact (HwErrors.check_counts hs pins).count
  · simp only [if_neg hz]
    rw [if_neg (fun hle => hz ((HwErrors.check_eq_zero_iff hs pins).mpr hle))]
    rfl

/-- A pass keeps the counters settled. -/
theorem HwErrors.settled_pass {h : HwErrors} (hs : h.Settled) (pins : FaultPins) :
    (h.pass pins).Settled := by
  have hcount := HwErrors.pass_count hs pins
  have hwindow := HwErrors.pass_rstCtr hs pins
  have hw := hs.window
  refine ⟨?_, ?_, ?_, ?_⟩
  · show (h.pass pins).errorCode = 0
    rw [HwErrors.pass]
    split
    · assumption
    · rfl
  · show (h.pass pins).errorCount = 100
    have herr := (HwErrors.check_counts hs pins).errorCount
    rw [HwErrors.pass]
    split
    · exact herr
    · exact herr
  · show (h.pass pins).curErrorCount.toNat ≤ 100
    rw [hcount]
    split
    · assumption
    · exact Nat.zero_le _
  · show (h.pass pins).rstCtr.toNat ≤ 1000
    rw [hwindow]
    split
    · exact Nat.le_refl _
    · omega

/-! ### Runs of passes -/

section Passes

variable (h : HwErrors) (pins : Nat → FaultPins)

/-- The counters before pass `n` of a run that starts with `h`. -/
def HwErrors.before (n : Nat) : HwErrors := stateAt HwErrors.pass h pins n

theorem HwErrors.before_succ (n : Nat) :
    h.before pins (n + 1) = (h.before pins n).pass (pins n) := rfl

/-- Every pass finds the counters settled. -/
theorem HwErrors.settled_before (hs : h.Settled) (n : Nat) : (h.before pins n).Settled :=
  stateAt_invariant pins HwErrors.Settled hs (fun _ pins hs => HwErrors.settled_pass hs pins) n

/-- The count grows by at most three in a pass. -/
theorem HwErrors.before_count_le (hs : h.Settled) (n : Nat) :
    (h.before pins n).curErrorCount.toNat ≤ h.curErrorCount.toNat + 3 * n := by
  induction n with
  | zero => exact Nat.le_refl _
  | succ n ih =>
    have hcount := HwErrors.pass_count (h.settled_before pins hs n) (pins n)
    -- A reset or a trip only lowers the count.
    have hle := (pins n).asserted_le
    have hbase : (h.before pins n).base ≤ (h.before pins n).curErrorCount.toNat := by
      rw [HwErrors.base]
      split
      · exact Nat.zero_le _
      · exact Nat.le_refl _
    rw [← HwErrors.before_succ] at hcount
    split at hcount
    · omega
    · omega

/-- No trip comes soon: from an empty count, 33 passes in a row have a `check`
that is zero, whatever the inputs are. -/
theorem HwErrors.run_quiet (hs : h.Settled) (h0 : h.curErrorCount = 0) {n : Nat} (hn : n < 33) :
    ((h.before pins n).check (pins n)).1.errorCode = 0 := by
  have hcount := h.before_count_le pins hs n
  have hle := (pins n).asserted_le
  rw [h0, UInt16.toNat_zero] at hcount
  rw [HwErrors.check_eq_zero_iff (h.settled_before pins hs n), HwErrors.base]
  -- `3 * 32 + 3 = 99`
  split
  · omega
  · omega

/-- The window counts down. -/
theorem HwErrors.before_rstCtr (hs : h.Settled) {n : Nat} (hn : n ≤ h.rstCtr.toNat) :
    (h.before pins n).rstCtr.toNat = h.rstCtr.toNat - n := by
  induction n with
  | zero => rfl
  | succ n ih =>
    have hprev := ih (by omega)
    have hnext := HwErrors.pass_rstCtr (h.settled_before pins hs n) (pins n)
    rw [HwErrors.before_succ, hnext, hprev, if_neg (by omega)]
    omega

/-- A pass that does not trip, with an input asserted, counts. -/
theorem HwErrors.pass_counts (hs : h.Settled) (p : FaultPins) (hp : 1 ≤ p.asserted)
    (hquiet : (h.check p).1.errorCode = 0) :
    h.base + 1 ≤ (h.pass p).curErrorCount.toNat := by
  rw [HwErrors.pass_count hs, if_pos ((HwErrors.check_eq_zero_iff hs p).mp hquiet)]
  omega

/-- Inside a window, passes that count without a trip add up. -/
theorem HwErrors.before_count_ge (hs : h.Settled) {n : Nat} (hn : n ≤ h.rstCtr.toNat)
    (hp : ∀ k < n, 1 ≤ (pins k).asserted)
    (hquiet : ∀ k < n, ((h.before pins k).check (pins k)).1.errorCode = 0) :
    h.curErrorCount.toNat + n ≤ (h.before pins n).curErrorCount.toNat := by
  induction n with
  | zero => exact Nat.le_refl _
  | succ n ih =>
    have hprev := ih (by omega) (fun k hk => hp k (by omega)) (fun k hk => hquiet k (by omega))
    have hwindow := h.before_rstCtr pins hs (n := n) (by omega)
    have hcounts := HwErrors.pass_counts (h.before pins n) (h.settled_before pins hs n) (pins n)
      (hp n (by omega)) (hquiet n (by omega))
    -- Pass `n` is still inside the window, so it does not start from zero.
    have hne : (h.before pins n).rstCtr ≠ 0 := by
      intro h0
      rw [h0, UInt16.toNat_zero] at hwindow
      omega
    rw [HwErrors.base, if_neg hne] at hcounts
    rw [HwErrors.before_succ]
    omega

/-- A trip comes in time: of 201 passes in a row with an input asserted in each,
one has a `check` that is not zero. Either the window leaves 101 of them room to
count, or it ends within the first 101 and the next one does. -/
theorem HwErrors.run_trips (hs : h.Settled) (hp : ∀ k < 201, 1 ≤ (pins k).asserted) :
    ∃ k < 201, ((h.before pins k).check (pins k)).1.errorCode ≠ 0 := by
  by_contra hcon
  have hquiet : ∀ k < 201, ((h.before pins k).check (pins k)).1.errorCode = 0 := by
    intro k hk
    by_contra hne
    exact hcon ⟨k, hk, hne⟩
  by_cases hlong : 101 ≤ h.rstCtr.toNat
  · -- The count reaches 101, which a settled count never is.
    have hge := h.before_count_ge pins hs (n := 101) hlong (fun k hk => hp k (by omega))
      (fun k hk => hquiet k (by omega))
    have hle := (h.settled_before pins hs 101).count
    omega
  · -- The window ends before pass `w`, and a new one begins with it.
    obtain ⟨w, hw⟩ : ∃ w, w = h.rstCtr.toNat := ⟨_, rfl⟩
    have hsw := h.settled_before pins hs w
    have hzero := h.before_rstCtr pins hs (n := w) (by omega)
    have hfresh := HwErrors.pass_rstCtr hsw (pins w)
    rw [hzero, if_pos (by omega), ← HwErrors.before_succ] at hfresh
    have hfirst := HwErrors.pass_counts _ hsw (pins w) (hp w (by omega)) (hquiet w (by omega))
    rw [← HwErrors.before_succ] at hfirst
    -- From there the run is a run of its own, with 1000 passes before its reset.
    have hshift : ∀ k, (h.before pins (w + 1)).before (fun k => pins (w + 1 + k)) k
        = h.before pins (w + 1 + k) := by
      intro k
      exact (stateAt_add HwErrors.pass h pins (w + 1) k).symm
    have hge := (h.before pins (w + 1)).before_count_ge (fun k => pins (w + 1 + k))
      (h.settled_before pins hs (w + 1)) (n := 100) (by omega)
      (fun k hk => hp (w + 1 + k) (by omega))
      (fun k hk => by rw [hshift]; exact hquiet (w + 1 + k) (by omega))
    have hle := (h.settled_before pins hs (w + 1 + 100)).count
    rw [hshift] at hge
    omega

end Passes

end UpsFirmware
