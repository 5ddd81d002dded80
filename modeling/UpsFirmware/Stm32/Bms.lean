import Mathlib.Algebra.Order.Group.Nat
import Mathlib.Data.Nat.Count
import UpsFirmware.Lib.Runs
import UpsFirmware.Stm32.Bq76920

/-!
# `UpsFirmware.Stm32.Bms`: the main loop of the battery monitor's MCU

`main` and `check_faults` (`stm32-app/main.c`), with the interrupt of USART2
(`stm32-app/uart.c`). An iteration reads and balances the cells, checks `SYS_STAT`, and
shuts the chip down when the button is pressed or the RP2040 asked for it. The interrupt
only sets a flag, so all that matters of the bytes is whether they come before or after
the flag is tested.

`lockout` is about every run. The fault counter counts the iterations with a fault up to
10, and the loop enables the outputs in exactly these. It shuts down on a fault after
the tenth, on the button, and on an `@` that arrived at any time before.
-/

set_option autoImplicit false

namespace UpsFirmware.Stm32

open Lib

/-! ### USART2 -/

/-- The byte that requests a shutdown. -/
def SHUTDOWN_BYTE : UInt8 := '@'.toUInt8

/-- `usart2_lpuart2_isr`, on the flag `shutdown`. -/
def usart2Isr (shutdown : Bool) (data : UInt8) : Bool :=
  if data = SHUTDOWN_BYTE then true else shutdown

/-- After some bytes the flag is set if it was, or if one of them requests it. -/
theorem foldl_usart2Isr (bytes : List UInt8) (shutdown : Bool) :
    bytes.foldl usart2Isr shutdown = true ↔ shutdown = true ∨ SHUTDOWN_BYTE ∈ bytes := by
  induction bytes generalizing shutdown with
  | nil => simp
  | cons data bytes ih =>
    rw [List.foldl_cons, ih, List.mem_cons, usart2Isr]
    by_cases h : data = SHUTDOWN_BYTE
    · simp [h]
    · rw [if_neg h, ← or_assoc, eq_comm (a := SHUTDOWN_BYTE)]
      simp [h]

/-! ### Faults -/

/-- `check_faults`, on the value that it reads from `SYS_STAT`: the fault counter and
the effects. -/
def checkFaults (faultCounter ret : UInt8) : UInt8 × List Effect :=
  if ret ≠ 0 then
    if faultCounter < 10 then
      (faultCounter + 1,
        [.gpioSet .led1, .delay 1000000] ++ bq76920ClearFaults ++ bq76920OutputEnable)
    else
      -- Shutdown
      (faultCounter, [.gpioSet .led1, .delay 1000000] ++ bq76920Shutdown)
  else (faultCounter, [])

/-- The faults that `main` names, with their lines. -/
def faultLines : List (UInt8 × String) :=
  [(SYS_STAT_OCD, "Fault: SYS_STAT_OCD\n\r"), (SYS_STAT_SCD, "Fault: SYS_STAT_SCD\n\r"),
    (SYS_STAT_OV, "Fault: SYS_STAT_OV\n\r"), (SYS_STAT_UV, "Fault: SYS_STAT_UV\n\r"),
    (SYS_STAT_OVRD_ALERT, "Fault: SYS_STAT_OVRD_ALERT\n\r"),
    (SYS_STAT_DEVICE_XREADY, "Fault: SYS_STAT_DEVICE_XREADY\n\r")]

/-- `if (ret)` behind `check_faults`. -/
def reportFaults (faultCounter ret : UInt8) : List Effect :=
  if ret ≠ 0 then
    (faultLines.filter fun line => ret &&& line.1 ≠ 0).map (fun line => .uart1Out line.2 []) ++
      [.uart1Out "Fault Counter: %d\n\r" [faultCounter.toNat]]
  else []

/-! ### The loop -/

/-- What the outside supplies to one iteration: the registers at its nine reads, the
level of PA0, and the bytes that USART2 receives before and after the test of the
flag. -/
structure Inputs where
  chip : Chip
  pa0 : Bool
  rxBefore : List UInt8
  rxAfter : List UInt8

/-- The value that `check_faults` reads: the read behind the four cells. -/
def Inputs.sysStat (inp : Inputs) : UInt8 := bq76920ReadReg (inp.chip 8) SYS_STAT

/-- The variables of `main` and of the modules it uses. -/
structure Bms where
  cal : Calibration
  faultCounter : UInt8
  shutdown : Bool
  cells : Cells

namespace Bms

/-- One iteration of `while (1)`. -/
def iterate (s : Bms) (inp : Inputs) : Bms × List Effect :=
  let c := bq76920ReadCellsV s.cal inp.chip
  let balanced := bq76920BalanceCells c
  let ret := inp.sysStat
  let checked := checkFaults s.faultCounter ret
  let shutdown := inp.rxBefore.foldl usart2Isr s.shutdown
  let shutting :=
    if !inp.pa0 || shutdown then [.uart1Out "Shutting down\n\r" []] ++ bq76920Shutdown else []
  ({ s with
      cells := c
      faultCounter := checked.1
      shutdown := inp.rxAfter.foldl usart2Isr shutdown },
    balanced.2 ++
      [.uart1Out "C0: %dmV C1: %dmV C2: %dmV C3: %dmV | Balance: %d\n\r"
        [c.c0.toNat, c.c1.toNat, c.c2.toNat, c.c3.toNat, balanced.1.toNat]] ++
      checked.2 ++ reportFaults checked.1 ret ++ shutting ++ [.gpioToggle .led2, .delay 5000000])

end Bms

/-- What the outside supplies to the part before the loop: the value read back from
`CC_CFG`, the calibration registers, and the bytes that USART2 receives. -/
structure BootInputs where
  ccCfg : UInt8
  chip : Chip
  rx : List UInt8

/-- The part of `main` before the loop. `none` is `hard_fault`, which does not
return. -/
def startUp (b : BootInputs) : Option Bms × List Effect :=
  let blink := [.gpioSet .led1, .delay 1000000, .gpioClear .led1,
    .uart1Out "Starting BMS\r\n" [], .writeReg CC_CFG 0x19]
  if b.ccCfg ≠ 0x19 then (none, blink)
  else
    let init := bq76920Init b.chip
    (some
      { cal := init.1
        faultCounter := 0
        shutdown := b.rx.foldl usart2Isr false
        cells := ⟨0, 0, 0, 0⟩ },
      blink ++ init.2 ++ bq76920ClearFaults ++ bq76920OutputEnable)

/-! ### Register writes -/

/-- The register writes among some effects, in order. -/
def writes (fx : List Effect) : List (UInt8 × UInt8) :=
  fx.filterMap fun e =>
    match e with
    | .writeReg reg val => some (reg, val)
    | _ => none

theorem writes_append (fx gx : List Effect) : writes (fx ++ gx) = writes fx ++ writes gx :=
  List.filterMap_append

/-- The write that enables the outputs. -/
def ENABLE_WRITE : UInt8 × UInt8 := (SYS_CTRL2, SYS_CTRL2_CHG_ON ||| SYS_CTRL2_DSG_ON)

/-- The two writes that shut the chip down. -/
def SHUTDOWN_WRITES : List (UInt8 × UInt8) :=
  [(SYS_CTRL1, SYS_CTRL1_SHUT_B), (SYS_CTRL1, SYS_CTRL1_SHUT_A)]

/-- Without its first write there is no shutdown. -/
theorem not_shutsDown {ws : List (UInt8 × UInt8)} (h : (SYS_CTRL1, SYS_CTRL1_SHUT_B) ∉ ws) :
    ¬ SHUTDOWN_WRITES <:+: ws := fun hpart => h (hpart.subset List.mem_cons_self)

/-- Reporting faults writes nothing. -/
theorem writes_reportFaults (faultCounter ret : UInt8) :
    writes (reportFaults faultCounter ret) = [] := by
  rw [reportFaults]
  split
  · rw [writes_append]
    show List.filterMap _ (List.map _ _) ++ _ = _
    rw [List.filterMap_map]
    simp [writes]
  · rfl

/-- What checking the faults writes. -/
theorem writes_checkFaults (faultCounter ret : UInt8) :
    writes (checkFaults faultCounter ret).2
      = if ret ≠ 0 then
          if faultCounter < 10 then writes bq76920ClearFaults ++ [ENABLE_WRITE]
          else SHUTDOWN_WRITES
        else [] := by
  rw [checkFaults]
  split
  · split
    · rfl
    · rfl
  · rfl

namespace Bms

/-- The flag at the moment an iteration tests it. -/
def shutdownAtTest (s : Bms) (inp : Inputs) : Bool := inp.rxBefore.foldl usart2Isr s.shutdown

/-- What an iteration writes: the balancing register, then what `check_faults` writes,
then the shutdown. -/
theorem writes_iterate (s : Bms) (inp : Inputs) :
    ∃ bal, writes (s.iterate inp).2
      = (CELLBAL1, bal) :: (writes (checkFaults s.faultCounter inp.sysStat).2 ++
          if !inp.pa0 || s.shutdownAtTest inp then SHUTDOWN_WRITES else []) := by
  refine ⟨(bq76920BalanceCells (bq76920ReadCellsV s.cal inp.chip)).1, ?_⟩
  have hshutting : writes (if !inp.pa0 || s.shutdownAtTest inp then
      [.uart1Out "Shutting down\n\r" []] ++ bq76920Shutdown else [])
        = if !inp.pa0 || s.shutdownAtTest inp then SHUTDOWN_WRITES else [] := by
    split
    · rfl
    · rfl
  show writes (_ ++ _ ++ (checkFaults s.faultCounter inp.sysStat).2 ++
    reportFaults _ inp.sysStat ++ (if !inp.pa0 || s.shutdownAtTest inp then _ else _) ++ _) = _
  rw [writes_append, writes_append, writes_append, writes_append, writes_append, hshutting,
    writes_reportFaults, List.append_nil]
  -- The line of the voltages and the LED write no register.
  show [(CELLBAL1, _)] ++ [] ++ writes (checkFaults s.faultCounter inp.sysStat).2 ++ _ ++ [] = _
  rw [List.append_nil, List.append_nil]
  rfl

/-- An iteration enables the outputs on a fault, if fewer than ten were counted. -/
theorem enables_iterate_iff (s : Bms) (inp : Inputs) :
    ENABLE_WRITE ∈ writes (s.iterate inp).2 ↔ inp.sysStat ≠ 0 ∧ s.faultCounter < 10 := by
  obtain ⟨bal, hwrites⟩ := s.writes_iterate inp
  have hbal : ENABLE_WRITE ≠ (CELLBAL1, bal) := by
    intro h
    exact absurd (congrArg Prod.fst h) (show SYS_CTRL2 ≠ CELLBAL1 by decide)
  have hshut : ENABLE_WRITE ∉ SHUTDOWN_WRITES := by decide
  have hshutting :
      ENABLE_WRITE ∉ if !inp.pa0 || s.shutdownAtTest inp then SHUTDOWN_WRITES else [] := by
    split
    · exact hshut
    · exact List.not_mem_nil
  rw [hwrites, List.mem_cons, List.mem_append, writes_checkFaults]
  by_cases hstat : inp.sysStat ≠ 0
  · rw [if_pos hstat]
    by_cases hcount : s.faultCounter < 10
    · rw [if_pos hcount]
      exact iff_of_true (Or.inr (Or.inl (by simp))) ⟨hstat, hcount⟩
    · rw [if_neg hcount]
      exact iff_of_false (not_or.mpr ⟨hbal, not_or.mpr ⟨hshut, hshutting⟩⟩) fun h => hcount h.2
  · rw [if_neg hstat]
    exact iff_of_false (not_or.mpr ⟨hbal, not_or.mpr ⟨List.not_mem_nil, hshutting⟩⟩)
      fun h => hstat h.1

/-- An iteration shuts the chip down on a fault after the tenth, on the button, and on
the flag. -/
theorem shutsDown_iterate_iff (s : Bms) (inp : Inputs) :
    SHUTDOWN_WRITES <:+: writes (s.iterate inp).2 ↔
      (inp.sysStat ≠ 0 ∧ ¬ s.faultCounter < 10) ∨ inp.pa0 = false ∨
        s.shutdownAtTest inp = true := by
  obtain ⟨bal, hwrites⟩ := s.writes_iterate inp
  have hbal : (SYS_CTRL1, SYS_CTRL1_SHUT_B) ≠ (CELLBAL1, bal) := by
    intro h
    exact absurd (congrArg Prod.fst h) (show SYS_CTRL1 ≠ CELLBAL1 by decide)
  rw [hwrites, writes_checkFaults]
  by_cases htest : !inp.pa0 || s.shutdownAtTest inp
  · have hright : inp.pa0 = false ∨ s.shutdownAtTest inp = true := by simpa using htest
    rw [if_pos htest]
    exact iff_of_true (List.suffix_append (_ :: _) _).isInfix (Or.inr hright)
  · have hright : ¬ (inp.pa0 = false ∨ s.shutdownAtTest inp = true) := by simpa using htest
    rw [if_neg htest, List.append_nil, or_iff_left hright]
    by_cases hstat : inp.sysStat ≠ 0
    · rw [if_pos hstat]
      by_cases hcount : s.faultCounter < 10
      · -- Clearing and enabling writes other registers.
        rw [if_pos hcount]
        refine iff_of_false ?_ fun h => h.2 hcount
        refine not_shutsDown ?_
        rw [List.mem_cons, not_or]
        exact ⟨hbal, by decide⟩
      · rw [if_neg hcount]
        exact iff_of_true (List.suffix_cons _ _).isInfix ⟨hstat, hcount⟩
    · rw [if_neg hstat]
      refine iff_of_false (not_shutsDown ?_) fun h => hstat h.1
      rw [List.mem_singleton]
      exact hbal

/-- The fault counter after an iteration: one more on a fault, up to ten. -/
theorem iterate_faultCounter {s : Bms} (h : s.faultCounter.toNat ≤ 10) (inp : Inputs) :
    (s.iterate inp).1.faultCounter.toNat
      = min 10 (s.faultCounter.toNat + if inp.sysStat ≠ 0 then 1 else 0) := by
  show (checkFaults s.faultCounter inp.sysStat).1.toNat = _
  rw [checkFaults]
  by_cases hstat : inp.sysStat ≠ 0
  · rw [if_pos hstat, if_pos hstat]
    by_cases hcount : s.faultCounter < 10
    · have hlt : s.faultCounter.toNat < 10 := UInt8.lt_iff_toNat_lt.mp hcount
      have hone : (1 : UInt8).toNat = 1 := rfl
      rw [if_pos hcount]
      show (s.faultCounter + 1).toNat = _
      rw [UInt8.toNat_add, hone]
      omega
    · have hge : ¬ s.faultCounter.toNat < 10 := fun hlt => hcount (UInt8.lt_iff_toNat_lt.mpr hlt)
      rw [if_neg hcount]
      show s.faultCounter.toNat = _
      omega
  · rw [if_neg hstat, if_neg hstat]
    show s.faultCounter.toNat = _
    omega

/-- The flag after an iteration. -/
theorem iterate_shutdown (s : Bms) (inp : Inputs) :
    (s.iterate inp).1.shutdown = (inp.rxBefore ++ inp.rxAfter).foldl usart2Isr s.shutdown := by
  rw [List.foldl_append]
  rfl

end Bms

/-! ### Runs -/

section Runs

variable (b : BootInputs) (env : Nat → Inputs)

/-- The variables before iteration `n` of a loop that starts from `s₀`. -/
def loopAt (s₀ : Bms) (n : Nat) : Bms :=
  stateAt (fun s inp => (s.iterate inp).1) s₀ env n

/-- The register writes of iteration `n`. -/
def writesAt (s₀ : Bms) (n : Nat) : List (UInt8 × UInt8) :=
  writes ((loopAt env s₀ n).iterate (env n)).2

/-- Iteration `n` finds a fault. -/
def Faulty (n : Nat) : Prop := (env n).sysStat ≠ 0

instance : DecidablePred (Faulty env) :=
  fun n => inferInstanceAs (Decidable ((env n).sysStat ≠ 0))

/-- The bytes that USART2 received before iteration `n`. -/
def receivedBefore : Nat → List UInt8
  | 0 => b.rx
  | n + 1 => receivedBefore n ++ (env n).rxBefore ++ (env n).rxAfter

/-- The variables behind a start that succeeds. -/
theorem startUp_eq_some {s₀ : Bms} (h : (startUp b).1 = some s₀) :
    s₀.faultCounter = 0 ∧ s₀.shutdown = b.rx.foldl usart2Isr false := by
  rw [startUp] at h
  split at h
  · cases h
  · cases h
    exact ⟨rfl, rfl⟩

/-- The fault counter counts the iterations with a fault, up to ten. -/
theorem faultCounter_loopAt {s₀ : Bms} (h₀ : s₀.faultCounter = 0) (n : Nat) :
    (loopAt env s₀ n).faultCounter.toNat = min 10 (Nat.count (Faulty env) n) := by
  induction n with
  | zero =>
    show s₀.faultCounter.toNat = _
    rw [h₀]
    rfl
  | succ n ih =>
    show ((loopAt env s₀ n).iterate (env n)).1.faultCounter.toNat = _
    rw [Bms.iterate_faultCounter (by omega), ih, Nat.count_succ]
    show min 10 (min 10 (Nat.count (Faulty env) n) + if Faulty env n then 1 else 0) = _
    omega

/-- The flag says whether a byte requested a shutdown. -/
theorem shutdown_loopAt {s₀ : Bms} (h₀ : s₀.shutdown = b.rx.foldl usart2Isr false) (n : Nat) :
    (loopAt env s₀ n).shutdown = (receivedBefore b env n).foldl usart2Isr false := by
  induction n with
  | zero => exact h₀
  | succ n ih =>
    show ((loopAt env s₀ n).iterate (env n)).1.shutdown = _
    rw [Bms.iterate_shutdown, ih, receivedBefore, List.append_assoc,
      List.foldl_append (l := receivedBefore b env n)]

/-- Lock-out and shutdown. After a start that succeeds, in every iteration:

- the fault counter is at most 10;
- the iteration enables the outputs exactly when it finds a fault and fewer than ten
  iterations before it did;
- it shuts the chip down exactly when it finds a fault and ten iterations before it did,
  or PA0 is low, or a byte that requests it came before the test. -/
theorem lockout {s₀ : Bms} (h : (startUp b).1 = some s₀) (n : Nat) :
    (loopAt env s₀ n).faultCounter.toNat ≤ 10 ∧
    (ENABLE_WRITE ∈ writesAt env s₀ n ↔ Faulty env n ∧ Nat.count (Faulty env) n < 10) ∧
    (SHUTDOWN_WRITES <:+: writesAt env s₀ n ↔
      (Faulty env n ∧ 10 ≤ Nat.count (Faulty env) n) ∨ (env n).pa0 = false ∨
        SHUTDOWN_BYTE ∈ receivedBefore b env n ++ (env n).rxBefore) := by
  obtain ⟨hcounter, hflag⟩ := startUp_eq_some b h
  have hcount := faultCounter_loopAt env hcounter n
  have hlt : (loopAt env s₀ n).faultCounter < 10 ↔ Nat.count (Faulty env) n < 10 := by
    have hten : (10 : UInt8).toNat = 10 := rfl
    rw [UInt8.lt_iff_toNat_lt, hcount, hten]
    omega
  have htest : (loopAt env s₀ n).shutdownAtTest (env n) = true ↔
      SHUTDOWN_BYTE ∈ receivedBefore b env n ++ (env n).rxBefore := by
    rw [Bms.shutdownAtTest, shutdown_loopAt b env hflag, ← List.foldl_append, foldl_usart2Isr]
    simp
  refine ⟨by omega, ?_, ?_⟩
  · rw [writesAt, Bms.enables_iterate_iff, hlt]
    rfl
  · rw [writesAt, Bms.shutsDown_iterate_iff, hlt, htest, Nat.not_lt]
    rfl

/-- A chip that always reports an over-voltage, with the button up and no byte received:
the tenth iteration enables the outputs, the eleventh shuts the chip down. -/
theorem lockout_overVoltage :
    ∃ s₀, ENABLE_WRITE ∈ writesAt (fun _ => ⟨fun _ _ => 4, true, [], []⟩) s₀ 9 ∧
      SHUTDOWN_WRITES <:+: writesAt (fun _ => ⟨fun _ _ => 4, true, [], []⟩) s₀ 10 := by
  obtain ⟨s₀, hs₀⟩ := Option.isSome_iff_exists.mp
    (show (startUp ⟨0x19, fun _ _ => 0, []⟩).1.isSome = true by decide)
  refine ⟨s₀, ?_, ?_⟩
  · exact ((lockout _ _ hs₀ 9).2.1).mpr ⟨by decide, by decide⟩
  · exact ((lockout _ _ hs₀ 10).2.2).mpr (Or.inl ⟨by decide, by decide⟩)

end Runs

end UpsFirmware.Stm32
