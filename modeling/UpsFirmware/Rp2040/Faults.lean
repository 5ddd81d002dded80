import UpsFirmware.Rp2040.Modes

/-!
# `UpsFirmware.Rp2040.Faults`: how long a fault disables the power stage

The ERROR branch clears the fault counter and the code in the iteration that
trips, and sets the mode back to NONE. So a trip lasts for one iteration. The
next 33 iterations find at most 99 counted inputs and run a charging or
discharging mode again, with the fault still there
(`trip_lasts_one_iteration`). A fault that stays is counted again, and
`fault_detected` bounds the time to the next trip. It holds at every phase of the
window that zeroes the counter, and after every earlier trip.
-/

set_option autoImplicit false

namespace UpsFirmware

section Runs

variable (b : BootInputs) (env : Nat → Inputs)

theorem settled_loopAt (n : Nat) : (loopAt b env n).hwErrors.Settled := by
  rw [hwErrors_loopAt]
  exact HwErrors.settled_before _ _ HwErrors.settled_new n

/-- `check` in a run, seen from an earlier iteration. -/
theorem errorsAt_add (n k : Nat) :
    errorsAt b env (n + k)
      = (((loopAt b env n).hwErrors.before (fun k => (env (n + k)).faults) k).check
          (env (n + k)).faults).1.errorCode := by
  rw [errorsAt_eq, hwErrors_loopAt, HwErrors.before, Lib.stateAt_add]
  rfl

/-- `check` is zero in the 33 iterations after a trip, whatever the inputs read. -/
theorem errorsAt_after_trip {n : Nat} (h : errorsAt b env n ≠ 0) {k : Nat} (hk : k < 33) :
    errorsAt b env (n + 1 + k) = 0 := by
  -- The trip cleared the count, so the passes behind it start from zero.
  rw [errorsAt_add]
  exact HwErrors.run_quiet _ _ (settled_loopAt b env (n + 1)) (hwErrors_of_trip b env h).1 hk

/-- A frame tells whether the iteration before it tripped. -/
theorem frame_state_iff {n : Nat} {msg : Msg} (h : FrameSent b env (n + 1) msg) :
    msg.state = MSG_STATE_ERROR ↔ errorsAt b env n ≠ 0 := by
  obtain ⟨-, rfl⟩ := (frameSent_iff b env (n + 1) msg).mp h
  show (loopAt b env (n + 1)).msgOut.state = MSG_STATE_ERROR ↔ _
  rw [report_loopAt, ← modeAt_error_iff]
  show (modeAt b env n).code = MSG_STATE_ERROR ↔ _
  -- The three codes differ.
  cases modeAt b env n with
  | buck => decide
  | boost => decide
  | error => decide

/-- A latched fault: from an iteration that trips to the first one after it with no
input asserted, the power stage stays disabled, and the frames after the trip
carry ERROR. -/
def FaultLatched : Prop :=
  ∀ n, errorsAt b env n ≠ 0 →
    ∀ m, n ≤ m → (∀ k, n < k → k ≤ m → 1 ≤ (env k).faults.asserted) →
      (outputsAt b env (m + 1)).pwmEn = false ∧
      (n < m → ∀ msg, FrameSent b env m msg → msg.state = MSG_STATE_ERROR)

/-- A bench on which the three fault inputs stay asserted. -/
def faultyBench (n : Nat) : Inputs := { benchInputs n with faults := ⟨true, true, true⟩ }

/-- Iteration 33 takes the count from 99 over 100. -/
theorem errorsAt_faultyBench : errorsAt benchBoot faultyBench 33 ≠ 0 := by
  rw [errorsAt_eq]
  decide +kernel

/-- On that bench iteration 33 trips, and iteration 34 enables the power stage with
the three inputs still asserted. -/
theorem faultLatched_fails : ¬ ∀ b env, FaultLatched b env := by
  intro hall
  have hlatched := hall benchBoot faultyBench 33 errorsAt_faultyBench 34 (by decide)
    (fun _ _ _ => Nat.le_add_left 1 2)
  have hzero := errorsAt_after_trip benchBoot faultyBench errorsAt_faultyBench
    (k := 0) (by decide)
  -- The law wants the power stage low after iteration 34, and it is high.
  have hpwm := pwmEn_after benchBoot faultyBench 34
  rw [decide_eq_true hzero, hlatched.1] at hpwm
  cases hpwm

/-- A trip lasts for one iteration. The power stage is disabled at its end, and a
frame in the next iteration carries ERROR. In the 33 iterations that follow,
whatever the fault inputs read, `check` is zero and the power stage is enabled
again. A frame sent one iteration after one of these does not carry ERROR. -/
theorem trip_lasts_one_iteration (n : Nat) (h : errorsAt b env n ≠ 0) :
    (outputsAt b env (n + 1)).pwmEn = false ∧
    (∀ msg, FrameSent b env (n + 1) msg → msg.state = MSG_STATE_ERROR) ∧
    ∀ k < 33, errorsAt b env (n + 1 + k) = 0 ∧
      (outputsAt b env (n + 1 + k + 1)).pwmEn = true ∧
      ∀ msg, FrameSent b env (n + 1 + k + 1) msg → msg.state ≠ MSG_STATE_ERROR := by
  refine ⟨?_, ?_, ?_⟩
  · show (outputsAt b env (n + 1)).pwmEn = false
    rw [pwmEn_after, decide_eq_false h]
  · intro msg hmsg
    exact (frame_state_iff b env hmsg).mpr h
  · intro k hk
    have hzero := errorsAt_after_trip b env h hk
    refine ⟨hzero, ?_, ?_⟩
    · show (outputsAt b env (n + 1 + k + 1)).pwmEn = true
      rw [pwmEn_after, decide_eq_true hzero]
    · intro msg hmsg herror
      exact (frame_state_iff b env hmsg).mp herror hzero

/-- `trip_lasts_one_iteration` on the faulty bench, which trips in iteration 33. -/
theorem trip_lasts_one_iteration_faultyBench :
    (outputsAt benchBoot faultyBench 34).pwmEn = false ∧
      ∀ k < 33, (outputsAt benchBoot faultyBench (33 + 1 + k + 1)).pwmEn = true := by
  obtain ⟨hlow, -, hhigh⟩ :=
    trip_lasts_one_iteration benchBoot faultyBench 33 errorsAt_faultyBench
  exact ⟨hlow, fun k hk => (hhigh k hk).2.1⟩

/-- A fault that stays is detected. Among 201 iterations in a row, each with a fault
input asserted, one has a `check` that is not zero, and ends with the power stage
disabled. -/
theorem fault_detected (n : Nat) (h : ∀ k < 201, 1 ≤ (env (n + k)).faults.asserted) :
    ∃ k < 201, errorsAt b env (n + k) ≠ 0 ∧ (outputsAt b env (n + k + 1)).pwmEn = false := by
  obtain ⟨k, hk, hne⟩ := HwErrors.run_trips (loopAt b env n).hwErrors
    (fun k => (env (n + k)).faults) (settled_loopAt b env n) h
  rw [← errorsAt_add] at hne
  refine ⟨k, hk, hne, ?_⟩
  show (outputsAt b env (n + k + 1)).pwmEn = false
  rw [pwmEn_after, decide_eq_false hne]

/-- `fault_detected` for a load overcurrent from iteration 950 on. The window ends in
the middle of it. -/
theorem fault_detected_late :
    ∃ k < 201,
      errorsAt benchBoot
          (fun i => { benchInputs i with faults := ⟨decide (950 ≤ i), false, false⟩ })
          (950 + k) ≠ 0 ∧
      (outputsAt benchBoot
          (fun i => { benchInputs i with faults := ⟨decide (950 ≤ i), false, false⟩ })
          (950 + k + 1)).pwmEn = false :=
  fault_detected benchBoot _ 950 fun k _ => by
    simp [FaultPins.asserted]

end Runs

end UpsFirmware
