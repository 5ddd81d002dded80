import Mathlib.Algebra.GroupWithZero.Nat
import Mathlib.Data.List.Basic

/-!
# `UpsFirmware.Lib.Runs`: runs of step functions

Two kinds of runs appear in a firmware, and this file has one recursion and one
set of rules for each.

* An endless loop reads fresh inputs on every pass. `stateAt step s₀ input n` is
  the state before pass `n`. `stateAt_invariant` is the induction rule,
  `stateAt_map` moves a run along a projection that commutes with the step, and
  `stateAt_add` restarts a run in the middle.
* A handler consumes a finite list of inputs, may fault, and reports what it
  emits. `runLog step s is` is the whole run: `none` after a fault, otherwise
  the last state and everything emitted, in order. `runLog_append` cuts a run,
  `runLog_cons_eq_some` peels off its first step, `runLog_invariant` is the
  induction rule, `runLog_history` the rule for a property of the state and
  everything emitted so far, `runLog_measure` bounds the number of steps by a
  measure of the state, and `runLog_flatMap` says that grouping the inputs into
  batches changes nothing.

The results hold for every state, input and output type.
-/

set_option autoImplicit false

namespace UpsFirmware.Lib

/-! ### Endless loops -/

section Endless

variable {σ ι τ κ : Type}

/-- The state before pass `n` of an endless loop: `s₀` before pass `0`, and one
`step` on `input n` between pass `n` and pass `n + 1`. -/
def stateAt (step : σ → ι → σ) (s₀ : σ) (input : Nat → ι) : Nat → σ
  | 0 => s₀
  | n + 1 => step (stateAt step s₀ input n) (input n)

@[simp] theorem stateAt_zero (step : σ → ι → σ) (s₀ : σ) (input : Nat → ι) :
    stateAt step s₀ input 0 = s₀ := rfl

theorem stateAt_succ (step : σ → ι → σ) (s₀ : σ) (input : Nat → ι) (n : Nat) :
    stateAt step s₀ input (n + 1) = step (stateAt step s₀ input n) (input n) := rfl

/-- A property of the first state that every step keeps holds before every
pass. -/
theorem stateAt_invariant {step : σ → ι → σ} {s₀ : σ} (input : Nat → ι) (I : σ → Prop)
    (h₀ : I s₀) (hstep : ∀ s i, I s → I (step s i)) (n : Nat) :
    I (stateAt step s₀ input n) := by
  induction n with
  | zero => exact h₀
  | succ n ih => exact hstep _ _ ih

/-- A projection `f` of the state that runs by itself. When `f` turns a `step`
into a `step'`, it turns the whole run into a run of `step'`. -/
theorem stateAt_map {step : σ → ι → σ} {step' : τ → κ → τ} (f : σ → τ) (g : ι → κ)
    (hstep : ∀ s i, f (step s i) = step' (f s) (g i)) (s₀ : σ) (input : Nat → ι) (n : Nat) :
    f (stateAt step s₀ input n) = stateAt step' (f s₀) (fun k => g (input k)) n := by
  induction n with
  | zero => rfl
  | succ n ih => rw [stateAt_succ, stateAt_succ, hstep, ih]

/-- The run after pass `m` is a run from the state reached there, on the inputs
that are left. -/
theorem stateAt_add (step : σ → ι → σ) (s₀ : σ) (input : Nat → ι) (m n : Nat) :
    stateAt step s₀ input (m + n)
      = stateAt step (stateAt step s₀ input m) (fun k => input (m + k)) n := by
  induction n with
  | zero => rfl
  | succ n ih =>
    rw [← Nat.add_assoc, stateAt_succ, stateAt_succ, ih]

end Endless

/-! ### Handlers that may fault -/

section Logged

variable {σ ι κ ο : Type}

/-- The run of a faulting, reporting step over a list of inputs. It is `none` as
soon as one step is `none`. Otherwise it is the last state and the
concatenation of the reports. -/
def runLog (step : σ → ι → Option (σ × List ο)) : σ → List ι → Option (σ × List ο)
  | s, [] => some (s, [])
  | s, i :: is =>
      (step s i).bind fun r => (runLog step r.1 is).map fun r' => (r'.1, r.2 ++ r'.2)

variable (step : σ → ι → Option (σ × List ο))

@[simp] theorem runLog_nil (s : σ) : runLog step s [] = some (s, []) := rfl

theorem runLog_cons (s : σ) (i : ι) (is : List ι) :
    runLog step s (i :: is)
      = (step s i).bind fun r => (runLog step r.1 is).map fun r' => (r'.1, r.2 ++ r'.2) := rfl

/-- A first step that succeeds is peeled off the run. -/
theorem runLog_cons_of_some {s s' : σ} {i : ι} {out : List ο} (is : List ι)
    (h : step s i = some (s', out)) :
    runLog step s (i :: is) = (runLog step s' is).map fun r => (r.1, out ++ r.2) := by
  rw [runLog_cons, h]
  rfl

/-- A run that succeeds has a first step, and a run from there. -/
theorem runLog_cons_eq_some {s : σ} {i : ι} {is : List ι} {r : σ × List ο}
    (h : runLog step s (i :: is) = some r) :
    ∃ r₁ r₂, step s i = some r₁ ∧ runLog step r₁.1 is = some r₂ ∧
      r = (r₂.1, r₁.2 ++ r₂.2) := by
  rw [runLog_cons, Option.bind_eq_some_iff] at h
  obtain ⟨r₁, hfirst, hrest⟩ := h
  obtain ⟨r₂, hrun, heq⟩ := Option.map_eq_some_iff.mp hrest
  exact ⟨r₁, r₂, hfirst, hrun, heq.symm⟩

@[simp] theorem runLog_singleton (s : σ) (i : ι) : runLog step s [i] = step s i := by
  rw [runLog_cons]
  cases step s i with
  | none => rfl
  | some r => simp

/-- A run over `is ++ js` is the run over `is` followed by the run over `js`. -/
theorem runLog_append (s : σ) (is js : List ι) :
    runLog step s (is ++ js)
      = (runLog step s is).bind fun r =>
          (runLog step r.1 js).map fun r' => (r'.1, r.2 ++ r'.2) := by
  induction is generalizing s with
  | nil => simp
  | cons i is ih =>
    rw [List.cons_append, runLog_cons, runLog_cons]
    cases step s i with
    | none => rfl
    | some r =>
      simp only [Option.bind_some]
      rw [ih]
      cases runLog step r.1 is with
      | none => rfl
      | some r' =>
        -- What is left is the reports, bracketed differently.
        simp [Function.comp_def, List.append_assoc]

/-- The second half of a run whose first half succeeds. -/
theorem runLog_append_of_some {s s' : σ} {is : List ι} {out : List ο} (js : List ι)
    (h : runLog step s is = some (s', out)) :
    runLog step s (is ++ js) = (runLog step s' js).map fun r => (r.1, out ++ r.2) := by
  rw [runLog_append, h]
  rfl

/-- A run that succeeds on `is ++ js` succeeds on `is`. -/
theorem runLog_of_append {s : σ} {is js : List ι} {r : σ × List ο}
    (h : runLog step s (is ++ js) = some r) :
    ∃ r₁, runLog step s is = some r₁ := by
  rw [runLog_append] at h
  cases hrun : runLog step s is with
  | none => rw [hrun] at h; simp at h
  | some r₁ => exact ⟨r₁, rfl⟩

/-- A run that succeeds does the front of it on the way, and the reports of the front come
first. -/
theorem runLog_of_isPrefix {s s' : σ} {is js : List ι} {out : List ο}
    (h : runLog step s is = some (s', out)) (hjs : js <+: is) :
    ∃ s₁ out₁, runLog step s js = some (s₁, out₁) ∧ out₁ <+: out ∧ (js = is → out₁ = out) := by
  obtain ⟨rest, rfl⟩ := hjs
  obtain ⟨⟨s₁, out₁⟩, hfront⟩ := runLog_of_append step h
  rw [runLog_append_of_some step rest hfront] at h
  obtain ⟨⟨s₂, out₂⟩, hrest, heq⟩ := Option.map_eq_some_iff.mp h
  rw [Prod.mk.injEq] at heq
  refine ⟨s₁, out₁, hfront, ⟨out₂, heq.2⟩, fun hall => ?_⟩
  rw [List.self_eq_append_right.mp hall] at hrest
  cases hrest
  rw [← heq.2, List.append_nil]

/-- A property of the first state that every successful step keeps holds after
every successful run. -/
theorem runLog_invariant {I : σ → Prop}
    (hstep : ∀ s i s' out, I s → step s i = some (s', out) → I s')
    (s : σ) (is : List ι) {s' : σ} {out : List ο} (h₀ : I s)
    (h : runLog step s is = some (s', out)) : I s' := by
  induction is generalizing s out with
  | nil =>
    simp only [runLog_nil, Option.some.injEq, Prod.mk.injEq] at h
    rw [← h.1]
    exact h₀
  | cons i is ih =>
    obtain ⟨r₁, r₂, hfirst, hrun, heq⟩ := runLog_cons_eq_some step h
    cases heq
    -- `r₁.1` is the state after the first step, where the invariant holds again.
    exact ih r₁.1 (hstep s i r₁.1 r₁.2 h₀ hfirst) hrun

/-- A property of the state and the history that the first state has with the empty
history, and that every successful step keeps, holds after every successful run. -/
theorem runLog_history {J : σ → List ο → Prop}
    (hstep : ∀ s log i s' out, J s log → step s i = some (s', out) → J s' (log ++ out))
    {s s' : σ} {is : List ι} {out : List ο} (h₀ : J s [])
    (h : runLog step s is = some (s', out)) : J s' out := by
  have key : ∀ (is : List ι) (s : σ) (log out : List ο), J s log →
      runLog step s is = some (s', out) → J s' (log ++ out) := by
    intro is
    induction is with
    | nil =>
      intro s log out hlog hrun
      cases hrun
      rw [List.append_nil]
      exact hlog
    | cons i is ih =>
      intro s log out hlog hrun
      obtain ⟨⟨s₁, out₁⟩, ⟨s₂, out₂⟩, hfirst, hlast, heq⟩ := runLog_cons_eq_some step hrun
      cases heq
      -- The first step extends the history, and the rest starts from there.
      rw [← List.append_assoc]
      exact ih s₁ (log ++ out₁) out₂ (hstep s log i s₁ out₁ hlog hfirst) hlast
  exact key is s [] out h₀ h

/-- The same, when only the steps for the inputs of the run keep the property. -/
theorem runLog_history_of_forall {P : ι → Prop} {J : σ → List ο → Prop}
    (hstep : ∀ s log i s' out, P i → J s log → step s i = some (s', out) → J s' (log ++ out))
    {s s' : σ} {is : List ι} {log out : List ο} (hP : ∀ i ∈ is, P i) (h₀ : J s log)
    (h : runLog step s is = some (s', out)) : J s' (log ++ out) := by
  induction is generalizing s log out with
  | nil =>
    cases h
    rw [List.append_nil]
    exact h₀
  | cons i is ih =>
    obtain ⟨⟨s₁, out₁⟩, ⟨s₂, out₂⟩, hfirst, hlast, heq⟩ := runLog_cons_eq_some step h
    cases heq
    rw [← List.append_assoc]
    exact ih (fun j hj => hP j (List.mem_cons_of_mem i hj))
      (hstep s log i s₁ out₁ (hP i List.mem_cons_self) h₀ hfirst) hlast

/-- A measure bounds the runs. When every step with a cost uses up one of it, and a step
adds at most its gain, a run has at most as many costly steps as there was at the start and
was added. -/
theorem runLog_measure {P : ι → Prop} {J : σ → List ο → Prop} (measure : σ → Nat)
    (cost : ι → Bool) (gain : ι → Nat)
    (hinv : ∀ s log i s' out, P i → J s log → step s i = some (s', out) → J s' (log ++ out))
    (hstep : ∀ s log i s' out, P i → J s log → step s i = some (s', out) →
      measure s' + (cost i).toNat ≤ measure s + gain i)
    {s s' : σ} {is : List ι} {log out : List ο} (hP : ∀ i ∈ is, P i) (h₀ : J s log)
    (h : runLog step s is = some (s', out)) :
    measure s' + is.countP cost ≤ measure s + (is.map gain).sum := by
  induction is generalizing s log out with
  | nil =>
    cases h
    exact Nat.le_refl _
  | cons i is ih =>
    obtain ⟨⟨s₁, out₁⟩, ⟨s₂, out₂⟩, hfirst, hlast, heq⟩ := runLog_cons_eq_some step h
    cases heq
    have hi : P i := hP i List.mem_cons_self
    have hone := hstep s log i s₁ out₁ hi h₀ hfirst
    have hrest := ih (fun j hj => hP j (List.mem_cons_of_mem i hj))
      (hinv s log i s₁ out₁ hi h₀ hfirst) hlast
    have hcount : (i :: is).countP cost = is.countP cost + (cost i).toNat := by
      rw [List.countP_cons]
      cases cost i with
      | true => rfl
      | false => rfl
    rw [hcount, List.map_cons, List.sum_cons]
    omega

/-- Every input of a successful run has its step, and the run reports what the step
reports. -/
theorem runLog_step_of_mem {s : σ} {is : List ι} {r : σ × List ο}
    (h : runLog step s is = some r) {i : ι} (hi : i ∈ is) :
    ∃ s₁ r₁, step s₁ i = some r₁ ∧ ∀ o ∈ r₁.2, o ∈ r.2 := by
  induction is generalizing s r with
  | nil => cases hi
  | cons j is ih =>
    obtain ⟨r₁, r₂, hfirst, hrun, rfl⟩ := runLog_cons_eq_some step h
    rcases List.mem_cons.mp hi with rfl | hi
    · exact ⟨s, r₁, hfirst, fun o ho => List.mem_append_left _ ho⟩
    · obtain ⟨s₁, r', hstep, hreports⟩ := ih hrun hi
      exact ⟨s₁, r', hstep, fun o ho => List.mem_append_right _ (hreports o ho)⟩

/-- Everything a run reports was reported by one of its steps. -/
theorem runLog_mem_of_report {s : σ} {is : List ι} {r : σ × List ο}
    (h : runLog step s is = some r) {o : ο} (ho : o ∈ r.2) :
    ∃ i ∈ is, ∃ s₁ r₁, step s₁ i = some r₁ ∧ o ∈ r₁.2 := by
  induction is generalizing s r with
  | nil =>
    cases h
    cases ho
  | cons j is ih =>
    obtain ⟨r₁, r₂, hfirst, hrun, rfl⟩ := runLog_cons_eq_some step h
    rcases List.mem_append.mp ho with ho | ho
    · exact ⟨j, List.mem_cons_self, s, r₁, hfirst, ho⟩
    · obtain ⟨i, hi, hstep⟩ := ih hrun ho
      exact ⟨i, List.mem_cons_of_mem j hi, hstep⟩

/-- Batches do not matter. When one step of `big` on a batch is a run over the
inputs of the batch, a run of `big` over batches is a run over all the
inputs. -/
theorem runLog_flatMap (big : σ → κ → Option (σ × List ο)) (inputs : κ → List ι)
    (hbig : ∀ s b, big s b = runLog step s (inputs b)) (s : σ) (bs : List κ) :
    runLog big s bs = runLog step s (bs.flatMap inputs) := by
  induction bs generalizing s with
  | nil => rfl
  | cons b bs ih =>
    -- A batch is the run over its inputs, so the two sides split at the same place.
    rw [List.flatMap_cons, runLog_append, runLog_cons, hbig]
    cases runLog step s (inputs b) with
    | none => rfl
    | some r => simp only [Option.bind_some, ih]

/-- Reading the reports through `f`, which respects concatenation, step by step or at the
end. -/
theorem runLog_map_reports {ο' : Type} {f : List ο → List ο'} (hnil : f [] = [])
    (happend : ∀ out out', f (out ++ out') = f out ++ f out') (s : σ) (is : List ι) :
    runLog (fun s i => (step s i).map fun r => (r.1, f r.2)) s is
      = (runLog step s is).map fun r => (r.1, f r.2) := by
  induction is generalizing s with
  | nil => simp [hnil]
  | cons i is ih =>
    rw [runLog_cons, runLog_cons]
    cases step s i with
    | none => rfl
    | some r =>
      simp only [Option.map_some, Option.bind_some]
      rw [ih]
      cases runLog step r.1 is with
      | none => rfl
      | some r' => simp [happend]

end Logged

end UpsFirmware.Lib
