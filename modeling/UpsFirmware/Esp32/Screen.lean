import Mathlib.Algebra.Order.Group.Nat
import Mathlib.Data.Nat.Count
import UpsFirmware.Esp32.PowerButton

/-!
# `UpsFirmware.Esp32.Screen`: the screen thread and the button

The screen thread (`esp32-app/src/screen.c`) shows one of two pages and switches between
them when the button is pressed. It learns of a press through `pb_re`, which the main loop
sets and the screen thread looks at twice in a pass and then clears. The main loop has the
higher priority, so a whole pass of it may come between any two of these accesses.

`Screen.step` is one turn of the screen thread, from one access to the next, and `Turn` a
turn of either thread. A run is any sequence of turns.

`switches_count` is about every such sequence. A press is noticed if the flag is not
still set by an earlier one, and if it does not come between the first look at the flag
and its clearing. Every noticed press switches the page once, and nothing else does.
`redraws` says when a page is drawn, and which one.
-/

set_option autoImplicit false

namespace UpsFirmware.Esp32

open Lib

/-! ### The screen thread -/

def DELAY_LOOPS : Int := 10

/-- `enum screen_state`. -/
inductive ScreenState where
  | intro
  | err
  | vbat
  | vout
deriving DecidableEq

/-- `inc_state`. -/
def incState : ScreenState → ScreenState
  | .vbat => .vout
  | .vout => .vbat
  | state => state

/-- Where the screen thread is: in front of the intro, of `k_msgq_get`, of its two looks
at `pb_re`, or of `pb_re = false`. -/
inductive Pc where
  | intro
  | get
  | first
  | second
  | clear
deriving DecidableEq

/-- What the screen thread draws. -/
inductive Page where
  | intro
  | error
  | vbat (msg : Msg)
  | vout (msg : Msg)
deriving DecidableEq

/-- The message on a page. -/
def Page.msg : Page → Option Msg
  | .vbat msg => some msg
  | .vout msg => some msg
  | _ => none

/-- The locals of `screen_thread`. `msg` is `none` when `ret` is not zero. -/
structure Screen where
  pc : Pc
  state : ScreenState
  delayLoops : Int
  msg : Option Msg

/-- `screen_thread` before its first access. -/
def Screen.start : Screen := ⟨.intro, .intro, DELAY_LOOPS, none⟩

/-- The message that the screen thread has taken and may still show. -/
def Screen.held (s : Screen) : List Msg :=
  match s.pc with
  | .intro => []
  | .get => []
  | _ => s.msg.toList

/-- What is drawn in the body of the second `if`. -/
def Screen.page (s : Screen) : List Page :=
  match s.msg with
  | none => [.error]
  | some msg =>
    match s.state with
    | .vbat => [.vbat msg]
    | .vout => [.vout msg]
    | _ => []

/-- A turn of the screen thread: its locals, `pb_re`, and what it draws. `got` is what
`k_msgq_get` returns if this is its turn. -/
def Screen.step (s : Screen) (pbRe : Bool) (got : Option Msg) : Screen × Bool × List Page :=
  match s.pc with
  | .intro => ({ s with pc := .get, state := .vbat }, pbRe, [.intro])
  | .get => ({ s with pc := .first, msg := got }, pbRe, [])
  | .first =>
    ({ s with pc := .second, state := if pbRe then incState s.state else s.state }, pbRe, [])
  | .second =>
    -- `delay_loops--` gives the old value. `||` looks at `pb_re` only if that is not zero.
    ({ s with
        pc := if s.delayLoops = 0 ∨ pbRe = true then .clear else .get
        delayLoops := s.delayLoops - 1 }, pbRe, [])
  | .clear => ({ s with pc := .get, delayLoops := DELAY_LOOPS }, false, s.page)

/-! ### Both threads -/

/-- A turn of one of the threads. -/
inductive Turn where
  | main (p : Pass)
  | screen (got : Option Msg)

/-- The main loop, the screen thread and the flag between them. -/
structure Front where
  main : MainLoop
  screen : Screen
  pbRe : Bool

namespace Front

/-- A turn, and what it draws. -/
def step (s : Front) : Turn → Front × List Page
  | .main p =>
    let r := s.main.iterate p
    ({ s with main := r.1, pbRe := s.pbRe || decide (MainEffect.setPbRe ∈ r.2) }, [])
  | .screen got =>
    let r := s.screen.step s.pbRe got
    ({ s with screen := r.1, pbRe := r.2.1 }, r.2.2)

/-- Both threads at their start, where `pb` is the first reading of the button. -/
def start (pb : Int) : Front := ⟨MainLoop.start pb, Screen.start, false⟩

end Front

/-- A turn of the screen thread. -/
def Turn.isScreen : Turn → Bool
  | .main _ => false
  | .screen _ => true

/-- The screen thread has yet to look at the flag in this pass. -/
def Pc.isOpen : Pc → Bool
  | .second => false
  | .clear => false
  | _ => true

namespace Front

variable (s : Front) (t : Turn)

/-- The main loop sees a press. -/
def presses : Bool :=
  match t with
  | .main p => decide (MainEffect.setPbRe ∈ (s.main.iterate p).2)
  | .screen _ => false

/-- The page is switched. -/
def switches : Bool := t.isScreen && (s.screen.pc = .first && s.pbRe)

/-- A press that is noticed: the flag is not set, and the screen thread has yet to look at
it. -/
def notices : Bool := s.presses t && (!s.pbRe && s.screen.pc.isOpen)

/-- A noticed press that has not switched the page yet. -/
def pending : Bool := s.pbRe && s.screen.pc.isOpen

/-- A turn switches the page for a noticed press, or keeps the press for later. -/
theorem pending_step :
    (s.step t).1.pending.toNat + (s.switches t).toNat
      = s.pending.toNat + (s.notices t).toNat := by
  cases t with
  | main p =>
    -- The screen thread stays where it is.
    show ((s.pbRe || decide (MainEffect.setPbRe ∈ (s.main.iterate p).2)) &&
      s.screen.pc.isOpen).toNat + (false && _).toNat = _
    rw [pending, notices, presses]
    cases s.pbRe with
    | true => simp
    | false => simp [Bool.and_comm]
  | screen got =>
    obtain ⟨main, ⟨pc, state, delayLoops, msg⟩, pbRe⟩ := s
    cases pc with
    | intro => simp [step, Screen.step, switches, notices, presses, pending, Pc.isOpen]
    | get => simp [step, Screen.step, switches, notices, presses, pending, Pc.isOpen]
    | first =>
      simp [step, Screen.step, switches, notices, presses, pending, Pc.isOpen, Turn.isScreen]
    | second =>
      -- The thread goes back to the top only if the flag is not set.
      by_cases hclear : delayLoops = 0 ∨ pbRe = true
      · simp [step, Screen.step, switches, notices, presses, pending, Pc.isOpen, hclear]
      · have hset : pbRe = false := by
          rw [not_or, Bool.not_eq_true] at hclear
          exact hclear.2
        simp [step, Screen.step, switches, notices, presses, pending, Pc.isOpen, hset]
    | clear => simp [step, Screen.step, switches, notices, presses, pending, Pc.isOpen]

/-- A turn shows what the thread holds, or keeps it, or drops it. -/
theorem shown_step (got : Option Msg) :
    ((s.step (.screen got)).2.filterMap Page.msg
        ++ (s.step (.screen got)).1.screen.held).Sublist
      (s.screen.held ++ if s.screen.pc = .get then got.toList else []) := by
  obtain ⟨main, ⟨pc, state, delayLoops, msg⟩, pbRe⟩ := s
  cases pc with
  | intro => exact List.nil_sublist _
  | get => exact List.Sublist.refl _
  | first =>
    show msg.toList.Sublist (msg.toList ++ [])
    rw [List.append_nil]
  | second =>
    show (Screen.held ⟨if delayLoops = 0 ∨ pbRe = true then .clear else .get, _, _, _⟩).Sublist
      (msg.toList ++ [])
    rw [List.append_nil]
    split
    · exact List.Sublist.refl _
    · exact List.nil_sublist _
  | clear =>
    show ((Screen.page ⟨.clear, state, delayLoops, msg⟩).filterMap Page.msg ++ []).Sublist
      (msg.toList ++ [])
    rw [List.append_nil, List.append_nil, Screen.page]
    cases msg with
    | none => exact List.nil_sublist _
    | some msg =>
      cases state with
      | vbat => exact List.Sublist.refl _
      | vout => exact List.Sublist.refl _
      | intro => exact List.nil_sublist _
      | err => exact List.nil_sublist _

end Front

section Runs

variable (pb : Int) (turns : Nat → Turn)

/-- Both threads before turn `n`. -/
def frontAt (n : Nat) : Front := stateAt (fun s t => (s.step t).1) (Front.start pb) turns n

theorem frontAt_succ (n : Nat) :
    frontAt pb turns (n + 1) = ((frontAt pb turns n).step (turns n)).1 := rfl

/-- What turn `n` draws. -/
def drawnAt (n : Nat) : List Page := ((frontAt pb turns n).step (turns n)).2

/-- Turn `n` notices a press. -/
def NoticedAt (n : Nat) : Prop := (frontAt pb turns n).notices (turns n) = true

/-- Turn `n` switches the page. -/
def SwitchedAt (n : Nat) : Prop := (frontAt pb turns n).switches (turns n) = true

instance : DecidablePred (NoticedAt pb turns) :=
  fun n => inferInstanceAs (Decidable ((frontAt pb turns n).notices (turns n) = true))

instance : DecidablePred (SwitchedAt pb turns) :=
  fun n => inferInstanceAs (Decidable ((frontAt pb turns n).switches (turns n) = true))

/-- Every noticed press switches the page once, or is about to. -/
theorem count_switches (n : Nat) :
    Nat.count (SwitchedAt pb turns) n + (frontAt pb turns n).pending.toNat
      = Nat.count (NoticedAt pb turns) n := by
  induction n with
  | zero => rfl
  | succ n ih =>
    have hstep := Front.pending_step (frontAt pb turns n) (turns n)
    have htoNat : ∀ b : Bool, (if b = true then 1 else 0) = b.toNat := by
      intro b
      cases b with
      | true => rfl
      | false => rfl
    rw [Nat.count_succ, Nat.count_succ, frontAt_succ, ← ih]
    show _ + (if (frontAt pb turns n).switches (turns n) = true then 1 else 0) + _
      = _ + (if (frontAt pb turns n).notices (turns n) = true then 1 else 0)
    rw [htoNat, htoNat]
    omega

/-- The page behind a number of switches. -/
def pageAfter (switches : Nat) : ScreenState := if switches % 2 = 0 then .vbat else .vout

/-- The page that is on is a matter of how often it was switched. -/
theorem state_frontAt (n : Nat) :
    (frontAt pb turns n).screen.state
      = if (frontAt pb turns n).screen.pc = .intro then .intro
        else pageAfter (Nat.count (SwitchedAt pb turns) n) := by
  -- Nothing is switched in front of the intro.
  suffices h : ((frontAt pb turns n).screen.pc = .intro →
        (frontAt pb turns n).screen.state = .intro ∧ Nat.count (SwitchedAt pb turns) n = 0) ∧
      ((frontAt pb turns n).screen.pc ≠ .intro →
        (frontAt pb turns n).screen.state = pageAfter (Nat.count (SwitchedAt pb turns) n)) by
    split
    · next hpc => exact (h.1 hpc).1
    · next hpc => exact h.2 hpc
  induction n with
  | zero => exact ⟨fun _ => ⟨rfl, rfl⟩, fun h => absurd rfl h⟩
  | succ n ih =>
    have hcount : Nat.count (SwitchedAt pb turns) (n + 1)
        = Nat.count (SwitchedAt pb turns) n
          + if (frontAt pb turns n).switches (turns n) = true then 1 else 0 := Nat.count_succ _ _
    rw [hcount, frontAt_succ]
    generalize Nat.count (SwitchedAt pb turns) n = switches at ih ⊢
    generalize frontAt pb turns n = s at ih ⊢
    cases turns n with
    | main p => exact ih
    | screen got =>
      obtain ⟨main, ⟨pc, state, delayLoops, msg⟩, pbRe⟩ := s
      cases pc with
      | intro =>
        obtain ⟨-, hzero⟩ := ih.1 rfl
        refine ⟨fun h => (by cases h), fun _ => ?_⟩
        show ScreenState.vbat = pageAfter (switches + 0)
        rw [hzero]
        rfl
      | get => exact ⟨fun h => (by cases h), fun _ => ih.2 (fun h => by cases h)⟩
      | first =>
        have hstate : state = pageAfter switches := ih.2 (fun h => by cases h)
        refine ⟨fun h => (by cases h), fun _ => ?_⟩
        cases pbRe with
        | true =>
          show incState state = pageAfter (switches + 1)
          rw [hstate, pageAfter, pageAfter]
          by_cases heven : switches % 2 = 0
          · rw [if_pos heven, if_neg (by omega)]
            rfl
          · rw [if_neg heven, if_pos (by omega)]
            rfl
        | false => exact hstate
      | second =>
        refine ⟨fun h => ?_, fun _ => ih.2 (fun h => by cases h)⟩
        have hpc : (if delayLoops = 0 ∨ pbRe = true then Pc.clear else Pc.get) = .intro := h
        split at hpc
        · cases hpc
        · cases hpc
      | clear => exact ⟨fun h => (by cases h), fun _ => ih.2 (fun h => by cases h)⟩

/-- The number of passes since a page was drawn, as far as their second look at the
flag. -/
def quietPasses : Nat → Nat
  | 0 => 0
  | n + 1 =>
    if (turns n).isScreen then
      match (frontAt pb turns n).screen.pc with
      | .second => quietPasses n + 1
      | .clear => 0
      | _ => quietPasses n
    else quietPasses n

/-- The countdown counts these passes, and they are at most ten. -/
theorem quietPasses_spec (n : Nat) :
    (frontAt pb turns n).screen.delayLoops = 10 - quietPasses pb turns n ∧
      (quietPasses pb turns n ≤ 10 ∨
        (frontAt pb turns n).screen.pc = .clear ∧ quietPasses pb turns n = 11) := by
  induction n with
  | zero => exact ⟨rfl, Or.inl (Nat.zero_le 10)⟩
  | succ n ih =>
    rw [quietPasses, frontAt_succ]
    generalize quietPasses pb turns n = quiet at ih ⊢
    generalize frontAt pb turns n = s at ih ⊢
    cases turns n with
    | main p => exact ih
    | screen got =>
      obtain ⟨main, ⟨pc, state, delayLoops, msg⟩, pbRe⟩ := s
      obtain ⟨hcount, hquiet⟩ := ih
      rw [if_pos (show (Turn.screen got).isScreen = true from rfl)]
      dsimp only at hcount hquiet
      cases pc with
      | second =>
        have hten : quiet ≤ 10 := hquiet.resolve_right (fun h => by cases h.1)
        refine ⟨?_, ?_⟩
        · show delayLoops - 1 = _
          rw [hcount]
          push_cast
          omega
        · show quiet + 1 ≤ 10 ∨
            (if delayLoops = 0 ∨ pbRe = true then Pc.clear else Pc.get) = .clear ∧ quiet + 1 = 11
          by_cases hzero : delayLoops = 0
          · rw [if_pos (Or.inl hzero)]
            exact Or.inr ⟨rfl, by omega⟩
          · exact Or.inl (by omega)
      | clear => exact ⟨rfl, Or.inl (Nat.zero_le 10)⟩
      | intro => exact ⟨hcount, Or.inl (hquiet.resolve_right (fun h => by cases h.1))⟩
      | get => exact ⟨hcount, Or.inl (hquiet.resolve_right (fun h => by cases h.1))⟩
      | first => exact ⟨hcount, Or.inl (hquiet.resolve_right (fun h => by cases h.1))⟩

/-- What the last `k_msgq_get` returned. -/
def lastGot : Nat → Option Msg
  | 0 => none
  | n + 1 =>
    match turns n with
    | .main _ => lastGot n
    | .screen got => if (frontAt pb turns n).screen.pc = .get then got else lastGot n

theorem msg_frontAt (n : Nat) : (frontAt pb turns n).screen.msg = lastGot pb turns n := by
  induction n with
  | zero => rfl
  | succ n ih =>
    rw [lastGot, frontAt_succ]
    generalize lastGot pb turns n = last at ih ⊢
    generalize frontAt pb turns n = s at ih ⊢
    cases turns n with
    | main p => exact ih
    | screen got =>
      obtain ⟨main, ⟨pc, state, delayLoops, msg⟩, pbRe⟩ := s
      cases pc with
      | get => rfl
      | _ => exact ih

/-- The main loop sees a press in turn `n`. -/
def PressedAt (n : Nat) : Prop := (frontAt pb turns n).presses (turns n) = true

/-- Turn `n` clears the flag. -/
def ClearedAt (n : Nat) : Prop :=
  (turns n).isScreen = true ∧ (frontAt pb turns n).screen.pc = .clear

/-- The flag is set when there was a press after it was last cleared. -/
theorem pbRe_frontAt (n : Nat) :
    (frontAt pb turns n).pbRe = true ↔
      ∃ k < n, PressedAt pb turns k ∧ ∀ j < n, k < j → ¬ClearedAt pb turns j := by
  induction n with
  | zero => exact iff_of_false Bool.false_ne_true (fun ⟨_, hk, _⟩ => Nat.not_lt_zero _ hk)
  | succ n ih =>
    -- The last turn sets the flag, or leaves it as it was unless it clears it.
    have hflag : (frontAt pb turns (n + 1)).pbRe = true ↔
        PressedAt pb turns n ∨ ((frontAt pb turns n).pbRe = true ∧ ¬ClearedAt pb turns n) := by
      rw [frontAt_succ, PressedAt, ClearedAt]
      generalize frontAt pb turns n = s
      cases turns n with
      | main p =>
        show (s.pbRe || s.presses (.main p)) = true ↔
          s.presses (.main p) = true ∨ (s.pbRe = true ∧ ¬(false = true ∧ _))
        simp [or_comm]
      | screen got =>
        obtain ⟨main, ⟨pc, state, delayLoops, msg⟩, pbRe⟩ := s
        cases pc with
        | clear => simp [Front.step, Screen.step, Front.presses, Turn.isScreen]
        | _ => simp [Front.step, Screen.step, Front.presses]
    rw [hflag, ih]
    constructor
    · rintro (hpress | ⟨⟨k, hk, hpress, hrest⟩, hclear⟩)
      · exact ⟨n, Nat.lt_succ_self n, hpress, fun j hj hlt => by omega⟩
      · refine ⟨k, Nat.lt_succ_of_lt hk, hpress, fun j hj hlt => ?_⟩
        rcases Nat.lt_succ_iff_lt_or_eq.mp hj with hj | rfl
        · exact hrest j hj hlt
        · exact hclear
    · rintro ⟨k, hk, hpress, hrest⟩
      rcases Nat.lt_succ_iff_lt_or_eq.mp hk with hk | rfl
      · exact Or.inr ⟨⟨k, hk, hpress, fun j hj => hrest j (Nat.lt_succ_of_lt hj)⟩,
          hrest n (Nat.lt_succ_self n) hk⟩
      · exact Or.inl hpress

/-- Every noticed press switches the page once, or is about to, whatever the order of the
turns. Nothing else switches it, and the page that is on is the first one after an even
number of switches. -/
theorem switches_count (n : Nat) :
    Nat.count (SwitchedAt pb turns) n + (frontAt pb turns n).pending.toNat
        = Nat.count (NoticedAt pb turns) n ∧
      ((frontAt pb turns n).screen.pc ≠ .intro →
        (frontAt pb turns n).screen.state = pageAfter (Nat.count (SwitchedAt pb turns) n)) := by
  refine ⟨count_switches pb turns n, fun hpc => ?_⟩
  rw [state_frontAt, if_neg hpc]

/-- The page for what `k_msgq_get` returned, after a number of noticed presses. -/
def pageFor (noticed : Nat) : Option Msg → Page
  | none => .error
  | some msg => if noticed % 2 = 0 then .vbat msg else .vout msg

/-- What the screen thread draws in front of the store that clears the flag. -/
theorem page_frontAt {n : Nat} (hpc : (frontAt pb turns n).screen.pc = .clear) :
    (frontAt pb turns n).screen.page
      = [pageFor (Nat.count (NoticedAt pb turns) n) (lastGot pb turns n)] := by
  have hpending : (frontAt pb turns n).pending = false := by
    rw [Front.pending, hpc]
    exact Bool.and_false _
  have hcount := count_switches pb turns n
  have hstate := state_frontAt pb turns n
  rw [hpending, show Bool.toNat false = 0 from rfl, Nat.add_zero] at hcount
  rw [hpc, if_neg (fun h => by cases h), hcount, pageAfter] at hstate
  rw [Screen.page, msg_frontAt, hstate]
  cases lastGot pb turns n with
  | none => rfl
  | some msg =>
    rw [pageFor]
    by_cases heven : Nat.count (NoticedAt pb turns) n % 2 = 0
    · rw [if_pos heven, if_pos heven]
    · rw [if_neg heven, if_neg heven]

/-- A page is drawn by the intro, and in front of the store that clears the flag. -/
theorem drawnAt_eq (n : Nat) :
    drawnAt pb turns n
      = if (turns n).isScreen = true then
          match (frontAt pb turns n).screen.pc with
          | .intro => [.intro]
          | .clear => [pageFor (Nat.count (NoticedAt pb turns) n) (lastGot pb turns n)]
          | _ => []
        else [] := by
  have hpage := @page_frontAt pb turns n
  rw [drawnAt]
  cases turns n with
  | main p => rfl
  | screen got =>
    rw [if_pos (show (Turn.screen got).isScreen = true from rfl)]
    show ((frontAt pb turns n).screen.step _ got).2.2 = _
    rw [Screen.step]
    cases hpc : (frontAt pb turns n).screen.pc with
    | clear => exact hpage hpc
    | _ => rfl

/-- Where the second look at the flag leads. -/
theorem clear_of_second_iff {n : Nat} (hscreen : (turns n).isScreen = true)
    (hpc : (frontAt pb turns n).screen.pc = .second) :
    (frontAt pb turns (n + 1)).screen.pc = .clear ↔
      quietPasses pb turns n = 10 ∨ (frontAt pb turns n).pbRe = true := by
  have hzero : (frontAt pb turns n).screen.delayLoops = 0 ↔ quietPasses pb turns n = 10 := by
    rw [(quietPasses_spec pb turns n).1]
    omega
  rw [frontAt_succ, ← hzero]
  cases hturn : turns n with
  | main p =>
    rw [hturn] at hscreen
    cases hscreen
  | screen got =>
    show ((frontAt pb turns n).screen.step _ got).1.pc = .clear ↔ _
    rw [Screen.step, hpc]
    show (if _ then Pc.clear else Pc.get) = .clear ↔ _
    split
    · next h => exact iff_of_true rfl h
    · next h => exact iff_of_false (fun h => by cases h) h

/-- Only the second look leads to the store that clears the flag. -/
theorem second_of_clear {n : Nat} (hscreen : (turns n).isScreen = true)
    (hnext : (frontAt pb turns (n + 1)).screen.pc = .clear) :
    (frontAt pb turns n).screen.pc = .second := by
  rw [frontAt_succ] at hnext
  cases hturn : turns n with
  | main p =>
    rw [hturn] at hscreen
    cases hscreen
  | screen got =>
    rw [hturn] at hnext
    have hstep : ((frontAt pb turns n).screen.step (frontAt pb turns n).pbRe got).1.pc
        = .clear := hnext
    rw [Screen.step] at hstep
    cases hpc : (frontAt pb turns n).screen.pc with
    | second => rfl
    | _ =>
      rw [hpc] at hstep
      cases hstep

/-- When a page is drawn, and which. After the intro the screen thread draws one page each
time it clears the flag: the error page if the last `k_msgq_get` failed, and otherwise the
message it returned, on the page for the number of noticed presses. It comes to clear the
flag from its second look only, if there was a press since the flag was last cleared or if
this is the eleventh pass since then. -/
theorem redraws (n : Nat) :
    drawnAt pb turns n
        = (if (turns n).isScreen = true then
            match (frontAt pb turns n).screen.pc with
            | .intro => [.intro]
            | .clear => [pageFor (Nat.count (NoticedAt pb turns) n) (lastGot pb turns n)]
            | _ => []
          else []) ∧
      ((turns n).isScreen = true →
        ((frontAt pb turns (n + 1)).screen.pc = .clear ↔
          (frontAt pb turns n).screen.pc = .second ∧
            (quietPasses pb turns n = 10 ∨
              ∃ k < n, PressedAt pb turns k ∧ ∀ j < n, k < j → ¬ClearedAt pb turns j))) ∧
      quietPasses pb turns n ≤ 11 := by
  refine ⟨drawnAt_eq pb turns n, fun hscreen => ?_, ?_⟩
  · rw [← pbRe_frontAt]
    constructor
    · intro hclear
      have hpc := second_of_clear pb turns hscreen hclear
      exact ⟨hpc, (clear_of_second_iff pb turns hscreen hpc).mp hclear⟩
    · rintro ⟨hpc, hwhen⟩
      exact (clear_of_second_iff pb turns hscreen hpc).mpr hwhen
  · rcases (quietPasses_spec pb turns n).2 with hten | ⟨-, heleven⟩
    · omega
    · omega

end Runs

/-! ### The edges of the button -/

theorem MainLoop.hold_prevPbState (s : MainLoop) (p : Pass) :
    (s.hold p).1.prevPbState = s.prevPbState := by
  rw [MainLoop.hold]
  split
  · split
    · rfl
    · rfl
  · rfl

/-- The store to the flag or the toggle of the LED. -/
def MainEffect.isPress : MainEffect → Bool
  | .setPbRe => true
  | .gpioPinToggle => true
  | _ => false

/-- A pass sets the flag and then toggles the LED, once each, when its second reading of
the button finds it pressed and the main loop has it as released. Otherwise it does
neither. -/
theorem MainLoop.filter_isPress_iterate (s : MainLoop) (p : Pass) :
    (s.iterate p).2.filter MainEffect.isPress
      = if p.pb 1 ≠ 0 ∧ s.prevPbState = false then [.setPbRe, .gpioPinToggle] else [] := by
  have hhold : (s.hold p).2.filter MainEffect.isPress = [] := by
    rw [List.filter_eq_nil_iff]
    intro e he
    rw [MainLoop.hold] at he
    split at he
    · split at he
      · rcases List.mem_cons.mp he with rfl | he
        · exact Bool.false_ne_true
        · obtain ⟨b, -, rfl⟩ := List.mem_map.mp he
          exact Bool.false_ne_true
      · cases he
    · cases he
  show ((s.hold p).2 ++ ((s.hold p).1.edges p).2).filter _ = _
  rw [List.filter_append, hhold, List.nil_append, MainLoop.edges, MainLoop.hold_prevPbState]
  split
  · rfl
  · split
    · rfl
    · rfl

theorem MainLoop.setPbRe_mem_iterate (s : MainLoop) (p : Pass) :
    MainEffect.setPbRe ∈ (s.iterate p).2 ↔ p.pb 1 ≠ 0 ∧ s.prevPbState = false := by
  have hpress : MainEffect.setPbRe ∈ (s.iterate p).2 ↔
      MainEffect.setPbRe ∈ (s.iterate p).2.filter MainEffect.isPress := by
    rw [List.mem_filter]
    exact (and_iff_left rfl).symm
  rw [hpress, s.filter_isPress_iterate]
  split
  · next h => exact iff_of_true List.mem_cons_self h
  · next h => exact iff_of_false List.not_mem_nil h

/-- How often a pass toggles the LED. -/
theorem MainLoop.count_gpioPinToggle_iterate (s : MainLoop) (p : Pass) :
    (s.iterate p).2.count .gpioPinToggle
      = if p.pb 1 ≠ 0 ∧ s.prevPbState = false then 1 else 0 := by
  rw [← List.count_filter (p := MainEffect.isPress) rfl, s.filter_isPress_iterate]
  split
  · rfl
  · rfl

theorem MainLoop.iterate_prevPbState (s : MainLoop) (p : Pass) :
    (s.iterate p).1.prevPbState
      = if p.pb 1 ≠ 0 ∧ s.prevPbState = false then decide (p.pb 2 ≠ 0)
        else if p.pb 2 = 0 ∧ s.prevPbState = true then decide (p.pb 3 ≠ 0)
        else s.prevPbState := by
  show ((s.hold p).1.edges p).1.prevPbState = _
  rw [MainLoop.edges, MainLoop.hold_prevPbState]
  split
  · rfl
  · split
    · rfl
    · exact MainLoop.hold_prevPbState s p

section Edges

variable (pb : Int) (turns : Nat → Turn)

theorem pressedAt_iff (n : Nat) :
    PressedAt pb turns n ↔
      ∃ p, turns n = .main p ∧ p.pb 1 ≠ 0 ∧
        (frontAt pb turns n).main.prevPbState = false := by
  rw [PressedAt]
  cases turns n with
  | main p =>
    rw [Front.presses, decide_eq_true_iff, MainLoop.setPbRe_mem_iterate]
    exact ⟨fun h => ⟨p, rfl, h⟩, fun ⟨q, heq, h⟩ => by cases heq; exact h⟩
  | screen got => exact iff_of_false Bool.false_ne_true (fun ⟨p, heq, _⟩ => by cases heq)

/-- How often the LED is toggled in turn `n`. -/
def togglesAt (n : Nat) : Nat :=
  match turns n with
  | .main p => ((frontAt pb turns n).main.iterate p).2.count .gpioPinToggle
  | .screen _ => 0

/-- The LED is toggled once for every press. -/
theorem togglesAt_eq (n : Nat) :
    togglesAt pb turns n = ((frontAt pb turns n).presses (turns n)).toNat := by
  rw [togglesAt]
  cases turns n with
  | main p =>
    have hpress := (frontAt pb turns n).main.setPbRe_mem_iterate p
    show ((frontAt pb turns n).main.iterate p).2.count .gpioPinToggle = _
    rw [Front.presses, MainLoop.count_gpioPinToggle_iterate]
    split
    · next h =>
      rw [decide_eq_true (hpress.mpr h)]
      rfl
    · next h =>
      rw [decide_eq_false fun hset => h (hpress.mp hset)]
      rfl
  | screen got => rfl

/-- The button was pressed in the last pass of the main loop before turn `n`, which is the
first reading if there was none. -/
def lastSample : Nat → Bool
  | 0 => pb ≠ 0
  | n + 1 =>
    match turns n with
    | .main p => p.Pressed
    | .screen _ => lastSample n

/-- The button does not move while a pass reads it. -/
def Pass.Steady (p : Pass) : Prop := ∀ k, p.pb k = 0 ↔ p.pb 0 = 0

variable {turns}

/-- With a steady button, the main loop knows the last sample. -/
theorem prevPbState_frontAt (hsteady : ∀ n p, turns n = .main p → p.Steady) (n : Nat) :
    (frontAt pb turns n).main.prevPbState = lastSample pb turns n := by
  induction n with
  | zero => rfl
  | succ n ih =>
    rw [frontAt_succ, lastSample, ← ih]
    cases hturn : turns n with
    | screen got => rfl
    | main p =>
      have hp : p.Steady := hsteady n p hturn
      show ((frontAt pb turns n).main.iterate p).1.prevPbState = decide (p.pb 0 ≠ 0)
      rw [MainLoop.iterate_prevPbState]
      simp only [ne_eq, hp 1, hp 2, hp 3]
      by_cases hzero : p.pb 0 = 0
      · simp [hzero]
      · simp [hzero]

/-- Turn `n` is a pass of the main loop that finds the button pressed after one that did
not. -/
def RisingEdge (turns : Nat → Turn) (n : Nat) : Prop :=
  ∃ p, turns n = .main p ∧ p.Pressed ∧ lastSample pb turns n = false

/-- A steady button is pressed once for every rising edge of its samples. The flag is set
and the LED is toggled, once, in a turn with a rising edge, and neither happens in any other
turn. -/
theorem pressedAt_iff_edge (hsteady : ∀ n p, turns n = .main p → p.Steady) (n : Nat) :
    (PressedAt pb turns n ↔ RisingEdge pb turns n) ∧
      (togglesAt pb turns n = 1 ↔ RisingEdge pb turns n) ∧ togglesAt pb turns n ≤ 1 := by
  have hedge : PressedAt pb turns n ↔ RisingEdge pb turns n := by
    rw [pressedAt_iff, prevPbState_frontAt pb hsteady]
    constructor
    · rintro ⟨p, hturn, hpressed, hlast⟩
      exact ⟨p, hturn, fun hzero => hpressed ((hsteady n p hturn 1).mpr hzero), hlast⟩
    · rintro ⟨p, hturn, hpressed, hlast⟩
      exact ⟨p, hturn, fun hzero => hpressed ((hsteady n p hturn 1).mp hzero), hlast⟩
  refine ⟨hedge, ?_, ?_⟩
  · rw [← hedge, PressedAt, togglesAt_eq]
    cases (frontAt pb turns n).presses (turns n) with
    | true => simp
    | false => simp
  · rw [togglesAt_eq]
    exact Bool.toNat_le _

/-- The button is released at first, and then held. -/
theorem pressedAt_iff_edge_held :
    RisingEdge 0 (fun _ => .main ⟨fun _ => 1, 0⟩) 0 ∧
      PressedAt 0 (fun _ => .main ⟨fun _ => 1, 0⟩) 0 ∧
      togglesAt 0 (fun _ => .main ⟨fun _ => 1, 0⟩) 0 = 1 ∧
      ¬ PressedAt 0 (fun _ => .main ⟨fun _ => 1, 0⟩) 1 := by
  have hsteady : ∀ (_ : Nat) p, Turn.main ⟨fun _ => 1, 0⟩ = .main p → p.Steady := by
    intro _ p heq k
    cases heq
    exact Iff.rfl
  have hfirst : RisingEdge 0 (fun _ => .main ⟨fun _ => 1, 0⟩) 0 := ⟨_, rfl, by decide, rfl⟩
  obtain ⟨hpress, htoggle, -⟩ := @pressedAt_iff_edge 0 (fun _ => .main ⟨fun _ => 1, 0⟩) hsteady 0
  refine ⟨hfirst, hpress.mpr hfirst, htoggle.mpr hfirst, fun hsecond => ?_⟩
  obtain ⟨p, -, -, hlast⟩ := (@pressedAt_iff_edge 0 (fun _ => .main ⟨fun _ => 1, 0⟩) hsteady 1).1.mp
    hsecond
  exact absurd hlast (by decide)

/-- However the button bounces, a press is not seen twice: between two presses there is a
pass that has read the button as released. -/
theorem released_between {j k : Nat} (hjk : j < k) (hj : PressedAt pb turns j)
    (hk : PressedAt pb turns k) :
    ∃ i p, j ≤ i ∧ i < k ∧ turns i = .main p ∧ p.pb 2 = 0 := by
  by_contra hnone
  push Not at hnone
  -- The main loop has the button as pressed from the first press on.
  have hheld : ∀ i, j < i → i ≤ k → (frontAt pb turns i).main.prevPbState = true := by
    intro i hji
    induction i, hji using Nat.le_induction with
    | base =>
      intro hle
      obtain ⟨p, hturn, hpressed, hprev⟩ := (pressedAt_iff pb turns j).mp hj
      rw [frontAt_succ, hturn]
      show ((frontAt pb turns j).main.iterate p).1.prevPbState = true
      rw [MainLoop.iterate_prevPbState, if_pos ⟨hpressed, hprev⟩]
      exact decide_eq_true (hnone j p (Nat.le_refl j) hjk hturn)
    | succ i hji ih =>
      intro hle
      have hprev := ih (Nat.le_of_succ_le hle)
      rw [frontAt_succ]
      cases hturn : turns i with
      | screen got => exact hprev
      | main p =>
        show ((frontAt pb turns i).main.iterate p).1.prevPbState = true
        have hread : p.pb 2 ≠ 0 := hnone i p (by omega) (by omega) hturn
        rw [MainLoop.iterate_prevPbState, hprev, if_neg (fun h => Bool.noConfusion h.2),
          if_neg (fun h => hread h.1)]
  obtain ⟨-, -, -, hprev⟩ := (pressedAt_iff pb turns k).mp hk
  rw [hheld k hjk (Nat.le_refl k)] at hprev
  cases hprev

/-- A pass that has read the button as released right after a press. -/
theorem released_between_bounce :
    ∃ i p, 0 ≤ i ∧ i < 1 ∧
      Turn.main ⟨fun k => if k = 2 then 0 else 1, 0⟩ = .main p ∧ p.pb 2 = 0 :=
  @released_between 0 (fun _ => .main ⟨fun k => if k = 2 then 0 else 1, 0⟩) 0 1
    Nat.zero_lt_one rfl rfl

end Edges

end UpsFirmware.Esp32
