import Mathlib.Data.List.Infix

/-!
# `UpsFirmware.Lib.Wire`: a line between two parties

A line keeps everything that is sent and delivers it in order, at any time and in pieces
of any size. `Wire` holds what was sent so far, and how much of it was taken at the other
end. What arrived is then a prefix of what was sent (`isPrefix_arrived`), `send` does not
change it, and `receive` adds to it what it returns (`arrived_receive`).
-/

set_option autoImplicit false

namespace UpsFirmware.Lib

/-- What was sent, and how much of it was taken. -/
structure Wire (α : Type) where
  sent : List α
  taken : Nat
  fits : taken ≤ sent.length

namespace Wire

variable {α : Type}

/-- A line on which nothing was sent. -/
def idle : Wire α := ⟨[], 0, Nat.le_refl 0⟩

def send (w : Wire α) (items : List α) : Wire α where
  sent := w.sent ++ items
  taken := w.taken
  fits := by
    have hfits := w.fits
    rw [List.length_append]
    omega

/-- What is on its way. -/
def inFlight (w : Wire α) : List α := w.sent.drop w.taken

/-- What was taken. -/
def arrived (w : Wire α) : List α := w.sent.take w.taken

/-- Take `n` items, or all there are. -/
def receive (w : Wire α) (n : Nat) : List α × Wire α :=
  (w.inFlight.take n, ⟨w.sent, min (w.taken + n) w.sent.length, Nat.min_le_right _ _⟩)

variable (w : Wire α)

@[simp] theorem sent_receive (n : Nat) : (w.receive n).2.sent = w.sent := rfl

@[simp] theorem arrived_send (items : List α) : (w.send items).arrived = w.arrived :=
  List.take_append_of_le_length w.fits

theorem send_nil : w.send [] = w := by
  rw [send]
  simp only [List.append_nil]

/-- What is taken joins what arrived. -/
theorem arrived_receive (n : Nat) : (w.receive n).2.arrived = w.arrived ++ (w.receive n).1 := by
  show w.sent.take (min (w.taken + n) w.sent.length) = w.sent.take w.taken ++ _
  rw [← List.take_take, List.take_of_length_le (Nat.le_refl w.sent.length), List.take_add]
  rfl

theorem arrived_append_inFlight : w.arrived ++ w.inFlight = w.sent := List.take_append_drop _ _

theorem isPrefix_arrived : w.arrived <+: w.sent := List.take_prefix _ _

/-- When nothing is on its way, everything arrived. -/
theorem arrived_of_inFlight (h : w.inFlight = []) : w.arrived = w.sent := by
  rw [← w.arrived_append_inFlight, h, List.append_nil]

/-- Nothing can be taken from an idle line. -/
theorem receive_of_inFlight (h : w.inFlight = []) (n : Nat) : w.receive n = ([], w) := by
  have htaken : w.sent.length ≤ w.taken := List.drop_eq_nil_iff.mp h
  have hsame : min (w.taken + n) w.sent.length = w.taken := by
    have hfits := w.fits
    omega
  rw [receive, h, List.take_nil]
  simp only [hsame]

/-- Taking as much as is on its way leaves nothing. -/
theorem inFlight_receive {n : Nat} (h : w.inFlight.length ≤ n) :
    (w.receive n).2.inFlight = [] := by
  rw [inFlight, List.length_drop] at h
  refine List.drop_eq_nil_iff.mpr ?_
  show w.sent.length ≤ min (w.taken + n) w.sent.length
  omega

end Wire

end UpsFirmware.Lib
