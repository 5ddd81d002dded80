import Mathlib.Algebra.Order.Field.Rat

/-!
# `UpsFirmware.Rp2040.Effects`: what the RP2040 does to the outside

The calls of the RP2040 firmware that reach a peripheral, in the order in which
they are made: a console line, a byte on the inter-MCU UART, a pin, a PWM duty, a
sleep. A function of the model returns the list of its effects beside its result.

`Outputs` is what the effects leave at the power stage: the level of `pwm_en` and
the last duty set. `Outputs.run` folds a list of effects over it, and its simp
lemmas pass over every effect that does not concern the power stage.
-/

set_option autoImplicit false

namespace UpsFirmware

/-- The output pins. -/
inductive Pin where
  | pwmEn
  | packBoot
  | loadOcLed
  | battOcLed
  | battOvLed
deriving DecidableEq, Repr

/-- An argument of `printk`. -/
inductive PrintArg where
  | int (v : Int)
  | float (v : ℚ)
  | str (s : String)
deriving DecidableEq

inductive Effect where
  | printk (fmt : String) (args : List PrintArg)
  | uartPollOut (b : UInt8)
  | gpioPinSet (pin : Pin) (value : Bool)
  | pwmSet (duty : ℚ)
  | kSleep (ms : Nat)
deriving DecidableEq

/-- The bytes a list of effects puts on the inter-MCU UART. -/
def uartBytes : List Effect → List UInt8
  | [] => []
  | .uartPollOut b :: fx => b :: uartBytes fx
  | _ :: fx => uartBytes fx

theorem uartBytes_append (fx gx : List Effect) :
    uartBytes (fx ++ gx) = uartBytes fx ++ uartBytes gx := by
  induction fx with
  | nil => rfl
  | cons e fx ih =>
    cases e with
    | uartPollOut b =>
      show b :: uartBytes (fx ++ gx) = b :: (uartBytes fx ++ uartBytes gx)
      rw [ih]
    | _ => exact ih

theorem uartBytes_eq_nil {fx : List Effect} (h : ∀ e ∈ fx, ∀ b, e ≠ .uartPollOut b) :
    uartBytes fx = [] := by
  induction fx with
  | nil => rfl
  | cons e fx ih =>
    have he := h e (by simp)
    cases e with
    | uartPollOut b => exact absurd rfl (he b)
    | _ => exact ih fun e' he' => h e' (by simp [he'])

@[simp] theorem uartBytes_map_uartPollOut (bs : List UInt8) :
    uartBytes (bs.map Effect.uartPollOut) = bs := by
  induction bs with
  | nil => rfl
  | cons b bs ih =>
    show b :: uartBytes (bs.map Effect.uartPollOut) = b :: bs
    rw [ih]

/-- The duty that an effect sets. -/
def Effect.dutySet : Effect → Option ℚ
  | .pwmSet duty => some duty
  | _ => none

/-- The duties that a list of effects sets, in their order. -/
def pwmDuties (fx : List Effect) : List ℚ := fx.filterMap Effect.dutySet

/-! ### The power stage -/

/-- The level of `pwm_en`, and the duty in force at the PWM peripheral. -/
structure Outputs where
  pwmEn : Bool
  duty : Option ℚ

def Outputs.apply (o : Outputs) : Effect → Outputs
  | .gpioPinSet .pwmEn value => { o with pwmEn := value }
  | .pwmSet duty => { o with duty := some duty }
  | _ => o

/-- The power stage after a list of effects. -/
def Outputs.run (o : Outputs) (fx : List Effect) : Outputs := fx.foldl Outputs.apply o

theorem Outputs.run_append (o : Outputs) (fx gx : List Effect) :
    o.run (fx ++ gx) = (o.run fx).run gx := List.foldl_append

/-- Effects that leave the power stage alone. -/
def Effect.Harmless : Effect → Prop
  | .gpioPinSet .pwmEn _ => False
  | .pwmSet _ => False
  | _ => True

theorem Outputs.run_of_harmless (o : Outputs) {fx : List Effect}
    (h : ∀ e ∈ fx, e.Harmless) : o.run fx = o := by
  induction fx with
  | nil => rfl
  | cons e fx ih =>
    -- Only two kinds of effects write the power stage, and neither is harmless.
    have he : o.apply e = o := by
      have := h e (by simp)
      cases e with
      | gpioPinSet pin value =>
        cases pin with
        | pwmEn => exact absurd this id
        | _ => rfl
      | pwmSet duty => exact absurd this id
      | _ => rfl
    show (o.apply e).run fx = o
    rw [he, ih fun e' he' => h e' (by simp [he'])]

theorem pwmDuties_of_harmless {fx : List Effect} (h : ∀ e ∈ fx, e.Harmless) :
    pwmDuties fx = [] := by
  rw [pwmDuties, List.filterMap_eq_nil_iff]
  intro e he
  cases e with
  | pwmSet duty => exact absurd (h _ he) id
  | _ => rfl

end UpsFirmware
