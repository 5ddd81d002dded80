import UpsFirmware.Rp2040.PowerDown

/-!
# `UpsFirmware.Rp2040.Console`: who writes the byte `@`

The shutdown command of the STM32 is the byte `@` in the console text of the RP2040.
`consoleText` is what a `printk` writes there: its format with the arguments filled in.
`NumberFormat` says what is known about `%d` and `%f`, namely that a number is written
with digits, a sign and a point.

`ReservedAt` is the law that the byte belongs to the power-down line. The loop keeps it
(`eq_of_printsAt_iterate`). The part before the loop names devices, and a device's name is
its node in the devicetree, `adc@4004c000` for instance. So the law fails as soon as such
a device is not ready, and `reservedAt_iff` says that this is the only way.
-/

set_option autoImplicit false

namespace UpsFirmware

/-- How `printk` writes a number. -/
structure NumberFormat where
  int : Int → List Char
  float : ℚ → List Char
  int_chars : ∀ v, ∀ c ∈ int v, c.isDigit ∨ c = '-'
  float_chars : ∀ v, ∀ c ∈ float v, c.isDigit ∨ c = '-' ∨ c = '.'

namespace NumberFormat

variable (f : NumberFormat)

/-- The text of an argument. -/
def argText : PrintArg → List Char
  | .int v => f.int v
  | .float v => f.float v
  | .str s => s.toList

/-- A format with its arguments filled in: one for each `%` and the letter behind it. -/
def text : List Char → List PrintArg → List Char
  | '%' :: _ :: fmt, a :: args => f.argText a ++ text fmt args
  | c :: fmt, args => c :: text fmt args
  | [], _ => []

/-- What an effect writes to the console. -/
def consoleText : Effect → List Char
  | .printk fmt args => f.text fmt.toList args
  | _ => []

/-- A number is written without the byte `@`. -/
theorem at_argText {a : PrintArg} (h : '@' ∈ f.argText a) : a.printsAt = true := by
  cases a with
  | int v =>
    have hc := f.int_chars v '@' h
    exact absurd hc (by decide)
  | float v =>
    have hc := f.float_chars v '@' h
    exact absurd hc (by decide)
  | str s =>
    have hname : '@' ∈ s.toList := h
    simpa [PrintArg.printsAt] using hname

/-- The byte comes from the format or from an argument. -/
theorem at_text {fmt : List Char} {args : List PrintArg} (h : '@' ∈ f.text fmt args) :
    '@' ∈ fmt ∨ args.any PrintArg.printsAt = true := by
  fun_induction text f fmt args with
  | case1 x fmt a args ih =>
    rw [List.mem_append] at h
    rw [List.any_cons, Bool.or_eq_true]
    rcases h with h | h
    · exact Or.inr (Or.inl (f.at_argText h))
    · rcases ih h with h | h
      · exact Or.inl (by simp [h])
      · exact Or.inr (Or.inr h)
  | case2 c fmt args _ ih =>
    rw [List.mem_cons] at h ⊢
    rcases h with h | h
    · exact Or.inl (Or.inl h)
    · rcases ih h with h | h
      · exact Or.inl (Or.inr h)
      · exact Or.inr h
  | case3 => cases h

/-- So an effect that writes the byte has it in its line. -/
theorem printsAt_of_at {e : Effect} (h : '@' ∈ f.consoleText e) : e.printsAt = true := by
  cases e with
  | printk fmt args =>
    show (fmt.toList.contains '@' || args.any PrintArg.printsAt) = true
    rw [Bool.or_eq_true]
    rcases f.at_text h with h | h
    · exact Or.inl (by simpa using h)
    · exact Or.inr h
  | _ => cases h

/-- A name in a line that is otherwise free of the byte. -/
theorem at_around {front back name : List Char} (hfront : '@' ∉ front) (hback : '@' ∉ back) :
    '@' ∈ front ++ (name ++ back) ↔ '@' ∈ name := by
  rw [List.mem_append, List.mem_append]
  constructor
  · intro h
    rcases h with h | h | h
    · exact absurd h hfront
    · exact h
    · exact absurd h hback
  · intro h
    exact Or.inr (Or.inl h)

/-- The two lines that name a device. -/
theorem at_adcNotReady (name : String) :
    '@' ∈ f.consoleText (.printk "ADC controller device %s not ready\n" [.str name]) ↔
      '@' ∈ name.toList := by
  show '@' ∈ "ADC controller device ".toList ++ (name.toList ++ " not ready\n".toList) ↔ _
  exact at_around (by decide) (by decide)

theorem at_pwmNotReady (name : String) :
    '@' ∈ f.consoleText (.printk "Error: PWM device %s is not ready\n" [.str name]) ↔
      '@' ∈ name.toList := by
  show '@' ∈ "Error: PWM device ".toList ++ (name.toList ++ " is not ready\n".toList) ↔ _
  exact at_around (by decide) (by decide)

/-- Decimal numbers, a `float` with six places. -/
def decimal : NumberFormat where
  int v := if v < 0 then '-' :: Nat.toDigits 10 v.natAbs else Nat.toDigits 10 v.natAbs
  float v :=
    let micro := (|v| * 1000000 + 1 / 2).floor.toNat
    (if v < 0 then ['-'] else []) ++ Nat.toDigits 10 (micro / 1000000) ++
      '.' :: (Nat.toDigits 10 (1000000 + micro % 1000000)).tail
  int_chars v c hc := by
    split at hc
    · rw [List.mem_cons] at hc
      rcases hc with hc | hc
      · exact Or.inr hc
      · exact Or.inl (Nat.isDigit_of_mem_toDigits (by decide) (by decide) hc)
    · exact Or.inl (Nat.isDigit_of_mem_toDigits (by decide) (by decide) hc)
  float_chars v c hc := by
    rw [List.mem_append, List.mem_append, List.mem_cons] at hc
    rcases hc with (hc | hc) | hc | hc
    · split at hc
      · exact Or.inr (Or.inl (List.mem_singleton.mp hc))
      · cases hc
    · exact Or.inl (Nat.isDigit_of_mem_toDigits (by decide) (by decide) hc)
    · exact Or.inr (Or.inr hc)
    · exact Or.inl (Nat.isDigit_of_mem_toDigits (by decide) (by decide) (List.mem_of_mem_tail hc))

end NumberFormat

/-! ### The lines of a run -/

/-- Only two lines before the loop can have the byte, those that name a device. -/
theorem of_printsAt_bootEffects {b : BootInputs} {e : Effect}
    (he : e ∈ Buckboost.bootEffects b) (hat : e.printsAt = true) :
    (∃ i, b.adcReady i = false ∧
        e = .printk "ADC controller device %s not ready\n" [.str (b.adcName i)]) ∨
      (b.pwmReady = false ∧
        e = .printk "Error: PWM device %s is not ready\n" [.str b.pwmName]) := by
  simp only [Buckboost.bootEffects, List.mem_append] at he
  rcases he with (((he | he) | he) | he) | he
  · simp only [List.mem_cons, List.not_mem_nil, or_false] at he
    rcases he with rfl | rfl | rfl | rfl | rfl | rfl
    all_goals cases hat
  · simp only [Adc.setup, List.mem_flatMap, List.mem_append] at he
    obtain ⟨i, -, he | he⟩ := he
    · split at he
      · rename_i hready
        exact Or.inl ⟨i, by simpa using hready, List.mem_singleton.mp he⟩
      · cases he
    · split at he
      · rw [List.mem_singleton.mp he] at hat
        cases hat
      · cases he
  · obtain ⟨err, rfl⟩ := Adc.printk_of_mem_sampleAll b.reads e he
    cases hat
  · split at he
    · rename_i hready
      exact Or.inr ⟨by simpa using hready, List.mem_singleton.mp he⟩
    · cases he
  · split at he
    · rw [List.mem_singleton.mp he] at hat
      cases hat
    · cases he

/-- The two lines are written when the device is not ready. -/
theorem adcNotReady_mem_bootEffects {b : BootInputs} {i : Fin 4} (h : b.adcReady i = false) :
    .printk "ADC controller device %s not ready\n" [.str (b.adcName i)] ∈
      Buckboost.bootEffects b := by
  have hsetup : .printk "ADC controller device %s not ready\n" [.str (b.adcName i)] ∈
      Adc.setup b := by
    refine List.mem_flatMap.mpr ⟨i, List.mem_finRange i, List.mem_append_left _ ?_⟩
    rw [h]
    exact List.mem_singleton_self _
  simp only [Buckboost.bootEffects, List.mem_append]
  exact Or.inl (Or.inl (Or.inl (Or.inr hsetup)))

theorem pwmNotReady_mem_bootEffects {b : BootInputs} (h : b.pwmReady = false) :
    .printk "Error: PWM device %s is not ready\n" [.str b.pwmName] ∈
      Buckboost.bootEffects b := by
  simp only [Buckboost.bootEffects, List.mem_append]
  rw [h]
  exact Or.inl (Or.inr (List.mem_singleton_self _))

/-- In the loop the byte is in the power-down line only. -/
theorem eq_of_printsAt_iterate {s : Buckboost} {inp : Inputs} {e : Effect}
    (he : e ∈ (s.iterate inp).2) (hat : e.printsAt = true) :
    e = .printk "Power Down Requested @ \n" [] := by
  have hsplit : (s.iterate inp).2 = (s.sense inp).2
      ++ ((s.sense inp).1.telemetry inp.vinDetect inp).2
      ++ (((s.sense inp).1.telemetry inp.vinDetect inp).1.mode (s.errors inp) inp.vinDetect
        inp.cycles).2 := rfl
  rw [hsplit, List.mem_append, List.mem_append] at he
  rcases he with (he | he) | he
  · rw [printsAt_sense s inp e he] at hat
    cases hat
  · rw [Buckboost.telemetry_snd] at he
    split at he
    · rcases List.mem_append.mp he with he | he
      · rw [printsAt_report _ inp.tail e he] at hat
        cases hat
      · exact Buckboost.mem_receive he
    · cases he
  · rw [printsAt_mode _ _ _ _ e he] at hat
    cases hat

section Runs

variable (f : NumberFormat) (b : BootInputs) (env : Nat → Inputs)

/-- The byte is written by the power-down line only, before the loop and in it. -/
def ReservedAt : Prop :=
  ∀ e, (e ∈ Buckboost.bootEffects b ∨ ∃ n, e ∈ effectsAt b env n) →
    '@' ∈ f.consoleText e → e = .printk "Power Down Requested @ \n" []

/-- Every device that has the byte in its name is ready. -/
def NamesHidden : Prop :=
  (∀ i, '@' ∈ (b.adcName i).toList → b.adcReady i = true) ∧
    ('@' ∈ b.pwmName.toList → b.pwmReady = true)

/-- The law holds in a run exactly when every ADC or PWM device with the byte in its name
is ready at power-up. -/
theorem reservedAt_iff : ReservedAt f b env ↔ NamesHidden b := by
  constructor
  · intro hlaw
    constructor
    · intro i hname
      by_contra hready
      rw [Bool.not_eq_true] at hready
      have heq := hlaw _ (Or.inl (adcNotReady_mem_bootEffects hready))
        ((f.at_adcNotReady _).mpr hname)
      simp at heq
    · intro hname
      by_contra hready
      rw [Bool.not_eq_true] at hready
      have heq := hlaw _ (Or.inl (pwmNotReady_mem_bootEffects hready))
        ((f.at_pwmNotReady _).mpr hname)
      simp at heq
  · intro hnames e he hat
    have hprints := f.printsAt_of_at hat
    rcases he with he | ⟨n, he⟩
    · rcases of_printsAt_bootEffects he hprints with ⟨i, hready, rfl⟩ | ⟨hready, rfl⟩
      · rw [hnames.1 i ((f.at_adcNotReady _).mp hat)] at hready
        cases hready
      · rw [hnames.2 ((f.at_pwmNotReady _).mp hat)] at hready
        cases hready
    · exact eq_of_printsAt_iterate he hprints

/-- The devices of the board under their devicetree names, with an ADC controller that
is not ready. -/
def brokenAdc : BootInputs :=
  { benchBoot with
    adcName := fun _ => "adc@4004c000"
    adcReady := fun _ => false
    pwmName := "pwm@40050000" }

/-- That board shuts the pack down at every power-up. -/
theorem reservedAt_fails : ¬ ∀ f b env, ReservedAt f b env := by
  intro hall
  have hnames := (reservedAt_iff NumberFormat.decimal brokenAdc benchInputs).mp
    (hall _ _ _)
  have hready := hnames.1 CHAN_VOUT (by decide)
  cases hready

end Runs

end UpsFirmware
