import UpsFirmware.Stm32.Bq76920

/-!
# `UpsFirmware.Stm32.Balancing`: cell readings and the cell that is discharged

`bq76920_balance_cells` discharges a cell through a resistor when its voltage is above
`BAL_V_MV`. It goes by the readings of `bq76920_read_cells_v`, and a reading is an `int`
returned as a `uint16_t`. With a negative offset the `int` can be negative, and then a
dead cell reads as one of more than 65 V.

`exactCellV` is the `int` of a cell. `readsClipped_and_selectsAbove_iff` says that the
readings are right, and no cell at or below `BAL_V_MV` is ever selected, exactly when the
ADC value of every cell makes up for the offset.

`Cells.picked` is the cell that the balancing register selects. The last cell above
`BAL_V_MV` and above the cell in front of it is picked, and `picksHighest_iff` says for
which voltages that is a cell with the highest one.
-/

set_option autoImplicit false

namespace UpsFirmware.Stm32

/-- The four cells of the pack. -/
inductive Cell where
  | c0
  | c1
  | c2
  | c3
deriving DecidableEq, Repr

/-- The address of a cell in the chip. -/
def Cell.addr : Cell → UInt8
  | .c0 => CELL0
  | .c1 => CELL1
  | .c2 => CELL2
  | .c3 => CELL3

/-- The place of a cell in the order of the readings. -/
def Cell.index : Cell → Nat
  | .c0 => 0
  | .c1 => 1
  | .c2 => 2
  | .c3 => 3

def Cells.get (c : Cells) : Cell → UInt16
  | .c0 => c.c0
  | .c1 => c.c1
  | .c2 => c.c2
  | .c3 => c.c3

/-- The balancing register `bal` selects a cell. -/
def Selects (bal : UInt8) (i : Cell) : Prop := bal &&& (1 <<< i.addr) ≠ 0

instance (bal : UInt8) (i : Cell) : Decidable (Selects bal i) :=
  inferInstanceAs (Decidable (_ ≠ _))

/-- A register with one bit selects one cell. -/
theorem eq_of_selects {i j : Cell} (h : Selects (1 <<< j.addr) i) : i = j := by
  cases i <;> cases j <;> first | rfl | exact absurd rfl h

/-- The cell whose bit `bq76920_balance_cells` writes: the last comparison that holds
decides. -/
def Cells.picked (c : Cells) : Option Cell :=
  if c.c3 > BAL_V_MV ∧ c.c3 > c.c2 then some .c3
  else if c.c2 > BAL_V_MV ∧ c.c2 > c.c1 then some .c2
  else if c.c1 > BAL_V_MV ∧ c.c1 > c.c0 then some .c1
  else if c.c0 > BAL_V_MV then some .c0
  else none

/-- The register with the bit of a cell, or with none. -/
def balanceBit : Option Cell → UInt8
  | some j => 1 <<< j.addr
  | none => 0

theorem bq76920BalanceCells_eq (c : Cells) :
    bq76920BalanceCells c
      = (balanceBit c.picked, [.writeReg CELLBAL1 (balanceBit c.picked)]) := by
  have hbal : (bq76920BalanceCells c).1 = balanceBit c.picked := by
    simp only [bq76920BalanceCells, Cells.picked]
    split
    · rfl
    · split
      · rfl
      · split
        · rfl
        · split
          · rfl
          · rfl
  rw [← hbal]
  rfl

/-- Which cell is picked, and what its comparison and the ones behind it say. -/
theorem picked_cases (c : Cells) :
    (c.picked = some .c3 ∧ BAL_V_MV < c.c3 ∧ c.c2 < c.c3) ∨
    (c.picked = some .c2 ∧ BAL_V_MV < c.c2 ∧ c.c1 < c.c2 ∧ c.c3 ≤ c.c2) ∨
    (c.picked = some .c1 ∧ BAL_V_MV < c.c1 ∧ c.c0 < c.c1 ∧ c.c2 ≤ c.c1 ∧
      (c.c3 ≤ BAL_V_MV ∨ c.c3 ≤ c.c2)) ∨
    (c.picked = some .c0 ∧ BAL_V_MV < c.c0 ∧ c.c1 ≤ c.c0 ∧
      (c.c2 ≤ BAL_V_MV ∨ c.c2 ≤ c.c1) ∧ (c.c3 ≤ BAL_V_MV ∨ c.c3 ≤ c.c2)) ∨
    (c.picked = none ∧ c.c0 ≤ BAL_V_MV ∧ c.c1 ≤ BAL_V_MV ∧ c.c2 ≤ BAL_V_MV ∧
      c.c3 ≤ BAL_V_MV) := by
  by_cases h3 : c.c3 > BAL_V_MV ∧ c.c3 > c.c2
  · exact Or.inl ⟨if_pos h3, h3⟩
  · right
    by_cases h2 : c.c2 > BAL_V_MV ∧ c.c2 > c.c1
    · have hpicked : c.picked = some .c2 := by
        rw [Cells.picked, if_neg h3, if_pos h2]
      left
      simp only [UInt16.lt_iff_toNat_lt, UInt16.le_iff_toNat_le, gt_iff_lt] at h3 h2 ⊢
      exact ⟨hpicked, by omega⟩
    · right
      by_cases h1 : c.c1 > BAL_V_MV ∧ c.c1 > c.c0
      · have hpicked : c.picked = some .c1 := by
          rw [Cells.picked, if_neg h3, if_neg h2, if_pos h1]
        left
        simp only [UInt16.lt_iff_toNat_lt, UInt16.le_iff_toNat_le, gt_iff_lt] at h3 h2 h1 ⊢
        exact ⟨hpicked, by omega⟩
      · right
        by_cases h0 : c.c0 > BAL_V_MV
        · have hpicked : c.picked = some .c0 := by
            rw [Cells.picked, if_neg h3, if_neg h2, if_neg h1, if_pos h0]
          left
          simp only [UInt16.lt_iff_toNat_lt, UInt16.le_iff_toNat_le, gt_iff_lt] at h3 h2 h1 h0 ⊢
          exact ⟨hpicked, by omega⟩
        · -- No cell is above `BAL_V_MV`: the first one would be picked, or one behind it.
          have hpicked : c.picked = none := by
            rw [Cells.picked, if_neg h3, if_neg h2, if_neg h1, if_neg h0]
          right
          simp only [UInt16.lt_iff_toNat_lt, UInt16.le_iff_toNat_le, gt_iff_lt] at h3 h2 h1 h0 ⊢
          exact ⟨hpicked, by omega⟩

/-- The cell that is picked is above `BAL_V_MV`. -/
theorem lt_of_picked {c : Cells} {j : Cell} (h : c.picked = some j) : BAL_V_MV < c.get j := by
  rcases picked_cases c with ⟨hp, hc⟩ | ⟨hp, hc⟩ | ⟨hp, hc⟩ | ⟨hp, hc⟩ | ⟨hp, -⟩
  · cases hp.symm.trans h
    exact hc.1
  · cases hp.symm.trans h
    exact hc.1
  · cases hp.symm.trans h
    exact hc.1
  · cases hp.symm.trans h
    exact hc.1
  · cases hp.symm.trans h

/-- The balancing register is zero, or has the bit of one cell above `BAL_V_MV`. -/
theorem bq76920BalanceCells_cases (c : Cells) :
    (bq76920BalanceCells c).1 = 0 ∨
      ∃ j : Cell, (bq76920BalanceCells c).1 = 1 <<< j.addr ∧ BAL_V_MV < c.get j := by
  rw [bq76920BalanceCells_eq]
  cases h : c.picked with
  | none => exact Or.inl rfl
  | some j => exact Or.inr ⟨j, rfl, lt_of_picked h⟩

/-- A selected cell reads above `BAL_V_MV`. -/
theorem lt_of_selects {c : Cells} {i : Cell} (h : Selects (bq76920BalanceCells c).1 i) :
    BAL_V_MV < c.get i := by
  rcases bq76920BalanceCells_cases c with hzero | ⟨j, hbit, hlt⟩
  · rw [hzero] at h
    exact absurd UInt8.zero_and h
  · rw [hbit] at h
    rw [eq_of_selects h]
    exact hlt

/-! ### The cell that is picked -/

/-- Different cells have different bits. -/
theorem balanceBit_inj {p q : Option Cell} (h : balanceBit p = balanceBit q) : p = q := by
  cases p with
  | none =>
    cases q with
    | none => rfl
    | some j => cases j <;> exact absurd h (by decide)
  | some i =>
    cases q with
    | none => cases i <;> exact absurd h (by decide)
    | some j => cases i <;> cases j <;> first | rfl | exact absurd h (by decide)

/-- The highest cell is balanced. The function writes what it returns. That is zero
exactly when no cell is above `BAL_V_MV`, and otherwise the bit of a cell that is above
it and has the highest voltage. -/
def PicksHighest (c : Cells) : Prop :=
  (bq76920BalanceCells c).2 = [.writeReg CELLBAL1 (bq76920BalanceCells c).1] ∧
  ((bq76920BalanceCells c).1 = 0 ↔ ∀ i, c.get i ≤ BAL_V_MV) ∧
  ((∃ i, BAL_V_MV < c.get i) → ∃ j : Cell, (bq76920BalanceCells c).1 = 1 <<< j.addr ∧
    BAL_V_MV < c.get j ∧ ∀ i, c.get i ≤ c.get j)

/-- With no cell above `BAL_V_MV` none is picked, which is right. -/
theorem picksHighest_of_none {c : Cells} (h : c.picked = none) (hlow : ∀ i, c.get i ≤ BAL_V_MV) :
    PicksHighest c := by
  rw [PicksHighest, bq76920BalanceCells_eq, h]
  refine ⟨rfl, iff_of_true rfl hlow, ?_⟩
  rintro ⟨i, hi⟩
  exact absurd (hlow i) (UInt16.not_le.mpr hi)

/-- A picked cell is right exactly when its voltage is the highest. -/
theorem picksHighest_of_some {c : Cells} {j : Cell} (h : c.picked = some j) :
    PicksHighest c ↔ ∀ i, c.get i ≤ c.get j := by
  have hj := lt_of_picked h
  rw [PicksHighest, bq76920BalanceCells_eq, h]
  constructor
  · rintro ⟨-, -, hpick⟩
    obtain ⟨k, hbit, -, hmax⟩ := hpick ⟨j, hj⟩
    have hk : some j = some k := balanceBit_inj hbit
    rw [Option.some.injEq] at hk
    rw [hk]
    exact hmax
  · intro hmax
    have hne : balanceBit (some j) ≠ 0 := by
      intro h0
      cases balanceBit_inj (q := none) h0
    refine ⟨rfl, iff_of_false hne ?_, fun _ => ⟨j, rfl, hj, hmax⟩⟩
    intro hlow
    exact absurd (hlow j) (UInt16.not_le.mpr hj)

/-- A voltage is the highest when the four comparisons say so. -/
theorem get_le_iff (c : Cells) (v : UInt16) :
    (∀ i, c.get i ≤ v) ↔ c.c0 ≤ v ∧ c.c1 ≤ v ∧ c.c2 ≤ v ∧ c.c3 ≤ v := by
  constructor
  · intro h
    exact ⟨h .c0, h .c1, h .c2, h .c3⟩
  · intro h i
    cases i with
    | c0 => exact h.1
    | c1 => exact h.2.1
    | c2 => exact h.2.2.1
    | c3 => exact h.2.2.2

/-- The voltages with which the highest cell is picked. The last cell is not above
`BAL_V_MV` and its neighbour while one of the first two is higher, and the third cell is
not above `BAL_V_MV` and its two neighbours while the first one is higher. -/
def NoLaterRise (c : Cells) : Prop :=
  (BAL_V_MV < c.c3 → c.c2 < c.c3 → c.c0 ≤ c.c3 ∧ c.c1 ≤ c.c3) ∧
  (BAL_V_MV < c.c2 → c.c1 < c.c2 → c.c3 ≤ c.c2 → c.c0 ≤ c.c2)

/-- The highest cell is picked exactly with these voltages. Each comparison is with the
neighbour, not with the cell picked so far. -/
theorem picksHighest_iff (c : Cells) : PicksHighest c ↔ NoLaterRise c := by
  rcases picked_cases c with ⟨hp, hc⟩ | ⟨hp, hc⟩ | ⟨hp, hc⟩ | ⟨hp, hc⟩ | ⟨hp, hc⟩
  · rw [picksHighest_of_some hp, get_le_iff, NoLaterRise]
    simp only [Cells.get, UInt16.lt_iff_toNat_lt, UInt16.le_iff_toNat_le] at hc ⊢
    omega
  · rw [picksHighest_of_some hp, get_le_iff, NoLaterRise]
    simp only [Cells.get, UInt16.lt_iff_toNat_lt, UInt16.le_iff_toNat_le] at hc ⊢
    omega
  · -- The second cell is above the first one, and no cell behind it is higher.
    rw [picksHighest_of_some hp, get_le_iff, NoLaterRise]
    simp only [Cells.get, UInt16.lt_iff_toNat_lt, UInt16.le_iff_toNat_le] at hc ⊢
    omega
  · rw [picksHighest_of_some hp, get_le_iff, NoLaterRise]
    simp only [Cells.get, UInt16.lt_iff_toNat_lt, UInt16.le_iff_toNat_le] at hc ⊢
    omega
  · refine iff_of_true (picksHighest_of_none hp ((get_le_iff c _).mpr hc)) ?_
    rw [NoLaterRise]
    simp only [UInt16.lt_iff_toNat_lt, UInt16.le_iff_toNat_le] at hc ⊢
    omega

/-- The first cell at 4300 mV, the third one at 4250 mV: the third one is picked, because
the second one is lower. -/
theorem picksHighest_fails : ¬ ∀ c, PicksHighest c := by
  intro hall
  have hmax := (picksHighest_of_some (c := ⟨4300, 4210, 4250, 4100⟩) (j := .c2) (by decide)).mp
    (hall _)
  exact absurd (hmax .c0) (by decide)

section Readings

variable (cal : Calibration) (chip : Chip)

/-- The voltage of a cell before it is narrowed. -/
def exactCellV (i : Cell) : Int :=
  cellMillivolts cal (rawCell (chip.cellReads i.index) i.addr)

theorem get_bq76920ReadCellsV (i : Cell) :
    (bq76920ReadCellsV cal chip).get i = UInt16.ofInt (exactCellV cal chip i) := by
  cases i <;> rfl

/-- The range of the voltages. -/
theorem exactCellV_mem (i : Cell) :
    -128 ≤ exactCellV cal chip i ∧ exactCellV cal chip i < 65536 := by
  obtain ⟨v, hv⟩ : ∃ v, v = rawCell (chip.cellReads i.index) i.addr := ⟨_, rfl⟩
  have hoffset := offset_mem cal
  have hlt : v.toNat < 65536 := v.toNat_lt
  -- 16 bits and the largest gain
  have hmul : v.toNat * cal.adcGain.toNat ≤ 65535 * 396 :=
    Nat.mul_le_mul (by omega) cal.gain_le
  rw [exactCellV, ← hv, cellMillivolts_eq]
  omega

/-- Every cell reads as its voltage, and as zero if that is negative. -/
def ReadsClipped : Prop :=
  ∀ i, (((bq76920ReadCellsV cal chip).get i).toNat : Int) = max 0 (exactCellV cal chip i)

/-- A cell that is selected from these readings has a voltage above `BAL_V_MV`. -/
def SelectsAbove : Prop :=
  ∀ i, Selects (bq76920BalanceCells (bq76920ReadCellsV cal chip)).1 i →
    (BAL_V_MV.toNat : Int) < exactCellV cal chip i

/-- A reading is right exactly when the voltage is not negative. -/
theorem reads_eq_max_iff (i : Cell) :
    (((bq76920ReadCellsV cal chip).get i).toNat : Int) = max 0 (exactCellV cal chip i) ↔
      0 ≤ exactCellV cal chip i := by
  have hmem := exactCellV_mem cal chip i
  rw [get_bq76920ReadCellsV, toNat_ofInt]
  constructor
  · intro h
    by_contra hneg
    -- A negative voltage wraps to at least 65408, not to zero.
    omega
  · intro h
    omega

/-- The ADC value of every cell, scaled by the gain, makes up for the offset. -/
def OffsetCovered : Prop :=
  ∀ i : Cell, -cal.adcOffset.toInt * 1000 ≤
    ((rawCell (chip.cellReads i.index) i.addr).toNat * cal.adcGain.toNat : Int)

theorem offsetCovered_iff : OffsetCovered cal chip ↔ ∀ i, 0 ≤ exactCellV cal chip i := by
  refine forall_congr' fun i => ?_
  rw [exactCellV, cellMillivolts_eq]
  omega

/-- The readings are right, and only cells above `BAL_V_MV` are selected from them,
exactly when the ADC values make up for the offset. -/
theorem readsClipped_and_selectsAbove_iff :
    (ReadsClipped cal chip ∧ SelectsAbove cal chip) ↔ OffsetCovered cal chip := by
  rw [offsetCovered_iff]
  constructor
  · intro hlaw i
    exact (reads_eq_max_iff cal chip i).mp (hlaw.1 i)
  · intro hpos
    have hreads : ReadsClipped cal chip := fun i => (reads_eq_max_iff cal chip i).mpr (hpos i)
    refine ⟨hreads, ?_⟩
    intro i hselects
    have hlt : BAL_V_MV.toNat < ((bq76920ReadCellsV cal chip).get i).toNat :=
      UInt16.lt_iff_toNat_lt.mp (lt_of_selects hselects)
    have hread := hreads i
    have hi := hpos i
    omega

/-- Dead cells and an offset of -1 mV: every cell reads as 65535 mV, and the first one is
selected at a voltage of -1 mV. -/
theorem selectsAbove_fails :
    ¬ (∀ cal chip, ReadsClipped cal chip) ∧ ¬ ∀ cal chip, SelectsAbove cal chip := by
  constructor
  · intro hall
    have hpos := (reads_eq_max_iff _ _ .c0).mp
      (hall (Calibration.ofRegs 0xFF 0 0) (fun _ _ => 0) .c0)
    exact absurd hpos (by decide)
  · intro hall
    have hlt := hall (Calibration.ofRegs 0xFF 0 0) (fun _ _ => 0) .c0 (by decide)
    exact absurd hlt (by decide)

end Readings

end UpsFirmware.Stm32
