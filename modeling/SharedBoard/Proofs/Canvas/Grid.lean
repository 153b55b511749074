import SharedBoard.Canvas
import SharedBoard.Proofs.Rounding.Quotient

/-! Grids are lines at all multiples of a cell. A coordinate moves to the line nearest to it, as the
arithmetic of whole numbers has it, and a dropped thing lands at the position rounded to whole
numbers, or on the grid line nearest to that.
-/

namespace SharedBoard.Canvas

open Float.Model

-----------------------------------------------------------------------------------------
-- The nearest line
-----------------------------------------------------------------------------------------

/-- A line of the grid that no other one is nearer to the value than. Of two that are as near it is
the one farther away from zero.
-/
structure NearestLine (cell value line : Int) : Prop where
  isLine : cell ∣ line
  near : 2 * |line - value| ≤ cell
  awayFromZero : 2 * |line - value| = cell → |value| < |line|

/-- The line nearest to a value. -/
def lineNear (cell value : Int) : Int :=
  Rounding.nearestQuotient value cell * cell

variable {cell value other line : Int}

theorem NearestLine.neg (nearest : NearestLine cell value line)
    : NearestLine cell (-value) (-line) := by
  have distance : |-line - -value| = |line - value| := by
    rw [← abs_neg (line - value)]
    congr 1
    ring
  refine ⟨nearest.isLine.neg_right, ?_, ?_⟩ <;> rw [distance]
  · exact nearest.near
  · rw [abs_neg, abs_neg]
    exact nearest.awayFromZero

theorem nearestLine_of_nonneg (positive : 0 < cell) (nonneg : 0 ≤ value)
    : NearestLine cell value ((2 * value + cell) / (2 * cell) * cell) := by
  have low : 2 * ((2 * value + cell) / (2 * cell) * cell) ≤ 2 * value + cell := by
    linarith [Int.mul_ediv_self_le (x := 2 * value + cell) (k := 2 * cell) (by omega)]
  have high : 2 * value + cell < 2 * ((2 * value + cell) / (2 * cell) * cell) + 2 * cell := by
    linarith [Int.lt_mul_ediv_self_add (x := 2 * value + cell) (k := 2 * cell) (by omega)]
  have isLine : cell ∣ (2 * value + cell) / (2 * cell) * cell := dvd_mul_left ..
  generalize (2 * value + cell) / (2 * cell) * cell = line at *
  refine ⟨isLine, ?_, fun tie => ?_⟩
  · rcases abs_cases (line - value) with ⟨distance, _⟩ | ⟨distance, _⟩ <;> omega
  · have above : line - value = |line - value| := by
      rcases abs_cases (line - value) with ⟨distance, _⟩ | ⟨distance, _⟩ <;> omega
    rw [abs_of_nonneg nonneg, abs_of_nonneg (by omega)]
    omega

theorem nearestLine_lineNear (positive : 0 < cell) (value : Int)
    : NearestLine cell value (lineNear cell value) := by
  unfold lineNear Rounding.nearestQuotient
  split
  · next nonneg => exact nearestLine_of_nonneg positive nonneg
  · next negative =>
      have nonneg : 0 ≤ -value := by omega
      have opposite := (nearestLine_of_nonneg positive nonneg).neg
      rwa [neg_neg, mul_neg, ← neg_mul, ← neg_mul] at opposite

/-- Two lines are at least a cell apart. -/
theorem add_cell_le (isLine : cell ∣ line) (otherIsLine : cell ∣ other) (before : line < other)
    : line + cell ≤ other := by
  have distance := Int.le_of_dvd (by omega) (otherIsLine.sub isLine)
  omega

/-- There is only one nearest line. Between two of them the value would be half way, and both would
be farther from zero than the value, with zero on a line.
-/
theorem NearestLine.eq (nearest : NearestLine cell value line)
    (otherNearest : NearestLine cell value other)
    : line = other := by
  wlog ordered : line ≤ other generalizing line other
  · exact (this otherNearest nearest (by omega)).symm
  by_contra differ
  have apart := add_cell_le nearest.isLine otherNearest.isLine (by omega)
  have below := neg_abs_le (line - value)
  have above := le_abs_self (other - value)
  have near := nearest.near
  have otherNear := otherNearest.near
  have nearer := nearest.awayFromZero (by omega)
  have otherNearer := otherNearest.awayFromZero (by omega)
  rcases lt_or_ge line 0 with negative | nonneg
  · have otherNonpos := add_cell_le nearest.isLine (dvd_zero cell) negative
    rw [abs_of_nonpos (by omega : value ≤ 0), abs_of_nonpos (by omega : other ≤ 0)] at otherNearer
    omega
  · rw [abs_of_nonneg (by omega : 0 ≤ value), abs_of_nonneg nonneg] at nearer
    omega

theorem nearestLine_iff (positive : 0 < cell)
    : NearestLine cell value line ↔ line = lineNear cell value := by
  constructor
  · exact fun nearest => nearest.eq (nearestLine_lineNear positive value)
  · rintro rfl
    exact nearestLine_lineNear positive value

/-- A line of the grid is nearest to itself. -/
theorem lineNear_of_dvd (positive : 0 < cell) (isLine : cell ∣ line)
    : lineNear cell line = line := by
  refine ((nearestLine_iff positive).mp ⟨isLine, ?_, ?_⟩).symm <;> simp
  · exact positive.le
  · exact fun zero => absurd zero positive.ne

theorem lineNear_mono (positive : 0 < cell) (ordered : value ≤ other)
    : lineNear cell value ≤ lineNear cell other := by
  by_contra crossed
  have nearest := nearestLine_lineNear positive value
  have otherNearest := nearestLine_lineNear positive other
  have apart := add_cell_le otherNearest.isLine nearest.isLine (by omega)
  have near := nearest.near
  have otherNear := otherNearest.near
  have above := le_abs_self (lineNear cell value - value)
  have below := neg_abs_le (lineNear cell other - other)
  obtain rfl : value = other := by omega
  omega

theorem lineNear_nonneg (positive : 0 < cell) (nonneg : 0 ≤ value) : 0 ≤ lineNear cell value :=
  (lineNear_of_dvd positive (dvd_zero cell)).symm.trans_le (lineNear_mono positive nonneg)

-----------------------------------------------------------------------------------------
-- Snapping
-----------------------------------------------------------------------------------------

/-- A coordinate moves to the nearest line if that has 32 bits. -/
theorem toInt_snap {grid value : Int32} (positive : 0 < grid.toInt)
    (fits : Rounding.Fits (lineNear grid.toInt value.toInt))
    : (snap grid value).toInt = lineNear grid.toInt value.toInt := by
  have quotient : (Rounding.toInt32 (Rounding.ofInt32 value / Rounding.ofInt32 grid)).toInt
      = Rounding.nearestQuotient value.toInt grid.toInt := by
    rw [Rounding.toInt32, Rounding.toInt_div value positive]
    exact Rounding.toInt_saturate_of_fits (fits.of_mul positive)
  rw [snap, Rounding.toInt_mul_of_fits (by rwa [quotient]), quotient]
  rfl

theorem snap_snap {cell value : Int32} (positive : 0 < cell.toInt)
    (fits : Rounding.Fits (lineNear cell.toInt value.toInt))
    : snap cell (snap cell value) = snap cell value := by
  have moved := toInt_snap positive fits
  have isLine := (nearestLine_lineNear positive value.toInt).isLine
  have again : lineNear cell.toInt (snap cell value).toInt = (snap cell value).toInt := by
    rw [moved]
    exact lineNear_of_dvd positive isLine
  have againFits : Rounding.Fits (lineNear cell.toInt (snap cell value).toInt) :=
    again.symm ▸ Rounding.fits_toInt (snap cell value)
  rw [← Int32.toInt_inj, toInt_snap positive againFits, again]

theorem snap_mono {cell value other : Int32} (positive : 0 < cell.toInt)
    (fits : Rounding.Fits (lineNear cell.toInt value.toInt))
    (otherFits : Rounding.Fits (lineNear cell.toInt other.toInt)) (ordered : value ≤ other)
    : snap cell value ≤ snap cell other := by
  rw [Int32.le_iff_toInt_le, toInt_snap positive fits, toInt_snap positive otherFits]
  exact lineNear_mono positive (Int32.le_iff_toInt_le.mp ordered)

-----------------------------------------------------------------------------------------
-- Dropping
-----------------------------------------------------------------------------------------

/-- Where a coordinate lands without a grid: what is not a number at zero, and a number at the
nearest whole one, with everything below zero moved to zero and everything that does not have 32
bits to the greatest that does. A half goes up, which is away from zero here.
-/
def landing (value : Float) : Int :=
  match value.toModel.unpack with
  | .notANumber => 0
  | .infinity .negative => 0
  | .infinity .positive => Rounding.greatest
  | .zero _ => 0
  | .finite sign mantissa exponent _ =>
      min Rounding.greatest (round (max 0 ((sign.apply mantissa : ℚ) * 2 ^ exponent)))

theorem zero_lt_iff (value : Float)
    : 0.0 < value ↔ (UnpackedFloat.zero .positive).compare value.toModel.unpack = some .lt := by
  rw [← beq_iff_eq]
  exact decide_eq_true_iff

variable {value : Float}

/-- What is not above zero lands at zero, numbers or not. -/
theorem toInt_clamp_of_not
    (notPositive : (UnpackedFloat.zero .positive).compare value.toModel.unpack ≠ some .lt)
    : (Rounding.toInt32 (clamp value)).toInt = 0 := by
  rw [clamp, if_neg (mt (zero_lt_iff value).mp notPositive)]
  rfl

theorem toInt_clamp_of_pos
    (positive : (UnpackedFloat.zero .positive).compare value.toModel.unpack = some .lt)
    : (Rounding.toInt32 (clamp value)).toInt
      = max Rounding.least (min Rounding.greatest (Rounding.toInt value)) := by
  rw [clamp, if_pos ((zero_lt_iff value).mpr positive), Rounding.toInt32, Rounding.toInt_saturate]

/-- A coordinate lands where its exact value does, by cases on the kind of double. -/
theorem toInt_clamp (value : Float)
    : (Rounding.toInt32 (clamp value)).toInt = landing value := by
  unfold landing
  cases unpacked : value.toModel.unpack with
  | notANumber => exact toInt_clamp_of_not (by simp [unpacked, UnpackedFloat.compare])
  | infinity sign =>
      cases sign with
      | negative => exact toInt_clamp_of_not (by simp [unpacked, UnpackedFloat.compare])
      | positive =>
          rw [toInt_clamp_of_pos (by rw [unpacked]; rfl), Rounding.toInt, unpacked]
          rfl
  | zero sign => exact toInt_clamp_of_not (by simp [unpacked, UnpackedFloat.compare])
  | finite sign mantissa exponent positive =>
      have exact : 0 ≤ (mantissa : ℚ) * 2 ^ exponent := by positivity
      cases sign with
      | negative =>
          have below : ((-(mantissa : Int) : Int) : ℚ) * 2 ^ exponent ≤ 0 := by
            push_cast
            linarith
          rw [toInt_clamp_of_not (by simp [unpacked, UnpackedFloat.compare])]
          change 0 = min Rounding.greatest (round (max 0 (((-(mantissa : Int) : Int) : ℚ) * _)))
          rw [max_eq_left below, round_zero]
          rfl
      | positive =>
          rw [toInt_clamp_of_pos (by rw [unpacked]; rfl), Rounding.toInt, unpacked]
          change max Rounding.least (min Rounding.greatest (Rounding.nearest mantissa exponent))
            = min Rounding.greatest (round (max 0 (((mantissa : Int) : ℚ) * 2 ^ exponent)))
          rw [Int.cast_natCast, max_eq_right exact, ← Rounding.nearest_eq_round]
          unfold Rounding.least Rounding.greatest
          omega

theorem landing_nonneg (value : Float) : 0 ≤ landing value := by
  unfold landing
  split
  · exact le_rfl
  · exact le_rfl
  · decide
  · exact le_rfl
  · refine le_min (by decide) ?_
    rw [round_eq]
    exact Int.floor_nonneg.mpr (by positivity)

/-- Where a coordinate lands on a grid: on the line nearest to where it lands without, if that has
32 bits.
-/
def LandsOn (cell : Int32) (value : Float) (landed : Int32) : Prop :=
  Rounding.Fits (lineNear cell.toInt (landing value))
  → landed.toInt = lineNear cell.toInt (landing value)
    ∧ cell.toInt ∣ landed.toInt
    ∧ 0 ≤ landed

theorem landsOn_snap {cell : Int32} (positive : 0 < cell.toInt) (value : Float)
    : LandsOn cell value (snap cell (Rounding.toInt32 (clamp value))) := by
  intro fits
  have nearest := nearestLine_lineNear positive (landing value)
  rw [← toInt_clamp] at fits
  have moved := toInt_snap positive fits
  rw [toInt_clamp] at moved
  refine ⟨moved, moved ▸ nearest.isLine, ?_⟩
  rw [Int32.le_iff_toInt_le, moved, Int32.toInt_zero]
  exact lineNear_nonneg positive (landing_nonneg value)

/-- The coordinates of a position move to a grid one by one. If the line nearest to one has 32 bits
it moves there: to a multiple of the cell that is at most half a cell away, away from zero if it is
half way between two. A coordinate on a line stays there, and no two coordinates change their order.
Where a thing is dropped it lands at its position rounded to whole numbers, with nothing below zero
and nothing beyond 32 bits, and with a grid on the line nearest to that.
-/
theorem snapping_is_nearest
    : (∀ x y cell : Int32, snapToGrid x y cell = (snap cell x, snap cell y))
      ∧ (∀ cell value : Int32, 0 < cell → Rounding.Fits (lineNear cell.toInt value.toInt) →
          (snap cell value).toInt = lineNear cell.toInt value.toInt
          ∧ (∀ line, NearestLine cell.toInt value.toInt line ↔ line = (snap cell value).toInt)
          ∧ snap cell (snap cell value) = snap cell value
          ∧ ∀ other, value ≤ other → Rounding.Fits (lineNear cell.toInt other.toInt) →
              snap cell value ≤ snap cell other)
      ∧ ∀ (x y : Float) (grid : Option Int32),
          let landed := dropPosition x y grid
          ((∀ cell ∈ grid, ¬ 0 < cell) →
            landed.1.toInt = landing x
            ∧ landed.2.toInt = landing y
            ∧ 0 ≤ landed.1
            ∧ 0 ≤ landed.2)
          ∧ ∀ cell ∈ grid, 0 < cell → LandsOn cell x landed.1 ∧ LandsOn cell y landed.2 := by
  refine ⟨fun _ _ _ => rfl, fun cell value positive fits => ?_, fun x y grid => ⟨?_, ?_⟩⟩
  · have cellPositive := Int32.lt_iff_toInt_lt.mp positive
    have moved := toInt_snap cellPositive fits
    refine ⟨moved, fun line => ?_, snap_snap cellPositive fits, fun other ordered otherFits =>
      snap_mono cellPositive fits otherFits ordered⟩
    rw [moved]
    exact nearestLine_iff cellPositive
  · intro without
    have unsnapped : dropPosition x y grid
        = (Rounding.toInt32 (clamp x), Rounding.toInt32 (clamp y)) := by
      cases grid with
      | none => rfl
      | some cell => exact if_neg (without cell rfl)
    rw [unsnapped, Int32.le_iff_toInt_le, Int32.le_iff_toInt_le, toInt_clamp, toInt_clamp]
    exact ⟨rfl, rfl, landing_nonneg x, landing_nonneg y⟩
  · rintro cell rfl positive
    have snapped : dropPosition x y (some cell)
        = snapToGrid (Rounding.toInt32 (clamp x)) (Rounding.toInt32 (clamp y)) cell :=
      if_pos positive
    have cellPositive := Int32.lt_iff_toInt_lt.mp positive
    rw [snapped]
    exact ⟨landsOn_snap cellPositive x, landsOn_snap cellPositive y⟩

/-- Half way between two lines a coordinate below zero moves to the lower one, and close to the
greatest number of 32 bits one moves to the last line that has 32 bits. A thing that is dropped
beside the canvas lands on its edge.
-/
theorem snapping_is_nearest_halfWay
    : (0 : Int32) < 32
      ∧ Rounding.Fits (lineNear 32 (-48))
      ∧ Rounding.Fits (lineNear 32 2147483631)
      ∧ (snap 32 (-48)).toInt = -64
      ∧ NearestLine 32 (-48) (-64)
      ∧ snap 32 (-48) ≤ snap 32 2147483631
      ∧ landing (-40.0) = 0
      ∧ landing 50.0 = 50
      ∧ (dropPosition (-40.0) 50.0 (some 32)).1.toInt = 0
      ∧ (dropPosition (-40.0) 50.0 (some 32)).2.toInt = 64 := by
  obtain ⟨_, snapping, dropping⟩ := snapping_is_nearest
  have positive : (0 : Int32) < 32 := by decide
  have fits : Rounding.Fits (lineNear 32 (-48)) := by decide
  have otherFits : Rounding.Fits (lineNear 32 2147483631) := by decide
  obtain ⟨moved, nearest, _, ordered⟩ := snapping 32 (-48) positive fits
  obtain ⟨onEdge, within, _⟩ := (dropping (-40.0) 50.0 none).1 nofun
  have edge : landing (-40.0) = 0 := by rw [← onEdge]; decide
  have inside : landing 50.0 = 50 := by rw [← within]; decide
  obtain ⟨edgeLine, insideLine⟩ := (dropping (-40.0) 50.0 (some 32)).2 32 rfl positive
  rw [LandsOn, edge] at edgeLine
  rw [LandsOn, inside] at insideLine
  have line : (snap 32 (-48)).toInt = -64 := by rw [moved]; decide
  exact ⟨positive, fits, otherFits, line, (nearest _).mpr line.symm,
    ordered _ (by decide) otherFits, edge, inside, (edgeLine (by decide)).1,
    (insideLine (by decide)).1⟩

end SharedBoard.Canvas
