import Exemplar.Decimal.Literal
import Exemplar.Proofs.Decimal.Shortest

/-!
# Rounding to places

A number is rounded by the decimal that it is written with and an integer by itself: in
units of the last place to the nearest integer, away from zero at a tie, which has at most
28 digits or there is no result. The result is the number nearest to so many units, and it
keeps the sign also where nothing is left.
-/

namespace Exemplar

open Double (RoundsTo ofRank rankOfDecimal roundsTo_rankOfDecimal unitsPerOne withSign)

namespace Decimal

/-- The nearest integer to an amount, of two the one that is farther from zero. -/
structure NearestAway (integer : ℤ) (amount : ℚ) : Prop where
  le_half : |(integer : ℚ) - amount| ≤ 1 / 2
  away : |(integer : ℚ) - amount| = 1 / 2 → |amount| < |(integer : ℚ)|

theorem nearestAway_neg {integer : ℤ} {amount : ℚ} (hnearest : NearestAway integer amount) :
    NearestAway (-integer) (-amount) := by
  obtain ⟨hle, haway⟩ := hnearest
  have hdistance : |((-integer : ℤ) : ℚ) - -amount| = |(integer : ℚ) - amount| := by
    rw [← abs_neg]
    congr 1
    push_cast
    ring
  refine ⟨hdistance ▸ hle, fun htie => ?_⟩
  rw [Int.cast_neg, abs_neg, abs_neg]
  exact haway (hdistance ▸ htie)

theorem nearestAway_floor {amount : ℚ} (hnonneg : 0 ≤ amount) :
    NearestAway ⌊amount + 1 / 2⌋ amount := by
  have hle := Int.floor_le (amount + 1 / 2)
  have hlt := Int.lt_floor_add_one (amount + 1 / 2)
  have hpos : (0 : ℚ) ≤ ⌊amount + 1 / 2⌋ := by exact_mod_cast floor_half_nonneg hnonneg
  generalize ⌊amount + 1 / 2⌋ = integer at hle hlt hpos
  refine ⟨abs_le.mpr ⟨by linarith, by linarith⟩, fun htie => ?_⟩
  rw [abs_of_nonneg hnonneg, abs_of_nonneg hpos]
  rcases (abs_eq (by norm_num)).mp htie with heq | heq <;> linarith

theorem nearestAway_halfAway (amount : ℚ) : NearestAway (halfAway amount) amount := by
  rcases le_total 0 amount with hpos | hneg
  · rw [halfAway_of_nonneg hpos]
    exact nearestAway_floor hpos
  · have hopposite := nearestAway_neg (nearestAway_floor (neg_nonneg.mpr hneg))
    have heq := halfAway_neg_of_nonneg (neg_nonneg.mpr hneg)
    rw [neg_neg] at hopposite heq
    rwa [heq]

/-- There is only one nearest integer. -/
theorem NearestAway.eq {integer other : ℤ} {amount : ℚ} (hnearest : NearestAway integer amount)
    (hother : NearestAway other amount) : integer = other := by
  have hnotLess {integer other : ℤ} (hnearest : NearestAway integer amount)
      (hother : NearestAway other amount) : ¬integer < other := by
    intro hlt
    have hgap : (integer + 1 : ℚ) ≤ other := by exact_mod_cast hlt
    have hlow := neg_le_of_abs_le hnearest.le_half
    have hhigh := le_of_abs_le hother.le_half
    have heq : (integer : ℚ) - amount = -(1 / 2) := by linarith
    have heq' : (other : ℚ) - amount = 1 / 2 := by linarith
    -- at a tie only one of the two is farther from zero
    rcases lt_or_ge integer 0 with hneg | hnonneg
    · have haway := hother.away (by rw [heq', abs_of_pos (by norm_num)])
      have hinteger : (integer : ℚ) ≤ -1 := by exact_mod_cast Int.le_sub_one_of_lt hneg
      rw [abs_of_neg (show amount < 0 by linarith),
        abs_of_nonpos (show (other : ℚ) ≤ 0 by linarith)] at haway
      linarith
    · have haway := hnearest.away (by rw [heq, abs_neg, abs_of_pos (by norm_num)])
      have hinteger : (0 : ℚ) ≤ integer := by exact_mod_cast hnonneg
      rw [abs_of_pos (show 0 < amount by linarith), abs_of_nonneg hinteger] at haway
      linarith
  exact le_antisymm (not_lt.mp (hnotLess hother hnearest)) (not_lt.mp (hnotLess hnearest hother))

/-- Rounding an amount with a sign to places: its nearest integer in units of the last place has at
most 28 digits, or there is no result; and the result is the number nearest to so many units, with
an even rank at a tie and infinite where the rank is that of no number, of the same sign. -/
structure RoundsAt (negative : Bool) (amount : ℚ) (places : Int) (magnitude : Nat)
    (result : Except Fault Double) : Prop where
  nearest : NearestAway (withSign negative magnitude) (amount * 10 ^ places)
  refused : 10 ^ 28 ≤ magnitude → result = .error .invalidDecimal
  rounded : magnitude < 10 ^ 28 → ∃ rank, result = .ok (ofRank negative rank) ∧
    RoundsTo (magnitude * 10 ^ (-places) * unitsPerOne) rank

theorem coefficientAt_eq_error {decimal : Decimal} {places : Int} {digits : Nat}
    (hroom : roomAt places = digits)
    (hfull : ¬amount decimal.coefficient (decimal.exponent + places) + 1 / 2 <
      (10 ^ digits : Nat)) :
    decimal.coefficientAt places = .error .invalidDecimal := by
  have hnone (coefficient : Nat) : decimal.coefficientAt places ≠ .ok coefficient :=
    fun heq => hfull ((coefficientAt_eq_ok hroom).mp heq).1
  unfold coefficientAt at hnone ⊢
  dsimp only at hnone ⊢
  split
  next hsmall => exact absurd (if_pos hsmall) (hnone 0)
  next hlarge =>
  split
  next => rfl
  next hroomy =>
  rw [if_neg hlarge, if_neg hroomy] at hnone
  split
  next hfits => exact absurd (if_pos hfits) (hnone _)
  next => rfl

/-- Few places are neither refused nor cut, and leave room for all digits of the precision. -/
theorem placesFor_of_le {places : Int} (hplaces : places.natAbs ≤ 100000) :
    placesFor places = .ok places ∧ roomAt places = (28 : Nat) := by
  refine ⟨?_, ?_⟩
  · unfold placesFor placesLimit greatestPlace leastPlace
    rw [if_neg (by omega), if_neg (by omega), min_eq_left (by omega)]
  · unfold roomAt precision greatestPlace
    omega

theorem roundsAt_round (decimal : Decimal) {places : Int} (hplaces : places.natAbs ≤ 100000) :
    ∃ magnitude,
      RoundsAt decimal.negative decimal.value places magnitude (decimal.round places) := by
  obtain ⟨hplaces, hroom⟩ := placesFor_of_le hplaces
  have hround : decimal.round places = decimal.coefficientAt places >>= fun coefficient =>
      .ok (Double.ofDecimal decimal.negative coefficient (-places)) := by
    rw [round, hplaces]
    rfl
  have hhalfAway := halfAway_value { decimal with exponent := decimal.exponent + places }
  have hfloor := @Nat.floor_lt ℚ _ _ _
    (amount decimal.coefficient (decimal.exponent + places) + 1 / 2) (10 ^ 28)
    (add_nonneg (amount_nonneg _ _) (by norm_num))
  refine ⟨⌊amount decimal.coefficient (decimal.exponent + places) + 1 / 2⌋₊, ?_, ?_, ?_⟩
  · rw [value_mul_zpow, ← hhalfAway]
    exact nearestAway_halfAway _
  · intro hlarge
    rw [hround, coefficientAt_eq_error hroom fun hfits => not_le.mpr (hfloor.mpr hfits) hlarge]
    rfl
  · intro hsmall
    rw [hround, (coefficientAt_eq_ok hroom).mpr ⟨hfloor.mp hsmall, rfl⟩]
    exact ⟨_, congrArg Except.ok (Double.ofDecimal_eq _ _ _), roundsTo_rankOfDecimal _ _⟩

theorem value_ofInt (n : ℤ) : (ofInt n).value = n := by
  have hsign : withSign (n < 0) n.natAbs = n := by
    unfold withSign
    split
    next hneg => rw [Int.ofNat_natAbs_of_nonpos (of_decide_eq_true hneg).le, neg_neg]
    next hnonneg => exact Int.natAbs_of_nonneg (not_lt.mp (by simpa using hnonneg))
  rw [value_eq, ofInt, zpow_zero, mul_one, hsign]

end Decimal

open Decimal (RoundsAt IsShortest)

/-- What is rounded, and to what: a finite number by the only decimal that it can be written with
and an integer of printable length by itself, while an infinity has no rounded value and NaN
stays. -/
theorem round_exact {places : Int} (hplaces : places.natAbs ≤ 100000) :
    (∀ (negative : Bool) (rank : Fin rankBound),
      ∃ decimal : Decimal, decimal.IsShortest negative rank ∧
        (∀ other : Decimal, other.IsShortest negative rank → other.value = decimal.value) ∧
        ∃ magnitude, RoundsAt negative decimal.value places magnitude
          ((Json.float (.finite negative rank)).round (.int places))) ∧
    (∀ n : Int, n.natAbs < 10 ^ 4300 →
      ∃ magnitude, RoundsAt (n < 0) n places magnitude ((Json.int n).round (.int places))) ∧
    (∀ negative : Bool,
      (Json.float (.infinite negative)).round (.int places) = .error .invalidDecimal) ∧
    (Json.float .nan).round (.int places) = .ok .nan := by
  have hjson (value : Double) : (Json.float value).round (.int places) = value.round places := rfl
  refine ⟨fun negative rank => ?_, fun n _ => ?_, fun negative => ?_, ?_⟩
  · obtain ⟨magnitude, hround⟩ := (Double.shortest negative rank).roundsAt_round hplaces
    rw [Double.negative_shortest] at hround
    exact ⟨_, Double.isShortest_shortest negative rank, fun other hother => hother.value_eq,
      magnitude, hround⟩
  · obtain ⟨magnitude, hround⟩ := (Decimal.ofInt n).roundsAt_round hplaces
    rw [Decimal.value_ofInt] at hround
    exact ⟨magnitude, hround⟩
  · rw [hjson, Double.round, (Decimal.placesFor_of_le hplaces).1]
    rfl
  · rw [hjson, Double.round, (Decimal.placesFor_of_le hplaces).1]
    rfl

/-- Half a unit goes away from zero, and what is half a unit is told by the decimal: the number
written as `1.005` lies below it. -/
theorem round_exact_sample :
    (∃ magnitude, RoundsAt true (-15 : ℤ) (-1) magnitude ((Json.int (-15)).round (.int (-1)))) ∧
      (Json.int (-15)).round (.int (-1)) = .ok (.ofDecimal true 20 0) ∧
      (Json.float (.ofDecimal false 1005 (-3))).round (.int 2) =
        .ok (.ofDecimal false 101 (-2)) := by
  refine ⟨?_, by decide +kernel, by decide +kernel⟩
  have hround := (@round_exact (-1) (by decide)).2.1 (-15) (by decide +kernel)
  rwa [decide_eq_true (by decide)] at hround

end Exemplar
