import Exemplar.Proofs.Decimal.Reading
import Exemplar.Proofs.Double.Order
import Mathlib.Algebra.Order.Floor.Semifield
import Mathlib.Data.Rat.Floor

/-!
# Rounding to places keeps order

A floating-point number is rounded to places in three stages: it is written as its
shortest decimal, the amount of this is rounded to a multiple of a power of ten, and
the result is read as a floating-point number. Each stage keeps the order of numbers,
and so does the whole. A number without room for its rounded decimal stays in place
between those that have it, so that the order extends to all finite numbers.
-/

namespace Exemplar

open Double (rounded rounded_mono rounded_neg rounded_of_nonneg magnitudeRank_eq rankOfDecimal
  roundsTo_rankOfDecimal signedUnits unitsOfRank unitsPerOne unitsPerOne_pos withSign)

/-! ## The order of decimals and of what they are read as -/

namespace Double

theorem withSign_le (negative : Bool) (magnitude : Nat) :
    withSign negative magnitude ≤ magnitude := by
  cases negative
  · exact le_rfl
  · exact (Int.neg_nonpos_of_nonneg (Int.natCast_nonneg _)).trans (Int.natCast_nonneg _)

theorem neg_le_withSign (negative : Bool) (magnitude : Nat) :
    -(magnitude : ℤ) ≤ withSign negative magnitude := by
  cases negative
  · exact (Int.neg_nonpos_of_nonneg (Int.natCast_nonneg _)).trans (Int.natCast_nonneg _)
  · exact le_rfl

/-- Numbers by sign and rank are in the order of the signed magnitudes, also where a rank lies
beyond all finite ones. -/
theorem withSign_lt_of_extent_lt {negative negative' : Bool} {rank rank' : Nat}
    (hlt : (ofRank negative rank).extent.lt (ofRank negative' rank').extent = true) :
    withSign negative (unitsOfRank rank) < withSign negative' (unitsOfRank rank') := by
  have hbeyond {low high : Nat} (hlow : low < rankBound) (hhigh : ¬ high < rankBound) :
      (unitsOfRank low : ℤ) < unitsOfRank high := by
    exact_mod_cast unitsOfRank_strictMono (hlow.trans_le (Nat.le_of_not_lt hhigh))
  unfold ofRank at hlt
  split at hlt
  next hrank =>
    split at hlt
    next => exact of_decide_eq_true hlt
    next hrank' =>
      cases negative' with
      | true => cases hlt
      | false => exact (withSign_le _ _).trans_lt (hbeyond hrank hrank')
  next hrank =>
    cases negative with
    | false => split at hlt <;> cases negative' <;> cases hlt
    | true =>
        split at hlt
        next hrank' =>
          exact (neg_lt_neg (hbeyond hrank' hrank)).trans_le (neg_le_withSign _ _)
        next hrank' =>
          cases negative' with
          | true => cases hlt
          | false =>
              have hpos := hbeyond (show 0 < rankBound by decide) hrank'
              exact (Int.neg_nonpos_of_nonneg (Int.natCast_nonneg _)).trans_lt
                ((Int.natCast_nonneg _).trans_lt hpos)

end Double

namespace Decimal

theorem amount_nonneg (coefficient : Nat) (exponent : Int) : 0 ≤ amount coefficient exponent :=
  mul_nonneg (Nat.cast_nonneg _) (zpow_nonneg (by norm_num) _)

/-- What a decimal stands for, with its sign. -/
def value (decimal : Decimal) : ℚ :=
  if decimal.negative then -amount decimal.coefficient decimal.exponent
  else amount decimal.coefficient decimal.exponent

/-- The value of a decimal is rounded to the magnitude that it is read as. -/
theorem rounded_value (decimal : Decimal) :
    rounded (decimal.value * unitsPerOne) =
      withSign decimal.negative
        (unitsOfRank (rankOfDecimal decimal.coefficient decimal.exponent)) := by
  obtain ⟨negative, coefficient, exponent⟩ := decimal
  have hnonneg : (0 : ℚ) ≤ amount coefficient exponent * unitsPerOne :=
    mul_nonneg (amount_nonneg _ _) (Nat.cast_nonneg _)
  have hmagnitude : rounded (amount coefficient exponent * unitsPerOne) =
      unitsOfRank (rankOfDecimal coefficient exponent) := by
    rw [rounded_of_nonneg hnonneg, magnitudeRank_eq]
    rw [abs_of_nonneg hnonneg]
    exact roundsTo_rankOfDecimal coefficient exponent
  cases negative with
  | false => exact hmagnitude
  | true =>
      simp only [value, if_true, neg_mul, rounded_neg, hmagnitude]
      rfl

/-- Of two decimals in order, the first is not read as the greater number. -/
theorem toDouble_not_lt {decimal decimal' : Decimal} (hle : decimal.value ≤ decimal'.value) :
    decimal'.toDouble.extent.lt decimal.toDouble.extent = false := by
  rw [Bool.eq_false_iff]
  intro hlt
  rw [toDouble, toDouble, Double.ofDecimal_eq, Double.ofDecimal_eq] at hlt
  have hless := Double.withSign_lt_of_extent_lt hlt
  rw [← rounded_value, ← rounded_value, ← not_le] at hless
  exact hless (rounded_mono (mul_le_mul_of_nonneg_right hle (Nat.cast_nonneg _)))

end Decimal

namespace Double

theorem rounded_value_shortest (negative : Bool) (rank : Fin rankBound) :
    rounded ((shortest negative rank).value * unitsPerOne) = signedUnits negative rank := by
  have hread := toDouble_shortest negative rank
  rw [Decimal.toDouble, ofDecimal_eq, negative_shortest] at hread
  have hrank := @eq_of_ofRank negative rank _ rank.isLt
    (hread.trans (by rw [ofRank, dif_pos rank.isLt]))
  rw [Decimal.rounded_value, hrank, negative_shortest, signedUnits]

theorem value_shortest_congr {negative negative' : Bool} {rank rank' : Fin rankBound}
    (hunits : signedUnits negative rank = signedUnits negative' rank') :
    (shortest negative rank).value = (shortest negative' rank').value := by
  by_cases hzero : signedUnits negative' rank' = 0
  · have hnone {negative : Bool} {rank : Fin rankBound} (hzero : signedUnits negative rank = 0) :
        (shortest negative rank).value = 0 := by
      have habs := natAbs_signedUnits negative rank
      rw [hzero, Int.natAbs_zero, ← unitsOfRank_zero] at habs
      rw [shortest, if_pos (unitsOfRank_strictMono.injective habs).symm]
      simp [Decimal.value, Decimal.amount]
    rw [hnone hzero, hnone (hunits.trans hzero)]
  · have heq : finite negative rank = finite negative' rank' :=
      eq_of_extent hzero (congrArg Extent.units hunits) rfl
    cases heq
    rfl

/-- Shortest decimals are in the order of the numbers that they are read as. -/
theorem value_shortest_mono {negative negative' : Bool} {rank rank' : Fin rankBound}
    (hle : signedUnits negative rank ≤ signedUnits negative' rank') :
    (shortest negative rank).value ≤ (shortest negative' rank').value := by
  by_contra hlt
  have hreverse := rounded_mono (mul_le_mul_of_nonneg_right (not_le.mp hlt).le
    (Nat.cast_nonneg unitsPerOne))
  rw [rounded_value_shortest, rounded_value_shortest] at hreverse
  exact hlt (value_shortest_congr (le_antisymm hle hreverse)).le

end Double

/-! ## Rounding of amounts -/

namespace Decimal

/-- The nearest integer, a half going away from zero. -/
def halfAway (amount : ℚ) : ℤ := if amount < 0 then -⌊-amount + 1 / 2⌋ else ⌊amount + 1 / 2⌋

theorem halfAway_of_nonneg {amount : ℚ} (hnonneg : 0 ≤ amount) :
    halfAway amount = ⌊amount + 1 / 2⌋ := if_neg (not_lt.mpr hnonneg)

theorem halfAway_neg_of_nonneg {amount : ℚ} (hnonneg : 0 ≤ amount) :
    halfAway (-amount) = -⌊amount + 1 / 2⌋ := by
  rcases hnonneg.eq_or_lt with rfl | hpos
  · norm_num [halfAway]
  · rw [halfAway, if_pos (neg_lt_zero.mpr hpos), neg_neg]

theorem floor_half_nonneg {amount : ℚ} (hnonneg : 0 ≤ amount) : 0 ≤ ⌊amount + 1 / 2⌋ :=
  Int.floor_nonneg.mpr (by linarith)

theorem halfAway_mono {amount amount' : ℚ} (hle : amount ≤ amount') :
    halfAway amount ≤ halfAway amount' := by
  unfold halfAway
  split
  next hneg =>
    have hsmall : ⌊-amount' + 1 / 2⌋ ≤ ⌊-amount + 1 / 2⌋ := Int.floor_mono (by linarith)
    have hnonneg := floor_half_nonneg (neg_nonneg.mpr hneg.le)
    split
    next => omega
    next hnonneg' =>
      have := floor_half_nonneg (not_lt.mp hnonneg')
      omega
  next hnonneg =>
    rw [if_neg (not_lt.mpr ((not_lt.mp hnonneg).trans hle))]
    exact Int.floor_mono (by linarith)

theorem abs_halfAway (amount : ℚ) : |halfAway amount| = ⌊|amount| + 1 / 2⌋ := by
  have hnonneg := floor_half_nonneg (abs_nonneg amount)
  rcases le_total 0 amount with hpos | hneg
  · rw [abs_of_nonneg hpos] at hnonneg ⊢
    rw [halfAway_of_nonneg hpos, abs_of_nonneg hnonneg]
  · have hopposite := halfAway_neg_of_nonneg (neg_nonneg.mpr hneg)
    rw [neg_neg] at hopposite
    rw [abs_of_nonpos hneg] at hnonneg ⊢
    rw [hopposite, abs_neg, abs_of_nonneg hnonneg]

/-- What has room below a limit is rounded to an integer below it. -/
theorem abs_halfAway_add_one_le {limit : Nat} {amount : ℚ} (hroom : |amount| + 1 / 2 < limit) :
    |(halfAway amount : ℚ)| + 1 ≤ limit := by
  have hfloor : |halfAway amount| < (limit : ℤ) := by
    rw [abs_halfAway]
    exact Int.floor_lt.mpr (by exact_mod_cast hroom)
  exact_mod_cast hfloor

/-- An amount, rounded to an integer if there is room for it below a limit. -/
def settle (limit : Nat) (amount : ℚ) : ℚ :=
  if |amount| + 1 / 2 < limit then halfAway amount else amount

/-- Without room, an amount keeps its place before or after all amounts that have room. -/
theorem settle_mono {limit : Nat} {amount amount' : ℚ} (hle : amount ≤ amount') :
    settle limit amount ≤ settle limit amount' := by
  unfold settle
  split
  next hroom =>
    split
    next hroom' => exact_mod_cast halfAway_mono hle
    next hfull' =>
      have hrounded := abs_halfAway_add_one_le hroom
      have hself := le_abs_self (halfAway amount : ℚ)
      rcases le_total 0 amount' with hpos | hneg
      · rw [abs_of_nonneg hpos] at hfull'
        linarith
      · rw [abs_of_nonpos hneg] at hfull'
        have := neg_abs_le amount
        linarith
  next hfull =>
    split
    next hroom' =>
      have hrounded := abs_halfAway_add_one_le hroom'
      have hself := neg_abs_le (halfAway amount' : ℚ)
      rcases le_total 0 amount with hpos | hneg
      · rw [abs_of_nonneg hpos] at hfull
        have := le_abs_self amount'
        linarith
      · rw [abs_of_nonpos hneg] at hfull
        linarith
    next => exact hle

theorem halfAway_intCast (n : ℤ) : halfAway n = n := by
  have hfloor (n : ℤ) : ⌊(n : ℚ) + 1 / 2⌋ = n := by
    rw [Int.floor_intCast_add]
    norm_num
  unfold halfAway
  split
  next => rw [← Int.cast_neg, hfloor, neg_neg]
  next => exact hfloor n

theorem settle_intCast (limit : Nat) (n : ℤ) : settle limit n = n := by
  unfold settle
  split
  next => rw [halfAway_intCast]
  next => rfl

/-! ## Rounding of decimals -/

theorem lt_pow_length_repr (n : Nat) : n < 10 ^ n.repr.length :=
  (Nat.length_repr_le_iff n.length_repr_pos).mp le_rfl

/-- An amount of which even the leading digit lies below the first place after the point. -/
theorem amount_lt_half {coefficient : Nat} {shift : Int}
    (hsmall : coefficient = 0 ∨ (coefficient.repr.length : Int) + shift < 0) :
    amount coefficient shift < 1 / 2 := by
  rcases hsmall with rfl | hwidth
  · norm_num [amount]
  · have hpower : (0 : ℚ) < 10 ^ shift := zpow_pos (by norm_num) _
    have hcoefficient : (coefficient : ℚ) < 10 ^ (coefficient.repr.length : Int) := by
      rw [zpow_natCast]
      exact_mod_cast lt_pow_length_repr coefficient
    calc amount coefficient shift
        < 10 ^ (coefficient.repr.length : Int) * 10 ^ shift :=
          mul_lt_mul_of_pos_right hcoefficient hpower
      _ = 10 ^ ((coefficient.repr.length : Int) + shift) := (zpow_add₀ (by norm_num) _ _).symm
      _ ≤ 10 ^ (-1 : Int) := zpow_le_zpow_right₀ (by norm_num) (by omega)
      _ ≤ 1 / 2 := by norm_num

theorem scaleHalfUp_eq (coefficient : Nat) (shift : Int) :
    scaleHalfUp coefficient shift = ⌊amount coefficient shift + 1 / 2⌋₊ := by
  have hden : ((Nat.pow 10 (-shift).toNat : Nat) : ℚ) ≠ 0 := by
    exact_mod_cast (Nat.pow_pos (by decide)).ne'
  unfold scaleHalfUp
  dsimp only
  rw [← @Nat.floor_div_eq_div ℚ, amount, ten_zpow]
  congr 1
  push_cast
  field_simp

/-- The coefficient of a decimal in units of the last place is its amount in these units, rounded,
and there is one just where the rounded amount has room. -/
theorem coefficientAt_eq_ok {decimal : Decimal} {places : Int} {digits coefficient : Nat}
    (hroom : roomAt places = digits) :
    decimal.coefficientAt places = .ok coefficient ↔
      amount decimal.coefficient (decimal.exponent + places) + 1 / 2 < (10 ^ digits : Nat) ∧
        coefficient = ⌊amount decimal.coefficient (decimal.exponent + places) + 1 / 2⌋₊ := by
  have hnonneg := amount_nonneg decimal.coefficient (decimal.exponent + places)
  unfold coefficientAt
  dsimp only
  split
  next hsmall =>
    have hhalf := amount_lt_half hsmall
    have hone : (1 : ℚ) ≤ (10 ^ digits : Nat) := by exact_mod_cast Nat.one_le_pow _ _ (by decide)
    rw [Nat.floor_eq_zero.mpr (by linarith)]
    constructor
    · intro heq
      cases heq
      exact ⟨by linarith, rfl⟩
    · rintro ⟨-, rfl⟩
      rfl
  next hlarge =>
  rw [hroom, Int.toNat_natCast, Nat.pow_eq, scaleHalfUp_eq]
  split
  next hwide =>
    refine iff_of_false (by simp) fun hfits => ?_
    have hpower : amount decimal.coefficient (decimal.exponent + places) < 10 ^ digits := by
      have hpower := hfits.1
      push_cast at hpower
      linarith
    have hwidth := length_repr_add_le (show 0 < decimal.coefficient by omega) hpower
    omega
  next =>
  rw [← Nat.floor_lt (show 0 ≤ amount decimal.coefficient (decimal.exponent + places) + 1 / 2 by
    linarith)]
  generalize ⌊amount decimal.coefficient (decimal.exponent + places) + 1 / 2⌋₊ = rounded
  by_cases hlt : rounded < 10 ^ digits
  · simp [hlt, eq_comm]
  · simp [hlt]

theorem exists_roomAt {places place : Int} (hplaces : placesFor places = .ok place) :
    ∃ digits : Nat, roomAt place = digits := by
  unfold placesFor at hplaces
  split at hplaces
  next => cases hplaces
  next =>
  split at hplaces
  next => cases hplaces
  next hlarge =>
    cases hplaces
    refine ⟨(roomAt (min places leastPlace)).toNat, (Int.toNat_of_nonneg ?_).symm⟩
    unfold roomAt precision greatestPlace leastPlace at *
    omega

theorem value_eq (decimal : Decimal) :
    decimal.value = withSign decimal.negative decimal.coefficient * 10 ^ decimal.exponent := by
  obtain ⟨negative, coefficient, exponent⟩ := decimal
  cases negative <;> simp [value, amount, withSign]

/-- A decimal in units of a place. -/
theorem value_mul_zpow (decimal : Decimal) (places : Int) :
    decimal.value * 10 ^ places =
      value { decimal with exponent := decimal.exponent + places } := by
  rw [value_eq, value_eq, zpow_add₀ (by norm_num), mul_assoc]

theorem abs_value (decimal : Decimal) :
    |decimal.value| = amount decimal.coefficient decimal.exponent := by
  have hnonneg := amount_nonneg decimal.coefficient decimal.exponent
  unfold value
  split
  next => rw [abs_neg, abs_of_nonneg hnonneg]
  next => rw [abs_of_nonneg hnonneg]

theorem halfAway_value (decimal : Decimal) :
    halfAway decimal.value = withSign decimal.negative
      ⌊amount decimal.coefficient decimal.exponent + 1 / 2⌋₊ := by
  have hnonneg := amount_nonneg decimal.coefficient decimal.exponent
  have hfloor : ((⌊amount decimal.coefficient decimal.exponent + 1 / 2⌋₊ : Nat) : ℤ) =
      ⌊amount decimal.coefficient decimal.exponent + 1 / 2⌋ :=
    Int.natCast_floor_eq_floor (by linarith)
  unfold value withSign
  rw [hfloor]
  split
  next => exact halfAway_neg_of_nonneg hnonneg
  next => exact halfAway_of_nonneg hnonneg

/-- What a decimal is read as depends on its value and on the sign that a zero has. -/
theorem toDouble_congr {decimal decimal' : Decimal}
    (hnegative : decimal.negative = decimal'.negative) (hvalue : decimal.value = decimal'.value) :
    decimal.toDouble = decimal'.toDouble := by
  have habs := congrArg abs hvalue
  rw [abs_value, abs_value] at habs
  rw [toDouble, toDouble, hnegative, Double.ofDecimal_congr _ habs]

end Decimal

/-! ## Rounding of numbers -/

namespace Double

/-- A number rounded to places, or the number itself where there is no room for that. -/
def settled (number : Double) (places : Int) : Double :=
  match number.round places with
  | .ok rounded => rounded
  | .error _ => number

theorem settled_of_round {number rounded : Double} {places : Int}
    (hround : number.round places = .ok rounded) : number.settled places = rounded := by
  rw [settled, hround]

theorem round_finite {places place : Int} (hplaces : Decimal.placesFor places = .ok place)
    (negative : Bool) (rank : Fin rankBound) :
    (finite negative rank).round places =
      ((shortest negative rank).coefficientAt place).map
        fun coefficient => (⟨negative, coefficient, -place⟩ : Decimal).toDouble := by
  rw [round, Decimal.round, hplaces]
  change (shortest negative rank).coefficientAt place >>= _ = _
  rw [negative_shortest]
  cases (shortest negative rank).coefficientAt place <;> rfl

/-- A rounded number is at most the power of ten that there is no room for. -/
theorem round_le_limit {places place : Int} {digits : Nat} {negative : Bool}
    {rank : Fin rankBound} {result : Double} (hplaces : Decimal.placesFor places = .ok place)
    (hroom : Decimal.roomAt place = digits)
    (hround : (finite negative rank).round places = .ok result) :
    (Decimal.toDouble ⟨false, 10 ^ digits, -place⟩).extent.lt result.extent = false := by
  rw [round_finite hplaces] at hround
  obtain ⟨coefficient, hcoefficient, rfl⟩ := map_eq_ok.mp hround
  obtain ⟨hfits, hcoefficient⟩ := (Decimal.coefficientAt_eq_ok hroom).mp hcoefficient
  have hlt : coefficient < 10 ^ digits := by
    rw [hcoefficient]
    exact (Nat.floor_lt (add_nonneg (Decimal.amount_nonneg _ _) (by norm_num))).mpr hfits
  have hsign : withSign negative coefficient ≤ withSign false (10 ^ digits) :=
    (withSign_le _ _).trans (Int.ofNat_le.mpr hlt.le)
  apply Decimal.toDouble_not_lt
  rw [Decimal.value_eq, Decimal.value_eq]
  exact mul_le_mul_of_nonneg_right (by exact_mod_cast hsign) (zpow_nonneg (by norm_num) _)

/-- The settled number is read from the settled value of the shortest decimal. -/
theorem exists_settled {places place : Int} {digits : Nat}
    (hplaces : Decimal.placesFor places = .ok place) (hroom : Decimal.roomAt place = digits)
    (negative : Bool) (rank : Fin rankBound) :
    ∃ decimal : Decimal, (finite negative rank).settled places = decimal.toDouble ∧
      decimal.negative = negative ∧ decimal.value * 10 ^ place =
        Decimal.settle (10 ^ digits) ((shortest negative rank).value * 10 ^ place) := by
  have hpower : (10 : ℚ) ^ place ≠ 0 := zpow_ne_zero _ (by norm_num)
  have hcoefficientAt := @Decimal.coefficientAt_eq_ok (shortest negative rank) place digits
  rw [Decimal.settle, Decimal.value_mul_zpow (shortest negative rank), Decimal.abs_value,
    Decimal.halfAway_value, settled, round_finite hplaces]
  dsimp only
  cases hcoefficient : (shortest negative rank).coefficientAt place with
  | ok coefficient =>
      obtain ⟨hfits, rfl⟩ := (hcoefficientAt hroom).mp hcoefficient
      refine ⟨_, rfl, rfl, ?_⟩
      rw [if_pos hfits, Decimal.value_eq, zpow_neg, inv_mul_cancel_right₀ hpower,
        negative_shortest]
  | error cause =>
      refine ⟨_, (toDouble_shortest negative rank).symm, negative_shortest negative rank, ?_⟩
      rw [if_neg, Decimal.value_mul_zpow]
      intro hfits
      rw [(hcoefficientAt hroom).mpr ⟨hfits, rfl⟩] at hcoefficient
      cases hcoefficient

/-- Settling numbers keeps their order. -/
theorem settled_not_lt {x y : Double} {a b : ℤ} (hx : x.extent = .units a)
    (hy : y.extent = .units b) (hle : a ≤ b) (places : Int) :
    (y.settled places).extent.lt (x.settled places).extent = false := by
  obtain ⟨negative, rank, rfl, rfl⟩ := exists_finite_of_extent hx
  obtain ⟨negative', rank', rfl, rfl⟩ := exists_finite_of_extent hy
  cases hplaces : Decimal.placesFor places with
  | error cause =>
      have hself (negative : Bool) (rank : Fin rankBound) :
          (finite negative rank).settled places = finite negative rank := by
        rw [settled, round, Decimal.round, hplaces]
        rfl
      rw [hself, hself]
      exact decide_eq_false (not_lt.mpr hle)
  | ok place =>
      obtain ⟨digits, hroom⟩ := Decimal.exists_roomAt hplaces
      obtain ⟨decimal, heq, -, hvalue⟩ := exists_settled hplaces hroom negative rank
      obtain ⟨decimal', heq', -, hvalue'⟩ := exists_settled hplaces hroom negative' rank'
      have hpower : (0 : ℚ) < 10 ^ place := zpow_pos (by norm_num) _
      rw [heq, heq']
      apply Decimal.toDouble_not_lt
      refine le_of_mul_le_mul_right ?_ hpower
      rw [hvalue, hvalue']
      exact Decimal.settle_mono (mul_le_mul_of_nonneg_right (value_shortest_mono hle) hpower.le)

/-- A number whose shortest decimal has no more places than are rounded to is left alone. -/
theorem settled_eq_self {places place : Int} (hplaces : Decimal.placesFor places = .ok place)
    {negative : Bool} {rank : Fin rankBound}
    (hexponent : -place ≤ (shortest negative rank).exponent) :
    (finite negative rank).settled places = finite negative rank := by
  obtain ⟨digits, hroom⟩ := Decimal.exists_roomAt hplaces
  obtain ⟨decimal, heq, hnegative, hvalue⟩ := exists_settled hplaces hroom negative rank
  have hpower : (10 : ℚ) ^ place ≠ 0 := zpow_ne_zero _ (by norm_num)
  obtain ⟨shift, hshift⟩ := Int.eq_ofNat_of_zero_le
    (show 0 ≤ (shortest negative rank).exponent + place by omega)
  have hwhole : (shortest negative rank).value * 10 ^ place =
      (withSign negative (shortest negative rank).coefficient * 10 ^ shift : ℤ) := by
    rw [Decimal.value_eq, negative_shortest, mul_assoc, ← zpow_add₀ (by norm_num), hshift]
    push_cast
    rfl
  rw [hwhole, Decimal.settle_intCast, ← hwhole] at hvalue
  rw [heq, ← toDouble_shortest negative rank]
  exact Decimal.toDouble_congr (hnegative.trans (negative_shortest negative rank).symm)
    (mul_right_cancel₀ hpower hvalue)

theorem toDouble_ne_nan (decimal : Decimal) : decimal.toDouble ≠ nan := by
  rw [Decimal.toDouble, ofDecimal_eq]
  exact ofRank_ne_nan _ _

/-- What is rounded to a number of places is NaN, and then so is the result, or a finite number. -/
theorem units_of_round {number result : Double} {places : Int}
    (hround : number.round places = .ok result) :
    number = nan ∧ result = nan ∨ (∃ count, number.extent = .units count) ∧ result ≠ nan := by
  cases number with
  | nan =>
      obtain ⟨_, -, rfl⟩ := map_eq_ok.mp hround
      exact .inl ⟨rfl, rfl⟩
  | infinite negative =>
      obtain ⟨_, -, herror⟩ := bind_eq_ok.mp hround
      cases herror
  | finite negative rank =>
      refine .inr ⟨⟨_, rfl⟩, ?_⟩
      obtain ⟨place, -, hround⟩ := bind_eq_ok.mp hround
      obtain ⟨coefficient, -, hround⟩ := bind_eq_ok.mp hround
      cases hround
      exact toDouble_ne_nan ⟨_, coefficient, -place⟩

theorem settled_ne_nan {x : Double} (hx : x ≠ nan) (places : Int) : x.settled places ≠ nan := by
  unfold settled
  split
  next result hround =>
    obtain ⟨hnan, -⟩ | ⟨-, hresult⟩ := units_of_round hround
    · exact absurd hnan hx
    · exact hresult
  next => exact hx

theorem extent_ne_undefined {x : Double} (hx : x ≠ nan) : x.extent ≠ .undefined := by
  cases x with
  | nan => exact absurd rfl hx
  | infinite negative => cases negative <;> exact nofun
  | finite negative rank => exact nofun

/-- Numbers in the same place are settled in the same place. -/
theorem extent_settled_congr {x y : Double} {count : ℤ} (hx : x.extent = .units count)
    (hy : y.extent = .units count) (places : Int) :
    (x.settled places).extent = (y.settled places).extent := by
  have hne {z : Double} (hz : z.extent = .units count) :
      (z.settled places).extent ≠ .undefined := by
    refine extent_ne_undefined (settled_ne_nan ?_ places)
    rintro rfl
    cases hz
  exact Extent.eq_of_not_lt (hne hx) (hne hy) (settled_not_lt hy hx le_rfl places)
    (settled_not_lt hx hy le_rfl places)

end Double

end Exemplar
