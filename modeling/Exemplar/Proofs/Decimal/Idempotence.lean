import Exemplar.Proofs.Decimal.Places

/-!
# Rounding to places is settled at once

A number that has been rounded to places is left alone when it is rounded again, although
it is seldom the multiple of a power of ten that it was read from, and is mostly written
with another decimal. Where its shortest decimal has more places than are rounded to, the
multiple next to it would have to lie beyond the interval that is read as the number; but
then the multiple on the other side lies within, and is shorter.
-/

namespace Exemplar

open Double (finite shortest RoundsTo rankOfDecimal_eq_of_roundsTo roundsTo_rankOfDecimal
  signedUnits unitsOfRank unitsPerOne)

namespace Double

/-! ## The width of an interval -/

theorem unitsOfRank_succ_le_two_mul {rank : Nat} (hpos : 0 < rank) :
    unitsOfRank (rank + 1) ≤ 2 * unitsOfRank rank := by
  obtain ⟨shift, significand, -, -, hunits, hnext⟩ := exists_scaled_succ rank
  have hsignificand : 0 < significand := by
    rw [Nat.pos_iff_ne_zero]
    rintro rfl
    have hzero := unitsOfRank_strictMono hpos
    rw [hunits, Nat.zero_mul] at hzero
    exact absurd hzero (Nat.not_lt_zero _)
  rw [hunits, hnext, ← Nat.mul_assoc]
  exact Nat.mul_le_mul_right _ (by omega)

section Width

variable {quantity quantity' : ℚ} {rank : Nat} (hpos : 0 < rank)
include hpos

theorem RoundsTo.two_mul_le (hround : RoundsTo quantity rank) :
    2 * quantity ≤ 3 * unitsOfRank rank := by
  have habove := hround.le_above
  have hnext : (unitsOfRank (rank + 1) : ℚ) ≤ 2 * unitsOfRank rank := by
    exact_mod_cast unitsOfRank_succ_le_two_mul hpos
  linarith

theorem RoundsTo.le_two_mul (hround : RoundsTo quantity rank) :
    (unitsOfRank rank : ℚ) ≤ 2 * quantity := by
  have hbelow := hround.below_le hpos
  have hprevious : (0 : ℚ) ≤ unitsOfRank (rank - 1) := Nat.cast_nonneg _
  linarith

/-- Of two quantities that are rounded to one number, one is at most three times the other. -/
theorem RoundsTo.le_three_mul (hround : RoundsTo quantity rank)
    (hround' : RoundsTo quantity' rank) :
    quantity ≤ 3 * quantity' := by
  have hhigh := hround.two_mul_le hpos
  have hlow := hround'.le_two_mul hpos
  linarith

end Width

end Double

namespace Decimal

/-! ## Shorter decimals -/

theorem length_repr_lt_of_ten_mul_le {n m : Nat} (hpos : 0 < n) (hle : 10 * n ≤ m) :
    n.repr.length < m.repr.length := by
  by_contra hge
  obtain ⟨count, hcount⟩ := Nat.exists_eq_add_one_of_ne_zero (@Nat.length_repr_pos n).ne'
  have hlt := lt_pow_length_repr m
  have hlt := hlt.trans_le (Nat.pow_le_pow_right (by decide) (not_lt.mp hge))
  rw [hcount, Nat.pow_succ] at hlt
  cases count with
  | zero => omega
  | succ count =>
      have := (Nat.length_repr_le_iff (Nat.succ_pos count)).mpr (show n < 10 ^ (count + 1) by omega)
      omega

theorem IsShortest.length_le {decimal : Decimal} {negative : Bool} {rank : Fin rankBound}
    {coefficient : Nat} {exponent : Int} (hshortest : decimal.IsShortest negative rank)
    (hread : RoundsTo (amount coefficient exponent * unitsPerOne) rank) :
    decimal.coefficient.repr.length ≤ coefficient.repr.length :=
  hshortest.fewest ⟨negative, coefficient, exponent⟩ (toDouble_eq_finite.mpr ⟨rfl, hread⟩)

/-- A decimal in units of a grid, still in units of the numbers. -/
theorem amount_sub_mul (coefficient : Nat) (exponent grid : Int) :
    amount coefficient exponent * unitsPerOne =
      amount coefficient (exponent - grid) * (unitsPerOne * 10 ^ grid) := by
  rw [amount, amount, zpow_sub₀ (by norm_num), mul_div_assoc', div_mul_eq_mul_div,
    eq_div_iff (zpow_ne_zero _ (by norm_num))]
  ring

section Grid

variable {decimal : Decimal} {negative : Bool} {rank : Fin rankBound} {grid : Int}
  (hshortest : decimal.IsShortest negative rank) (hpos : 0 < rank.val)
  (hfine : decimal.exponent < grid)

include hfine in
theorem ten_mul_amount_le :
    10 * amount decimal.coefficient (decimal.exponent - grid) ≤ decimal.coefficient := by
  have hpower : (10 : ℚ) ^ (decimal.exponent - grid) ≤ 10 ^ (-1 : Int) :=
    zpow_le_zpow_right₀ (by norm_num) (by omega)
  have hle := mul_le_mul_of_nonneg_left hpower (Nat.cast_nonneg (α := ℚ) decimal.coefficient)
  have htenth : (10 : ℚ) ^ (-1 : Int) = 1 / 10 := by norm_num
  rw [htenth] at hle
  unfold amount
  linarith

include hfine in
/-- One digit of finer places that stands for a third of a unit or more, but for less than half of
it, is four tenths. -/
theorem amount_eq_of_digit (hdigit : decimal.coefficient ≤ 9)
    (hthird : 1 ≤ 3 * amount decimal.coefficient (decimal.exponent - grid))
    (hlt : amount decimal.coefficient (decimal.exponent - grid) < 1 / 2) :
    amount decimal.coefficient (decimal.exponent - grid) = 2 / 5 := by
  have hdigit : (decimal.coefficient : ℚ) ≤ 9 := by exact_mod_cast hdigit
  have htenth : decimal.exponent - grid = -1 := by
    by_contra hless
    have hpower : (10 : ℚ) ^ (decimal.exponent - grid) ≤ 10 ^ (-2 : Int) :=
      zpow_le_zpow_right₀ (by norm_num) (by omega)
    have hle := mul_le_mul_of_nonneg_left hpower (Nat.cast_nonneg (α := ℚ) decimal.coefficient)
    norm_num at hle
    unfold amount at hthird
    linarith
  unfold amount at hthird hlt ⊢
  rw [htenth, zpow_neg_one] at hthird hlt ⊢
  have hmore : (3 : ℚ) < decimal.coefficient := by linarith
  have hless : (decimal.coefficient : ℚ) < 5 := by linarith
  have hfour : decimal.coefficient = 4 := by
    have hmore : 3 < decimal.coefficient := by exact_mod_cast hmore
    have hless : decimal.coefficient < 5 := by exact_mod_cast hless
    omega
  rw [hfour]
  norm_num

include hshortest hfine in
/-- A multiple below the shortest decimal of finer places has fewer digits. -/
theorem not_roundsTo_of_le {multiple : Nat} (hmultiple : 0 < multiple)
    (hle : (multiple : ℚ) ≤ amount decimal.coefficient (decimal.exponent - grid)) :
    ¬RoundsTo (amount multiple grid * unitsPerOne) rank := by
  intro hread
  have hlength := hshortest.length_le hread
  have hten := ten_mul_amount_le hfine
  have hcoefficient : 10 * multiple ≤ decimal.coefficient := by
    exact_mod_cast show (10 * multiple : ℚ) ≤ decimal.coefficient by linarith
  exact absurd (length_repr_lt_of_ten_mul_le hmultiple hcoefficient) (not_lt.mpr hlength)

include hshortest hfine in
/-- The multiple next above the shortest decimal of finer places has fewer digits too, unless it is
the first one. -/
theorem not_roundsTo_succ {multiple : Nat} (hmultiple : 0 < multiple)
    (hlt : (multiple : ℚ) < amount decimal.coefficient (decimal.exponent - grid)) :
    ¬RoundsTo (amount (multiple + 1) grid * unitsPerOne) rank := by
  intro hread
  have hlength := hshortest.length_le hread
  have hten := ten_mul_amount_le hfine
  have hcoefficient : 10 * multiple ≤ decimal.coefficient := by
    exact_mod_cast show (10 * multiple : ℚ) ≤ decimal.coefficient by linarith
  have hmore := length_repr_lt_of_ten_mul_le hmultiple hcoefficient
  -- one more takes a new digit only at a power of ten, which is written with one digit
  have hpower : multiple + 1 = 1 * 10 ^ multiple.repr.length := by
    rw [Nat.one_mul]
    apply le_antisymm (lt_pow_length_repr multiple)
    by_contra hless
    have := (Nat.length_repr_le_iff multiple.length_repr_pos).mpr (not_le.mp hless)
    omega
  have hsame : amount (multiple + 1) grid = amount 1 (multiple.repr.length + grid) := by
    rw [hpower, amount, amount, zpow_add₀ (by norm_num), zpow_natCast]
    push_cast
    ring
  rw [hsame] at hread
  have hone := hshortest.length_le hread
  have := (Nat.length_repr_le_iff one_pos).mpr (show 1 < 10 ^ 1 by decide)
  have := @Nat.length_repr_pos multiple
  omega

include hshortest hpos hfine in
/-- A shortest decimal below half of the first multiple is not read as the same number: it would be
four tenths of it, and seven tenths are nearer to the number. -/
theorem not_roundsTo_one (hlt : amount decimal.coefficient (decimal.exponent - grid) < 1 / 2) :
    ¬RoundsTo (amount 1 grid * unitsPerOne) rank := by
  intro hread
  have hstep := Double.step_pos grid
  obtain ⟨hsign, hself⟩ := toDouble_eq_finite.mp hshortest.reads
  have hself' := hself
  rw [amount_sub_mul _ _ grid] at hself
  rw [Double.amount_mul, Nat.cast_one] at hread
  -- the decimal has one digit and more than a third of the first multiple
  have hlength : decimal.coefficient.repr.length ≤ 1 := by
    have hone : RoundsTo (amount (1 : Nat) grid * unitsPerOne) rank := by
      rwa [Double.amount_mul, Nat.cast_one]
    exact (hshortest.length_le hone).trans ((Nat.length_repr_le_iff one_pos).mpr (by decide))
  have hdigit := (Nat.length_repr_le_iff one_pos).mp hlength
  have hthird : 1 ≤ 3 * amount decimal.coefficient (decimal.exponent - grid) := by
    refine le_of_mul_le_mul_right ?_ hstep
    linarith [hread.le_three_mul hpos hself]
  have hfour := amount_eq_of_digit hfine (by omega) hthird hlt
  rw [hfour] at hself
  -- seven tenths lie between the two, and nearer to the number
  have hseven : amount 7 (grid - 1) * unitsPerOne = 7 / 10 * (unitsPerOne * 10 ^ grid) := by
    rw [amount_sub_mul 7 (grid - 1) grid, show grid - 1 - grid = -1 by omega, amount]
    norm_num
  have hbetween := Double.reads_between grid (2 / 5) 1 (7 / 10) hself hread (by norm_num)
    (by norm_num)
  rw [← hseven] at hbetween
  have hnearest := hshortest.nearest ⟨negative, 7, grid - 1⟩
    (toDouble_eq_finite.mpr ⟨rfl, hbetween⟩) (le_antisymm ?_ ?_)
  · have hhigh := hread.two_mul_le hpos
    have hlow := hself.le_two_mul hpos
    rw [abs_value_sub hsign, abs_value_sub rfl, hseven, amount_sub_mul _ _ grid, hfour,
      abs_of_nonpos (by linarith)] at hnearest
    rcases abs_cases (7 / 10 * (unitsPerOne * 10 ^ grid) - (unitsOfRank rank : ℚ)) with
      ⟨heq, -⟩ | ⟨heq, -⟩ <;> rw [heq] at hnearest <;> linarith
  · exact ((Nat.length_repr_le_iff one_pos).mpr (show 7 < 10 ^ 1 by decide)).trans
      Nat.length_repr_pos
  · exact hlength.trans Nat.length_repr_pos

/-- The multiple of a power of ten that the amount of a decimal is rounded to. -/
def multipleAt (decimal : Decimal) (grid : Int) : Nat :=
  ⌊amount decimal.coefficient (decimal.exponent - grid) + 1 / 2⌋₊

include hfine hshortest hpos in
/-- Where some multiple is read as the number, the one next to its shortest decimal is, although the
decimal has finer places. -/
theorem roundsTo_multipleAt_of_fine {multiple : Nat}
    (hread : RoundsTo (amount multiple grid * unitsPerOne) rank) :
    RoundsTo (amount (decimal.multipleAt grid) grid * unitsPerOne) rank := by
  have hself := (toDouble_eq_finite.mp hshortest.reads).2
  have hmultiple := Double.pos_of_roundsTo hpos hread
  have hbelow := @not_roundsTo_of_le _ _ _ _ hshortest hfine
  have habove := @not_roundsTo_succ _ _ _ _ hshortest hfine
  have hfirst := not_roundsTo_one hshortest hpos hfine
  have hnonneg := amount_nonneg decimal.coefficient (decimal.exponent - grid)
  rw [amount_sub_mul _ _ grid] at hself
  simp only [Double.amount_mul] at hread hbelow habove hfirst ⊢
  unfold multipleAt
  generalize amount decimal.coefficient (decimal.exponent - grid) = quantity at *
  have hfloor := Nat.floor_le hnonneg
  have hceil := Nat.lt_floor_add_one quantity
  generalize ⌊quantity⌋₊ = floor at hfloor hceil
  have hbetween := @Double.reads_between rank.val grid
  rcases Nat.lt_or_ge floor multiple with hless | hmore
  · -- the multiple lies above the decimal, and so the next one above is read as the number too
    have hnext : ((floor + 1 : Nat) : ℚ) ≤ multiple := Nat.cast_le.mpr hless
    have hsucc := hbetween _ _ ((floor + 1 : Nat) : ℚ) hself hread
      (by push_cast; exact hceil.le) hnext
    rcases lt_or_ge (quantity + 1 / 2) (floor + 1) with hdown | hup
    · exfalso
      rcases Nat.eq_zero_or_pos floor with rfl | hpositive
      · rw [Nat.zero_add] at hsucc
        rw [Nat.cast_zero, zero_add] at hdown
        exact hfirst (by linarith) hsucc
      · rcases hfloor.lt_or_eq with hlt | heq
        · exact habove hpositive hlt hsucc
        · refine hbelow hpositive hfloor ?_
          rwa [heq]
    · have hround : ⌊quantity + 1 / 2⌋₊ = floor + 1 :=
        (Nat.floor_eq_iff (by linarith)).mpr ⟨by push_cast; exact hup, by push_cast; linarith⟩
      rwa [hround]
  · -- the multiple lies below the decimal, where no other one is read as the number
    have hle : (multiple : ℚ) ≤ quantity := (Nat.cast_le.mpr hmore).trans hfloor
    exact absurd hread (hbelow hmultiple hle)

include hshortest in
/-- The multiple next to the shortest decimal of a number is read as the number, if any is. -/
theorem roundsTo_multipleAt (hpos : 0 < rank.val) {multiple : Nat}
    (hread : RoundsTo (amount multiple grid * unitsPerOne) rank) :
    RoundsTo (amount (decimal.multipleAt grid) grid * unitsPerOne) rank := by
  rcases lt_or_ge decimal.exponent grid with hfine | hcoarse
  · exact roundsTo_multipleAt_of_fine hshortest hpos hfine hread
  · -- the decimal is a multiple itself
    have hself := (toDouble_eq_finite.mp hshortest.reads).2
    obtain ⟨shift, hshift⟩ := Int.eq_ofNat_of_zero_le (Int.sub_nonneg.mpr hcoarse)
    have hwhole : amount decimal.coefficient (decimal.exponent - grid) =
        (decimal.coefficient * 10 ^ shift : Nat) := by
      rw [amount, hshift, zpow_natCast]
      push_cast
      rfl
    have hmultiple : decimal.multipleAt grid = decimal.coefficient * 10 ^ shift := by
      rw [multipleAt, hwhole]
      exact (Nat.floor_eq_iff (by positivity)).mpr ⟨by linarith, by linarith⟩
    rw [amount_sub_mul _ _ grid, hwhole] at hself
    rwa [Double.amount_mul, hmultiple]

end Grid

end Decimal

/-! ## Rounding of numbers -/

namespace Double

open Decimal (amount amount_nonneg)

/-- What has a rounded number is finite unless it is NaN. -/
theorem exists_finite_of_round {number result : Double} {places : Int}
    (hround : number.round places = .ok result) (hne : number ≠ nan) :
    ∃ negative rank, number = finite negative rank := by
  obtain ⟨hnan, -⟩ | ⟨⟨count, hcount⟩, -⟩ := units_of_round hround
  · exact absurd hnan hne
  · obtain ⟨negative, rank, hnumber, -⟩ := exists_finite_of_extent hcount
    exact ⟨negative, rank, hnumber⟩

theorem ne_nan_of_round {number result : Double} {places : Int}
    (hround : number.round places = .ok result) (hne : result ≠ nan) : number ≠ nan := by
  rintro rfl
  obtain ⟨-, hnan⟩ | ⟨⟨_, hunits⟩, -⟩ := units_of_round hround
  · exact hne hnan
  · cases hunits

/-- A number that finer places are taken from keeps sixteen digits at most. -/
theorem multipleAt_le {negative : Bool} {rank : Fin rankBound} {places : Int}
    (hfine : (shortest negative rank).exponent < -places) :
    (shortest negative rank).multipleAt (-places) ≤ 10 ^ 16 := by
  have hten := Decimal.ten_mul_amount_le hfine
  have hcoefficient : ((shortest negative rank).coefficient : ℚ) < (10 ^ 17 : Nat) := by
    exact_mod_cast coefficient_shortest_lt negative rank
  rw [Decimal.multipleAt]
  apply Nat.lt_succ_iff.mp
  rw [Nat.floor_lt (add_nonneg (amount_nonneg _ _) (by norm_num))]
  push_cast at hcoefficient ⊢
  linarith

section Places

variable {places : Int} (hplaces : places.natAbs ≤ 100000)
include hplaces

/-- A number is rounded to the multiple next to its shortest decimal, where there is room for it. -/
theorem round_eq_ok {negative : Bool} {rank : Fin rankBound} {result : Double} :
    (finite negative rank).round places = .ok result ↔
      amount (shortest negative rank).coefficient ((shortest negative rank).exponent + places) +
          1 / 2 < (10 ^ 28 : Nat) ∧
        (⟨negative, (shortest negative rank).multipleAt (-places), -places⟩ : Decimal).toDouble =
          result := by
  obtain ⟨hplaces, hroom⟩ := Decimal.placesFor_of_le hplaces
  rw [round_finite hplaces, map_eq_ok, Decimal.multipleAt, sub_neg_eq_add]
  constructor
  · rintro ⟨coefficient, hcoefficient, rfl⟩
    obtain ⟨hfits, rfl⟩ := (Decimal.coefficientAt_eq_ok hroom).mp hcoefficient
    exact ⟨hfits, rfl⟩
  · rintro ⟨hfits, rfl⟩
    exact ⟨_, (Decimal.coefficientAt_eq_ok hroom).mpr ⟨hfits, rfl⟩, rfl⟩

/-- A multiple that was read as a number is found again from the shortest decimal of the number. -/
theorem round_of_multiple {negative : Bool} {rank : Fin rankBound} {multiple : Nat}
    (hsmall : multiple ≤ 10 ^ 16)
    (hread : RoundsTo (amount multiple (-places) * unitsPerOne) rank) :
    (finite negative rank).round places = .ok (finite negative rank) := by
  have hshortest := isShortest_shortest negative rank
  rw [round_eq_ok hplaces, Decimal.toDouble_eq_finite]
  rcases Nat.eq_zero_or_pos rank.val with hzero | hpos
  · have heq : shortest negative rank = ⟨negative, 0, 0⟩ := if_pos hzero
    have hnothing : ⌊(0 : ℚ) + 1 / 2⌋₊ = 0 := Nat.floor_eq_zero.mpr (by norm_num)
    have hround := roundsTo_unitsOfRank 0
    rw [heq, Decimal.multipleAt, amount, amount, Nat.cast_zero, zero_mul, zero_mul, hnothing, hzero]
    rw [unitsOfRank_zero, Nat.cast_zero] at hround
    refine ⟨by norm_num, rfl, ?_⟩
    rwa [amount, Nat.cast_zero, zero_mul, zero_mul]
  · refine ⟨?_, rfl, Decimal.roundsTo_multipleAt hshortest hpos hread⟩
    have hstep := step_pos (-places)
    have hself := (Decimal.toDouble_eq_finite.mp hshortest.reads).2
    rw [Decimal.amount_sub_mul _ _ (-places), sub_neg_eq_add] at hself
    rw [amount_mul] at hread
    have hthree : amount (shortest negative rank).coefficient
        ((shortest negative rank).exponent + places) ≤ 3 * multiple := by
      refine le_of_mul_le_mul_right ?_ hstep
      rw [mul_assoc]
      exact hself.le_three_mul hpos hread
    have hsmall : (multiple : ℚ) ≤ (10 ^ 16 : Nat) := by exact_mod_cast hsmall
    push_cast at hsmall ⊢
    linarith

/-- Rounding a rounded number leaves it alone. -/
theorem round_idempotent {number : Double} {negative : Bool} {rank : Fin rankBound}
    (hround : number.round places = .ok (finite negative rank)) :
    (finite negative rank).round places = .ok (finite negative rank) := by
  obtain ⟨negative, rank, rfl⟩ := exists_finite_of_round hround (ne_nan_of_round hround nofun)
  rcases lt_or_ge (shortest negative rank).exponent (-places) with hfine | hcoarse
  · obtain ⟨-, hread⟩ := (round_eq_ok hplaces).mp hround
    obtain ⟨-, hread⟩ := Decimal.toDouble_eq_finite.mp hread
    exact round_of_multiple hplaces (multipleAt_le hfine) hread
  · -- the number has no more places, and is its own rounded number
    have hself := settled_eq_self (Decimal.placesFor_of_le hplaces).1 hcoarse
    rw [settled_of_round hround] at hself
    rwa [← hself] at hround

end Places

/-! ## Signs and order -/

theorem ofDecimal_not (negative : Bool) (coefficient : Nat) (exponent : Int) :
    ofDecimal (!negative) coefficient exponent = -ofDecimal negative coefficient exponent := by
  rw [ofDecimal_eq, ofDecimal_eq, ofRank, ofRank]
  split <;> rfl

theorem shortest_not (negative : Bool) (rank : Fin rankBound) :
    shortest (!negative) rank = { shortest negative rank with negative := !negative } := by
  unfold shortest
  split <;> rfl

/-- The opposite of a number is rounded to the opposite number, with the opposite sign of a zero. -/
theorem round_neg (number : Double) (places : Int) :
    (-number).round places = (number.round places).map (-·) := by
  cases number with
  | nan =>
      change (Decimal.placesFor places).map _ = ((Decimal.placesFor places).map _).map _
      cases Decimal.placesFor places <;> rfl
  | infinite negative =>
      change (Decimal.placesFor places >>= _) = (Decimal.placesFor places >>= _).map _
      cases Decimal.placesFor places <;> rfl
  | finite negative rank =>
      change (finite (!negative) rank).round places = _
      cases hplaces : Decimal.placesFor places with
      | error cause =>
          rw [round, round, Decimal.round, Decimal.round, hplaces]
          rfl
      | ok place =>
          rw [round_finite hplaces, round_finite hplaces, shortest_not]
          change ((shortest negative rank).coefficientAt place).map _ =
            (((shortest negative rank).coefficientAt place).map _).map _
          cases (shortest negative rank).coefficientAt place with
          | error cause => rfl
          | ok coefficient => exact congrArg Except.ok (ofDecimal_not _ _ _)

/-- One number is not above another, neither of them being NaN. -/
def NotAbove (x y : Double) : Prop :=
  x ≠ nan ∧ y ≠ nan ∧ y.extent.lt x.extent = false

theorem notAbove_finite {negative negative' : Bool} {rank rank' : Fin rankBound} :
    NotAbove (finite negative rank) (finite negative' rank') ↔
      signedUnits negative rank ≤ signedUnits negative' rank' := by
  simp [NotAbove, extent, Extent.lt]

/-- What lies between finite numbers is finite. -/
theorem exists_finite_of_notAbove {low number high : Double} (hlow : low.NotAbove number)
    (hhigh : number.NotAbove high) (hfinite : ∃ negative rank, low = finite negative rank)
    (hfinite' : ∃ negative rank, high = finite negative rank) :
    ∃ negative rank, number = finite negative rank := by
  obtain ⟨negative, rank, rfl⟩ := hfinite
  obtain ⟨negative', rank', rfl⟩ := hfinite'
  cases number with
  | nan => exact absurd rfl hlow.2.1
  | infinite negative'' =>
      cases negative'' with
      | false => cases hhigh.2.2
      | true => cases hlow.2.2
  | finite negative'' rank'' => exact ⟨_, _, rfl⟩

/-- A greater number is not rounded to a smaller one. -/
theorem round_mono {number number' result result' : Double} {places : Int}
    (hle : number.NotAbove number') (hround : number.round places = .ok result)
    (hround' : number'.round places = .ok result') : result.NotAbove result' := by
  obtain ⟨hne, hne', -⟩ := id hle
  obtain ⟨negative, rank, rfl⟩ := exists_finite_of_round hround hne
  obtain ⟨negative', rank', rfl⟩ := exists_finite_of_round hround' hne'
  have hsettled := @settled_not_lt (finite negative rank) (finite negative' rank') _ _ rfl rfl
    (notAbove_finite.mp hle) places
  rw [settled_of_round hround, settled_of_round hround'] at hsettled
  refine ⟨?_, ?_, hsettled⟩
  · exact settled_of_round hround ▸ settled_ne_nan hne places
  · exact settled_of_round hround' ▸ settled_ne_nan hne' places

/-- A number between two that can be rounded to a number of places can be rounded to it. -/
theorem exists_round_of_between {low number high result result' : Double} {places : Int}
    (hplaces : places.natAbs ≤ 100000) (hlow : low.NotAbove number)
    (hhigh : number.NotAbove high) (hround : low.round places = .ok result)
    (hround' : high.round places = .ok result') : ∃ rounded, number.round places = .ok rounded := by
  have hfinite := exists_finite_of_round hround hlow.1
  have hfinite' := exists_finite_of_round hround' hhigh.2.1
  obtain ⟨_, _, rfl⟩ := exists_finite_of_notAbove hlow hhigh hfinite hfinite'
  obtain ⟨_, _, rfl⟩ := hfinite
  obtain ⟨_, _, rfl⟩ := hfinite'
  have hroom := ((round_eq_ok hplaces).mp hround).1
  have hroom' := ((round_eq_ok hplaces).mp hround').1
  have hvalue := value_shortest_mono (notAbove_finite.mp hlow)
  have hvalue' := value_shortest_mono (notAbove_finite.mp hhigh)
  have hpower : (0 : ℚ) < 10 ^ places := zpow_pos (by norm_num) _
  have hscaled (negative : Bool) (rank : Fin rankBound) :
      amount (shortest negative rank).coefficient ((shortest negative rank).exponent + places) =
        |(shortest negative rank).value * 10 ^ places| := by
    rw [Decimal.value_mul_zpow, Decimal.abs_value]
  rw [hscaled] at hroom hroom'
  refine ⟨_, (round_eq_ok hplaces).mpr ⟨?_, rfl⟩⟩
  rw [hscaled]
  have hbound := abs_le_max_abs_abs (mul_le_mul_of_nonneg_right hvalue hpower.le)
    (mul_le_mul_of_nonneg_right hvalue' hpower.le)
  rcases le_max_iff.mp hbound with hle | hle <;> linarith

end Double

end Exemplar
