import Exemplar.Proofs.Decimal.Rounding

/-!
# Reading decimals

A decimal is read as the number that its amount rounds to, however the amount is
split into a coefficient and a power of ten, and also where the power is settled
without being computed. So the shortest decimal of a number reads back as the
number.
-/

namespace Exemplar.Double

open Decimal (amount amount_trimZeros ten_zpow)

/-- The rank nearest to a decimal. -/
def rankOfDecimal (coefficient : Nat) (exponent : Int) : Nat :=
  nearestRank (unitsPerOne * (coefficient * Nat.pow 10 exponent.toNat))
    (Nat.pow 10 (-exponent).toNat)

theorem amount_mul_unitsPerOne (coefficient : Nat) (exponent : Int) :
    amount coefficient exponent * unitsPerOne =
      (unitsPerOne * (coefficient * Nat.pow 10 exponent.toNat) : Nat) /
        (Nat.pow 10 (-exponent).toNat : Nat) := by
  rw [amount, ten_zpow]
  push_cast
  ring

theorem roundsTo_rankOfDecimal (coefficient : Nat) (exponent : Int) :
    RoundsTo (amount coefficient exponent * unitsPerOne) (rankOfDecimal coefficient exponent) := by
  rw [amount_mul_unitsPerOne]
  exact roundsTo_nearestRank _ (Nat.pow_pos (by decide))

theorem rankBound_eq : rankBound = rankOfPower 1024 := by decide

/-- A power of ten beyond the range is infinite. -/
theorem rankBound_le_rankOfDecimal {coefficient : Nat} {exponent : Int} (hpos : coefficient ≠ 0)
    (hlarge : 400 < exponent) : rankBound ≤ rankOfDecimal coefficient exponent := by
  refine (roundsTo_unitsOfRank rankBound).mono (roundsTo_rankOfDecimal coefficient exponent) ?_
  rw [rankBound_eq, unitsOfRank_rankOfPower, Nat.cast_mul]
  apply mul_le_mul_of_nonneg_right _ (Nat.cast_nonneg _)
  calc ((2 ^ 1024 : Nat) : ℚ) ≤ (10 ^ 400 : Nat) := Nat.cast_le.mpr (by decide +kernel)
    _ = 10 ^ ((400 : Nat) : Int) := by rw [zpow_natCast, Nat.cast_pow, Nat.cast_ofNat]
    _ ≤ 10 ^ exponent := zpow_le_zpow_right₀ (by norm_num) hlarge.le
    _ ≤ amount coefficient exponent :=
        le_mul_of_one_le_left (zpow_nonneg (by norm_num) _)
          (by exact_mod_cast Nat.one_le_iff_ne_zero.mpr hpos)

/-- A power of ten far below the range is zero. -/
theorem rankOfDecimal_eq_zero {coefficient : Nat} {exponent : Int}
    (hsmall : exponent < -(400 + (coefficient.log2 : Int))) :
    rankOfDecimal coefficient exponent = 0 := by
  have hunit : (0 : ℚ) < unitsPerOne := by exact_mod_cast unitsPerOne_pos
  have hlt : nearestRank (unitsPerOne * (coefficient * Nat.pow 10 exponent.toNat))
      (Nat.pow 10 (-exponent).toNat) < 0 + 1 := by
    apply nearestRank_lt (Nat.pow_pos (by decide))
    have hamount := mul_lt_mul_of_pos_right
      (@amount_lt_zpow coefficient exponent (-(400 : Nat)) (by omega)) hunit
    rw [amount_mul_unitsPerOne] at hamount
    have hpower : (2 * unitsPerOne : ℚ) < 10 ^ 400 := by
      exact_mod_cast show 2 * unitsPerOne < 10 ^ 400 by decide +kernel
    have hone : (unitsOfRank 1 : ℚ) = 1 := by exact_mod_cast show unitsOfRank 1 = 1 by decide
    rw [unitsOfRank_zero, hone, Nat.cast_zero, zero_add]
    refine hamount.trans ?_
    rw [zpow_neg, zpow_natCast, inv_mul_lt_iff₀ (by positivity), mul_one_div,
      lt_div_iff₀' two_pos]
    exact hpower
  exact Nat.lt_one_iff.mp hlt

/-- A decimal is read as the number of the nearest rank, in all ranges of its exponent. -/
theorem ofDecimal_eq (negative : Bool) (coefficient : Nat) (exponent : Int) :
    ofDecimal negative coefficient exponent =
      ofRank negative (rankOfDecimal coefficient exponent) := by
  unfold ofDecimal
  split
  next hzero =>
    rw [rankOfDecimal, hzero, Nat.zero_mul, Nat.mul_zero, nearestRank, if_pos rfl]
  next hpos =>
  split
  next hlarge =>
    rw [ofRank, dif_neg (Nat.not_lt.mpr (rankBound_le_rankOfDecimal hpos hlarge))]
  next =>
  split
  next hsmall => rw [rankOfDecimal_eq_zero hsmall]
  next => rfl

theorem rankOfDecimal_eq_of_roundsTo {coefficient rank : Nat} {exponent : Int}
    (hround : RoundsTo (amount coefficient exponent * unitsPerOne) rank) :
    rankOfDecimal coefficient exponent = rank :=
  Nat.le_antisymm ((roundsTo_rankOfDecimal coefficient exponent).mono hround le_rfl)
    (hround.mono (roundsTo_rankOfDecimal coefficient exponent) le_rfl)

theorem rankOfDecimal_congr {coefficient coefficient' : Nat} {exponent exponent' : Int}
    (hamount : amount coefficient exponent = amount coefficient' exponent') :
    rankOfDecimal coefficient exponent = rankOfDecimal coefficient' exponent' := by
  apply rankOfDecimal_eq_of_roundsTo
  rw [hamount]
  exact roundsTo_rankOfDecimal coefficient' exponent'

/-- What a decimal is read as depends on its amount alone. -/
theorem ofDecimal_congr (negative : Bool) {coefficient coefficient' : Nat}
    {exponent exponent' : Int}
    (hamount : amount coefficient exponent = amount coefficient' exponent') :
    ofDecimal negative coefficient exponent = ofDecimal negative coefficient' exponent' := by
  rw [ofDecimal_eq, ofDecimal_eq, rankOfDecimal_congr hamount]

theorem rankOfDecimal_shortestMagnitude {rank : Nat} (hbound : rank < rankBound) :
    rankOfDecimal (shortestMagnitude rank).1 (shortestMagnitude rank).2 = rank := by
  unfold shortestMagnitude
  dsimp only
  rw [rankOfDecimal_congr (amount_trimZeros _ _)]
  generalize hfound : (List.range 17).findSome? _ = found
  cases found with
  | some decimal =>
      obtain ⟨digits, -, hgrid⟩ := List.exists_of_findSome?_eq_some hfound
      have hread := of_decide_eq_true (readsBack_of_onGrid? hgrid)
      rw [ofDecimal_eq] at hread
      exact eq_of_ofRank hbound hread
  | none =>
      -- the exact value itself
      have hexact := amount_pow_five (unitsOfRank rank) unitExponent
      rw [← unitsPerOne_eq] at hexact
      have hunit : (unitsPerOne : ℚ) ≠ 0 := by exact_mod_cast unitsPerOne_pos.ne'
      apply rankOfDecimal_eq_of_roundsTo
      rw [Option.getD_none, hexact, div_mul_cancel₀ _ hunit]
      exact roundsTo_unitsOfRank rank

@[simp]
theorem negative_shortest (negative : Bool) (rank : Fin rankBound) :
    (shortest negative rank).negative = negative := by
  unfold shortest
  split <;> rfl

/-- The shortest decimal of a number is read as the number. -/
theorem toDouble_shortest (negative : Bool) (rank : Fin rankBound) :
    (shortest negative rank).toDouble = finite negative rank := by
  unfold shortest
  split
  next hzero =>
    rw [Decimal.toDouble, ofDecimal, if_pos rfl, ofRank, dif_pos (by decide)]
    congr 1
    exact Fin.ext hzero.symm
  next =>
    rw [Decimal.toDouble, ofDecimal_eq, rankOfDecimal_shortestMagnitude rank.isLt, ofRank,
      dif_pos rank.isLt]

end Exemplar.Double
