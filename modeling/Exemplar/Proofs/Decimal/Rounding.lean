import Exemplar.Decimal.Rounding
import Exemplar.Proofs.Double.Magnitude
import Mathlib.Data.Nat.Digits.Defs

/-!
# Room for rounding

The shortest decimal of a floating-point number reads back as the number, and so
lies below every magnitude that the number lies below. A number of bounded
magnitude therefore has room for its rounded decimal.
-/

namespace Exemplar

namespace Decimal

/-- The amount that a coefficient stands for. -/
def amount (coefficient : Nat) (exponent : Int) : ℚ := coefficient * 10 ^ exponent

theorem ten_zpow (exponent : Int) :
    (10 : ℚ) ^ exponent = Nat.pow 10 exponent.toNat / Nat.pow 10 (-exponent).toNat := by
  have hcast : ∀ n : Nat, ((Nat.pow 10 n : Nat) : ℚ) = 10 ^ (n : Int) := fun n => by
    rw [Nat.pow_eq, Nat.cast_pow, zpow_natCast]
    rfl
  rw [hcast, hcast, ← zpow_sub₀ (by norm_num)]
  congr 1
  omega

theorem amount_trimZeros (coefficient : Nat) (exponent : Int) :
    amount (trimZeros coefficient exponent).1 (trimZeros coefficient exponent).2 =
      amount coefficient exponent := by
  induction coefficient, exponent using trimZeros.induct with
  | case1 coefficient exponent hdone => rw [trimZeros, if_pos hdone]
  | case2 coefficient exponent hmore ih =>
      rw [trimZeros, if_neg hmore, ih]
      have hten : coefficient = 10 * (coefficient / 10) := by omega
      unfold amount
      conv_rhs => rw [hten]
      rw [zpow_add₀ (by norm_num), zpow_one]
      push_cast
      ring

end Decimal

namespace Double

open Decimal (amount amount_trimZeros ten_zpow)

theorem eq_of_ofRank {negative : Bool} {rank rank' : Nat} (hbound : rank < rankBound)
    (heq : ofRank negative rank' = ofRank negative rank) : rank' = rank := by
  unfold ofRank at heq
  rw [dif_pos hbound] at heq
  split at heq
  · simpa using heq
  · cases heq

/-- A coefficient has no more decimal digits than binary ones. -/
theorem amount_lt_zpow {coefficient : Nat} {exponent bound : Int}
    (hlt : (coefficient.log2 : Int) + exponent < bound) :
    amount coefficient exponent < 10 ^ bound := by
  have hpower : (0 : ℚ) < 10 ^ exponent := zpow_pos (by norm_num) _
  have hcoefficient : (coefficient : ℚ) < 10 ^ ((coefficient.log2 + 1 : Nat) : Int) := by
    rw [zpow_natCast]
    exact_mod_cast Nat.lt_log2_self.trans_le (Nat.pow_le_pow_left (by decide) _)
  calc amount coefficient exponent
      < 10 ^ ((coefficient.log2 + 1 : Nat) : Int) * 10 ^ exponent :=
        mul_lt_mul_of_pos_right hcoefficient hpower
    _ = 10 ^ (((coefficient.log2 + 1 : Nat) : Int) + exponent) :=
        (zpow_add₀ (by norm_num) _ _).symm
    _ ≤ 10 ^ bound := zpow_le_zpow_right₀ (by norm_num) (by omega)

/-- A decimal far below its binary logarithm is less than one. -/
theorem amount_lt_one {coefficient : Nat} {exponent : Int}
    (hlt : exponent < -(400 + (coefficient.log2 : Int))) : amount coefficient exponent < 1 := by
  have hbound := @amount_lt_zpow coefficient exponent 0 (by omega)
  rwa [zpow_zero] at hbound

/-- A decimal that reads as a finite number lies below every magnitude from one on that the number
lies below. -/
theorem amount_lt_of_ofDecimal {coefficient rank bound : Nat} {exponent : Int}
    (heq : ofDecimal false coefficient exponent = ofRank false rank) (hlt : rank < bound)
    (hone : rankOfPower 0 ≤ bound) (hbound : bound < rankBound) :
    amount coefficient exponent < unitsOfRank bound / unitsPerOne := by
  have hunit : (0 : ℚ) < unitsPerOne := by exact_mod_cast unitsPerOne_pos
  have hle : (1 : ℚ) ≤ unitsOfRank bound / unitsPerOne := by
    rw [le_div_iff₀ hunit, one_mul, ← unitsOfRank_one]
    exact cast_unitsOfRank_le hone
  unfold ofDecimal at heq
  split at heq
  next hzero =>
    rw [hzero, amount, Nat.cast_zero, zero_mul]
    exact one_pos.trans_le hle
  next =>
  split at heq
  next =>
    rw [ofRank, dif_pos (hlt.trans hbound)] at heq
    cases heq
  next =>
  split at heq
  next hsmall => exact (amount_lt_one hsmall).trans_le hle
  next =>
    -- a decimal that reaches the bound would be rounded to its rank or beyond
    have hden : 0 < Nat.pow 10 (-exponent).toNat := Nat.pow_pos (by decide)
    have hrank := eq_of_ofRank (hlt.trans hbound) heq
    by_contra hge
    have hreached : bound ≤ nearestRank
        (unitsPerOne * (coefficient * Nat.pow 10 exponent.toNat))
          (Nat.pow 10 (-exponent).toNat) := by
      apply le_nearestRank hden
      rw [not_lt, div_le_iff₀ hunit, amount, ten_zpow] at hge
      apply hge.trans_eq
      push_cast
      ring
    omega

/-- A power of two is ruled out by as many fives and tens. -/
theorem amount_pow_five (units exponent : Nat) :
    amount (Nat.pow 5 exponent * units) (-exponent) = units / (2 ^ exponent : Nat) := by
  have hten : (10 : ℚ) ^ exponent = 5 ^ exponent * 2 ^ exponent := by
    rw [← mul_pow]
    norm_num
  have hfive : (5 : ℚ) ^ exponent ≠ 0 := pow_ne_zero _ (by norm_num)
  have htwo : (2 : ℚ) ^ exponent ≠ 0 := pow_ne_zero _ (by norm_num)
  rw [amount, zpow_neg, zpow_natCast, hten, Nat.pow_eq]
  push_cast
  field_simp

theorem readsBack_of_onGrid? {rank coefficient : Nat} {grid exponent : Int}
    (hfound : onGrid? rank grid = some (coefficient, exponent)) :
    readsBack rank coefficient exponent = true := by
  unfold onGrid? at hfound
  dsimp only at hfound
  split at hfound
  next hnear =>
    cases hfound
    exact hnear
  next =>
  split at hfound
  next hfar =>
    cases hfound
    exact hfar
  next => cases hfound

/-- The shortest decimal of a magnitude lies below every magnitude from one on that the magnitude
itself lies below. -/
theorem amount_shortestMagnitude_lt {rank bound : Nat} (hlt : rank < bound)
    (hone : rankOfPower 0 ≤ bound) (hbound : bound < rankBound) :
    amount (shortestMagnitude rank).1 (shortestMagnitude rank).2 <
      unitsOfRank bound / unitsPerOne := by
  unfold shortestMagnitude
  dsimp only
  rw [amount_trimZeros]
  generalize hfound : (List.range 17).findSome? _ = found
  cases found with
  | some decimal =>
      obtain ⟨digits, -, hgrid⟩ := List.exists_of_findSome?_eq_some hfound
      exact amount_lt_of_ofDecimal (of_decide_eq_true (readsBack_of_onGrid? hgrid)) hlt hone hbound
  | none =>
      -- the exact value itself, which no other candidate has to stand in for
      have hexact := amount_pow_five (unitsOfRank rank) unitExponent
      rw [← unitsPerOne_eq] at hexact
      rw [Option.getD_none, hexact]
      exact div_lt_div_of_pos_right (cast_unitsOfRank_lt hlt) (by exact_mod_cast unitsPerOne_pos)

theorem amount_shortest_lt (negative : Bool) {rank : Fin rankBound} {bound : Nat}
    (hlt : rank < bound) (hone : rankOfPower 0 ≤ bound) (hbound : bound < rankBound) :
    amount (shortest negative rank).coefficient (shortest negative rank).exponent <
      unitsOfRank bound / unitsPerOne := by
  unfold shortest
  split
  next =>
    have hunits : unitsOfRank 0 < unitsOfRank bound :=
      unitsOfRank_strictMono (Nat.zero_lt_of_lt hlt)
    rw [unitsOfRank_zero] at hunits
    rw [amount, Nat.cast_zero, zero_mul]
    exact div_pos (by exact_mod_cast hunits) (by exact_mod_cast unitsPerOne_pos)
  next => exact amount_shortestMagnitude_lt hlt hone hbound

/-- The magnitude after a power of two is larger by much less than a quarter. -/
theorem unitsOfRank_rankOfPower_succ_le (exponent : Nat) :
    (4 * unitsOfRank (rankOfPower exponent + 1) : ℚ) ≤ 5 * (2 ^ exponent * unitsPerOne) := by
  have hlarge : significandSpan ≤ rankOfPower exponent :=
    Nat.le_mul_of_pos_left _ (by omega)
  have hstep := lt_unitsOfRank_succ hlarge
  have hspan : (significandSpan : ℚ) = 4503599627370496 := by norm_num [significandSpan]
  have hpower : (unitsOfRank (rankOfPower exponent) : ℚ) = 2 ^ exponent * unitsPerOne := by
    rw [unitsOfRank_rankOfPower]
    push_cast
    rfl
  have hnonneg : (0 : ℚ) ≤ unitsOfRank (rankOfPower exponent) := Nat.cast_nonneg _
  rw [hspan] at hstep
  rw [← hpower]
  linarith

end Double

namespace Decimal

/-- An amount below a power of ten has no more digits in front of its point. -/
theorem length_repr_add_le {coefficient digits : Nat} {shift : Int} (hpositive : 0 < coefficient)
    (hamount : amount coefficient shift < 10 ^ digits) :
    (coefficient.repr.length : Int) + shift ≤ digits := by
  have hpower : (0 : ℚ) < 10 ^ shift := zpow_pos (by norm_num) _
  have hshift : shift < digits := by
    have hle : (10 : ℚ) ^ shift ≤ amount coefficient shift :=
      le_mul_of_one_le_left hpower.le (by exact_mod_cast hpositive)
    have hlt := hle.trans_lt hamount
    rwa [← zpow_natCast, zpow_lt_zpow_iff_right₀ (by norm_num)] at hlt
  obtain ⟨room, hroom⟩ : ∃ room : Nat, (room : Int) = digits - shift :=
    ⟨(digits - shift).toNat, by omega⟩
  have hdigits : (10 : ℚ) ^ digits = 10 ^ room * 10 ^ shift := by
    rw [← zpow_natCast, ← zpow_natCast, ← zpow_add₀ (by norm_num), hroom, Int.sub_add_cancel]
  have hcoefficient : coefficient < 10 ^ room := by
    rw [hdigits] at hamount
    exact_mod_cast lt_of_mul_lt_mul_right hamount hpower.le
  have hlength := Nat.repr_length coefficient room (by omega) hcoefficient
  omega

theorem scaleHalfUp_lt {coefficient digits : Nat} {shift : Int}
    (hamount : amount coefficient shift + 1 / 2 < 10 ^ digits) :
    scaleHalfUp coefficient shift < 10 ^ digits := by
  have hden : 0 < Nat.pow 10 (-shift).toNat := Nat.pow_pos (by decide)
  unfold scaleHalfUp
  dsimp only
  rw [Nat.div_lt_iff_lt_mul (by omega)]
  rw [amount, ten_zpow] at hamount
  generalize Nat.pow 10 (-shift).toNat = den at hden hamount ⊢
  have hden' : (0 : ℚ) < den := by exact_mod_cast hden
  have hscaled := mul_lt_mul_of_pos_right hamount (show (0 : ℚ) < 2 * den by linarith)
  have heq : ((coefficient : ℚ) * (Nat.pow 10 shift.toNat / den) + 1 / 2) * (2 * den) =
      2 * (coefficient * Nat.pow 10 shift.toNat) + den := by
    field_simp
  rw [heq] at hscaled
  exact_mod_cast hscaled

/-- A coefficient has room if its amount in units of the last place has, and half a unit more. -/
theorem coefficientAt_succeeds {decimal : Decimal} {places : Int} {digits : Nat}
    (hroom : roomAt places = digits)
    (hamount : amount decimal.coefficient (decimal.exponent + places) + 1 / 2 < 10 ^ digits) :
    ∃ rounded, decimal.coefficientAt places = .ok rounded := by
  unfold coefficientAt
  dsimp only
  split
  next => exact ⟨0, rfl⟩
  next hlarge =>
    have hwidth := length_repr_add_le (show 0 < decimal.coefficient by omega)
      (lt_trans (lt_add_of_pos_right _ (by norm_num)) hamount)
    have hrounded := scaleHalfUp_lt hamount
    rw [hroom, if_neg (by omega), Int.toNat_natCast, Nat.pow_eq, if_pos hrounded]
    exact ⟨_, rfl⟩

end Decimal

/-- A number whose magnitude leaves a quarter of the room for digits can be rounded. -/
theorem Double.FitsIn.round {number : Double} {exponent places digits : Nat}
    (hfits : number.FitsIn exponent) (hexponent : exponent + 1 < 1024)
    (hplaces : Decimal.placesFor places = .ok (places : Int))
    (hroom : Decimal.roomAt places = digits)
    (hdigits : 5 * 2 ^ exponent * 10 ^ places + 2 < 4 * 10 ^ digits) :
    ∃ rounded, number.round places = .ok rounded := by
  obtain ⟨negative, rank, rfl, hunits⟩ := hfits
  have hunit : (0 : ℚ) < unitsPerOne := by exact_mod_cast unitsPerOne_pos
  have hlt : rank.val < rankOfPower exponent + 1 := by
    rw [← unitsOfRank_rankOfPower, unitsOfRank_strictMono.le_iff_le] at hunits
    omega
  have hone : rankOfPower 0 ≤ rankOfPower exponent + 1 :=
    (Nat.mul_le_mul_right _ (by omega)).trans (Nat.le_succ _)
  have hbound : rankOfPower exponent + 1 < rankBound := by
    refine lt_of_le_of_lt ?_ (rankOfPower_lt hexponent)
    rw [rankOfPower, rankOfPower, ← Nat.add_assoc, Nat.add_one_mul]
    exact Nat.add_le_add_left significandSpan_pos _
  have hshortest := amount_shortest_lt negative hlt hone hbound
  have hnext := unitsOfRank_rankOfPower_succ_le exponent
  have hamount : 4 * Decimal.amount (shortest negative rank).coefficient
      (shortest negative rank).exponent < 5 * 2 ^ exponent := by
    rw [lt_div_iff₀ hunit] at hshortest
    refine lt_of_mul_lt_mul_right ?_ hunit.le
    linarith
  have hroomy : Decimal.amount (shortest negative rank).coefficient
      ((shortest negative rank).exponent + places) + 1 / 2 < 10 ^ digits := by
    have hpower : (0 : ℚ) < 10 ^ places := by positivity
    have hscaled := mul_lt_mul_of_pos_right hamount hpower
    have hdigits' : (5 * 2 ^ exponent * 10 ^ places + 2 : ℚ) < 4 * 10 ^ digits := by
      exact_mod_cast hdigits
    unfold Decimal.amount at hscaled ⊢
    rw [zpow_add₀ (by norm_num), zpow_natCast]
    linarith
  obtain ⟨rounded, hrounded⟩ := Decimal.coefficientAt_succeeds hroom hroomy
  have hround : (shortest negative rank).round places =
      (shortest negative rank).coefficientAt places >>= fun rounded =>
        .ok (ofDecimal (shortest negative rank).negative rounded (-places)) := by
    rw [Decimal.round, hplaces]
    rfl
  exact ⟨_, by rw [Double.round, hround, hrounded]; rfl⟩

end Exemplar
