import Exemplar.Proofs.Decimal.Grid

/-!
# Shortest decimals

A number is written with the fewest digits that are read as the number, as near to it as
so many digits can be, and even where two decimals are equally near. Trying one grid after
the other finds this decimal: a decimal that is read as the number has a multiple on the
grid of its digits, or else the power of ten that leads the number is there.
-/

namespace Exemplar

namespace Decimal

theorem trimZeros_le (coefficient : Nat) (exponent : Int) :
    (trimZeros coefficient exponent).1 ≤ coefficient := by
  induction coefficient, exponent using trimZeros.induct with
  | case1 coefficient exponent hdone => rw [trimZeros, if_pos hdone]
  | case2 coefficient exponent hmore ih =>
      rw [trimZeros, if_neg hmore]
      exact ih.trans (Nat.div_le_self _ _)

/-- A power of ten loses a digit when its zeros are moved. -/
theorem trimZeros_lt {coefficient digits : Nat} (hle : coefficient ≤ 10 ^ (digits + 1))
    (exponent : Int) : (trimZeros coefficient exponent).1 < 10 ^ (digits + 1) := by
  have hpower : 0 < 10 ^ digits := Nat.pow_pos (by decide)
  rw [Nat.pow_succ] at hle ⊢
  rcases hle.lt_or_eq with hlt | rfl
  · exact (trimZeros_le _ _).trans_lt hlt
  · rw [trimZeros, if_neg (by omega)]
    exact (trimZeros_le _ _).trans_lt (by omega)

end Decimal

open Decimal (amount amount_trimZeros trimZeros trimZeros_lt)

namespace Double

/-! ## The search for the fewest digits -/

theorem findSome?_range_eq_some {α : Type} {f : Nat → Option α} {count : Nat} {found : α}
    (hfound : (List.range count).findSome? f = some found) :
    ∃ first < count, f first = some found ∧ ∀ earlier < first, f earlier = none := by
  obtain ⟨before, first, after, hsplit, hfirst, hnone⟩ := List.findSome?_eq_some_iff.mp hfound
  have hlength : first = before.length ∧ before.length < count := by
    have hget := congrArg (·[before.length]?) hsplit
    rw [List.getElem?_append_right le_rfl, Nat.sub_self, List.getElem?_cons_zero,
      List.getElem?_eq_some_iff] at hget
    obtain ⟨hlt, heq⟩ := hget
    rw [List.getElem_range] at heq
    rw [List.length_range] at hlt
    exact ⟨heq.symm, hlt⟩
  obtain ⟨rfl, hlt⟩ := hlength
  refine ⟨before.length, hlt, hfirst, fun earlier hearlier => hnone earlier ?_⟩
  have hbefore : before = List.range before.length := by
    have htake := congrArg (List.take before.length) hsplit
    rw [List.take_left, List.take_range, Nat.min_eq_left hlt.le] at htake
    exact htake.symm
  rw [hbefore]
  exact List.mem_range.mpr hearlier

/-- What the search finds: the best multiple on the first grid that has one. -/
structure Found (rank digits best : Nat) (scale : Int) : Prop where
  above : 10 ^ (scale - 1) * unitsPerOne ≤ (unitsOfRank rank : ℚ)
  below : (unitsOfRank rank : ℚ) < 10 ^ scale * unitsPerOne
  lt_seventeen : digits < 17
  best : BestOn rank (scale - 1 - digits) best
  first : ∀ fewer < digits, onGrid? rank (scale - 1 - fewer) = none

theorem exists_found {rank : Nat} (hpos : 0 < rank) (hbound : rank < rankBound) :
    ∃ digits best scale, Found rank digits best scale ∧
      shortestMagnitude rank = trimZeros best (scale - 1 - digits) := by
  obtain ⟨habove, hbelow⟩ := decimalScale_spec (unitsOfRank_strictMono hpos)
    (log2_unitsOfRank_lt hpos hbound)
  unfold shortestMagnitude
  dsimp only
  generalize decimalScale (unitsOfRank rank) = scale at habove hbelow ⊢
  generalize hfound : (List.range 17).findSome? _ = found
  cases found with
  | none =>
      have hnone := List.findSome?_eq_none_iff.mp hfound 16 (by decide)
      rw [show scale - 1 - (16 : Nat) = scale - 17 by omega] at hnone
      exact absurd hnone (onGrid?_seventeen hpos hbound habove)
  | some decimal =>
      obtain ⟨best, exponent⟩ := decimal
      obtain ⟨digits, hlt, hgrid, hfirst⟩ := findSome?_range_eq_some hfound
      obtain ⟨rfl, hbest⟩ := bestOn_of_onGrid? _ hbound hgrid
      exact ⟨digits, best, scale, ⟨habove, hbelow, hlt, hbest, hfirst⟩, rfl⟩

section Found

variable {rank digits best : Nat} {scale : Int} (hfound : Found rank digits best scale)
include hfound

/-- A magnitude in units of the grid has one digit more than the last grid without a multiple. -/
theorem Found.onScale_bounds :
    10 ^ digits ≤ onScale (unitsOfRank rank) (scale - 1 - digits) ∧
      onScale (unitsOfRank rank) (scale - 1 - digits) < 10 ^ (digits + 1) := by
  have hstep := step_pos (scale - 1 - digits)
  have habove := hfound.above
  have hbelow := hfound.below
  have hsplit : (10 : ℚ) ^ (scale - 1) = 10 ^ digits * 10 ^ (scale - 1 - digits) := by
    rw [← zpow_natCast, ← zpow_add₀ (by norm_num)]
    congr 1
    omega
  have hsplit' : (10 : ℚ) ^ scale = 10 ^ (digits + 1) * 10 ^ (scale - 1 - digits) := by
    rw [← zpow_natCast, ← zpow_add₀ (by norm_num)]
    congr 1
    push_cast
    omega
  rw [hsplit, mul_assoc, mul_comm (_ ^ _ : ℚ) (unitsPerOne : ℚ)] at habove
  rw [hsplit', mul_assoc, mul_comm (_ ^ _ : ℚ) (unitsPerOne : ℚ)] at hbelow
  exact ⟨(le_div_iff₀ hstep).mpr habove, (div_lt_iff₀ hstep).mpr hbelow⟩

theorem Found.best_le : best ≤ 10 ^ (digits + 1) := by
  have hbelow := hfound.onScale_bounds.2
  have hclose := (le_abs_self _).trans hfound.best.close
  have hlt : (best : ℚ) < (10 ^ (digits + 1) + 1 : Nat) := by
    push_cast
    linarith
  exact Nat.lt_succ_iff.mp (Nat.cast_lt.mp hlt)

/-- A decimal that is read as the number has a multiple on the grid of its digits, or one that leads
it and is read as the number too. -/
theorem Found.exists_multiple {coefficient count : Nat} {exponent : Int}
    (hread : RoundsTo (amount coefficient exponent * unitsPerOne) rank)
    (hlt : coefficient < 10 ^ (count + 1)) :
    (∃ shift : Nat, exponent = scale - 1 - count + shift ∧
      amount coefficient exponent = amount (coefficient * 10 ^ shift) (scale - 1 - count)) ∨
    amount coefficient exponent < amount (10 ^ count) (scale - 1 - count) ∧
      amount (10 ^ count) (scale - 1 - count) * unitsPerOne ≤ unitsOfRank rank ∧
      RoundsTo (amount (10 ^ count) (scale - 1 - count) * unitsPerOne) rank := by
  rcases le_or_gt (scale - 1 - count) exponent with hcoarse | hfine
  · obtain ⟨shift, hshift⟩ := Int.eq_ofNat_of_zero_le (Int.sub_nonneg.mpr hcoarse)
    refine .inl ⟨shift, by omega, ?_⟩
    rw [amount, amount, show exponent = shift + (scale - 1 - count) by omega,
      zpow_add₀ (by norm_num), zpow_natCast]
    push_cast
    ring
  · have hlead : amount (10 ^ count) (scale - 1 - count) = 10 ^ (scale - 1) := by
      rw [amount, Nat.cast_pow, ← zpow_natCast]
      push_cast
      rw [← zpow_add₀ (by norm_num)]
      congr 1
      omega
    have hless : amount coefficient exponent < 10 ^ (scale - 1) := by
      have hpower : (0 : ℚ) < 10 ^ exponent := zpow_pos (by norm_num) _
      calc amount coefficient exponent < (10 ^ (count + 1) : Nat) * 10 ^ exponent :=
            mul_lt_mul_of_pos_right (Nat.cast_lt.mpr hlt) hpower
        _ = 10 ^ ((count + 1 : Nat) + exponent) := by
            rw [zpow_add₀ (by norm_num), zpow_natCast, Nat.cast_pow, Nat.cast_ofNat]
        _ ≤ 10 ^ (scale - 1) := zpow_le_zpow_right₀ (by norm_num) (by push_cast; omega)
    rw [hlead]
    exact .inr ⟨hless, hfound.above, hread.between (roundsTo_unitsOfRank rank)
      (mul_le_mul_of_nonneg_right hless.le (Nat.cast_nonneg _)) hfound.above⟩

/-- No decimal of fewer digits is read as the number. -/
theorem Found.digits_le (hbound : rank < rankBound) {coefficient count : Nat} {exponent : Int}
    (hread : RoundsTo (amount coefficient exponent * unitsPerOne) rank)
    (hlt : coefficient < 10 ^ (count + 1)) : digits ≤ count := by
  by_contra hmore
  have hnone := hfound.first count (by omega)
  rcases hfound.exists_multiple hread hlt with ⟨shift, -, hsame⟩ | ⟨-, -, hlead⟩
  · exact onGrid?_ne_none _ hbound (hsame ▸ hread) hnone
  · exact onGrid?_ne_none _ hbound hlead hnone

/-- Of the decimals of as many digits no one is nearer; one that is just as near is odd. -/
theorem Found.nearest {coefficient : Nat} {exponent : Int}
    (hread : RoundsTo (amount coefficient exponent * unitsPerOne) rank)
    (hlt : coefficient < 10 ^ (digits + 1)) :
    |amount best (scale - 1 - digits) * unitsPerOne - unitsOfRank rank| ≤
        |amount coefficient exponent * unitsPerOne - unitsOfRank rank| ∧
      (|amount coefficient exponent * unitsPerOne - unitsOfRank rank| =
          |amount best (scale - 1 - digits) * unitsPerOne - unitsOfRank rank| →
        amount coefficient exponent ≠ amount best (scale - 1 - digits) →
          exponent = scale - 1 - digits ∧ best % 2 = 0 ∧ coefficient % 2 = 1) := by
  have hstep := step_pos (scale - 1 - digits)
  rcases hfound.exists_multiple hread hlt with ⟨shift, hshift, hsame⟩ | ⟨hless, hle, hlead⟩
  · rw [hsame] at hread ⊢
    rw [distance_onScale, distance_onScale]
    refine ⟨mul_le_mul_of_nonneg_right (hfound.best.nearest _ hread) hstep.le, fun htie hne => ?_⟩
    have hparity := hfound.best.even_at_tie _ hread (mul_right_cancel₀ hstep.ne' htie)
      fun heq => hne (by rw [heq])
    cases shift with
    | zero =>
        rw [pow_zero, Nat.mul_one] at hparity
        exact ⟨by rw [hshift]; exact Int.add_zero _, hparity⟩
    | succ shift =>
        rw [pow_succ, ← Nat.mul_assoc] at hparity
        omega
  · have hbest := mul_le_mul_of_nonneg_right (hfound.best.nearest _ hlead) hstep.le
    rw [← distance_onScale, ← distance_onScale] at hbest
    have hone : (0 : ℚ) < unitsPerOne := by exact_mod_cast unitsPerOne_pos
    have hless := mul_lt_mul_of_pos_right hless hone
    rw [abs_of_nonpos (by linarith : amount (10 ^ digits) _ * unitsPerOne - _ ≤ (0 : ℚ))] at hbest
    rw [abs_of_nonpos (by linarith : amount coefficient _ * unitsPerOne - _ ≤ (0 : ℚ))]
    exact ⟨by linarith, fun htie _ => by linarith⟩

/-- The multiple ends in a zero only where it has carried to ten, from one digit. -/
theorem Found.eq_ten (hpos : 0 < rank) (hbound : rank < rankBound) (hzero : best % 10 = 0) :
    digits = 0 ∧ best = 10 := by
  have hread := hfound.best.reads
  have hbest := pos_of_roundsTo hpos hread
  have hle := hfound.best_le
  -- the zeros can be moved, and fewer digits are left then
  have hfewer {coefficient shift count : Nat} (heq : best = coefficient * 10 ^ shift)
      (hlt : coefficient < 10 ^ (count + 1)) : digits ≤ count := by
    refine @Found.digits_le _ _ _ _ hfound hbound coefficient count
      (scale - 1 - digits + shift) ?_ hlt
    have hsame : amount coefficient (scale - 1 - digits + shift) =
        amount best (scale - 1 - digits) := by
      rw [amount, amount, heq, zpow_add₀ (by norm_num), zpow_natCast]
      push_cast
      ring
    rwa [hsame]
  cases digits with
  | zero => exact ⟨rfl, by omega⟩
  | succ digits =>
      exfalso
      rw [Nat.pow_succ] at hle
      rcases Nat.lt_or_ge (best / 10) (10 ^ (digits + 1)) with hlt | hge
      · exact absurd (@hfewer (best / 10) 1 digits (by omega) hlt) (by omega)
      · have hpower : best = 1 * 10 ^ (digits + 1 + 1) := by
          rw [Nat.pow_succ]
          omega
        exact absurd (@hfewer 1 _ 0 hpower (by decide)) (by omega)

end Found

/-- The least numbers are as many units as their rank. -/
theorem unitsOfRank_of_le {rank : Nat} (hsmall : rank ≤ significandSpan) :
    unitsOfRank rank = rank := by
  have hunits := @unitsOfRank_scaled 0 rank (by omega) (.inl rfl)
  rwa [Nat.zero_mul, Nat.zero_add, pow_zero, Nat.mul_one] at hunits

/-- So wide a gap as half of nine and a half parts of a power of ten is there only among the least
numbers. -/
theorem rank_le_nine {rank : Nat} {grid : Int} (hpos : 0 < rank)
    (hread : RoundsTo (amount 9 grid * unitsPerOne) rank)
    (hhalf : onScale (unitsOfRank rank) grid = 19 / 2) : rank ≤ 9 := by
  have hunits := cast_unitsOfRank_lt hpos
  have hlow := hread.below_le hpos
  have hscale := onScale_mul (unitsOfRank rank) grid
  rw [unitsOfRank_zero, Nat.cast_zero] at hunits
  rw [amount_mul] at hlow
  rw [hhalf] at hscale
  push_cast at hlow
  have hgap : (2 * unitsOfRank rank : ℚ) ≤ 19 * (unitsOfRank rank - unitsOfRank (rank - 1)) := by
    linarith
  have hspan : (significandSpan : ℚ) = 4503599627370496 := by norm_num [significandSpan]
  have hsmall : rank ≤ significandSpan := by
    by_contra hlarge
    have hstep := @lt_unitsOfRank_succ (rank - 1) (by omega)
    rw [Nat.sub_add_cancel hpos, hspan] at hstep
    linarith
  rw [unitsOfRank_of_le hsmall, unitsOfRank_of_le ((Nat.sub_le _ _).trans hsmall),
    Nat.cast_sub hpos] at hgap
  have hle : (2 * rank : ℚ) ≤ 19 := by
    push_cast at hgap
    linarith
  have hle : 2 * rank ≤ 19 := by exact_mod_cast hle
  omega

/-- No number lies half-way between nine and ten parts of a power of ten and is nine of them when
read. -/
theorem onScale_ne_half {rank : Nat} {grid : Int} (hpos : 0 < rank)
    (hread : RoundsTo (amount 9 grid * unitsPerOne) rank) :
    onScale (unitsOfRank rank) grid ≠ 19 / 2 := by
  intro hhalf
  have hnine := rank_le_nine hpos hread hhalf
  -- none of the least numbers is a multiple of nineteen
  rw [onScale_eq_div, unitsOfRank_of_le (hnine.trans (by decide)), div_eq_div_iff (by exact_mod_cast
    (Nat.mul_pos unitsPerOne_pos (Nat.pow_pos (by decide))).ne') two_ne_zero] at hhalf
  have hhalf : rank * Nat.pow 10 (-grid).toNat * 2 =
      19 * (unitsPerOne * Nat.pow 10 grid.toNat) := by exact_mod_cast hhalf
  have hdvd : 19 ∣ 2 * rank * 10 ^ (-grid).toNat :=
    ⟨unitsPerOne * Nat.pow 10 grid.toNat, by rw [← hhalf, Nat.pow_eq]; ring⟩
  have hcoprime : Nat.Coprime 19 (10 ^ (-grid).toNat) := Nat.Coprime.pow_right _ (by decide)
  have hle := Nat.le_of_dvd (by omega) (hcoprime.dvd_of_dvd_mul_right hdvd)
  omega

/-- An odd digit that is just as near as ten, where ten is near, is nine, half a unit away. -/
theorem nine_of_tie {digit : Nat} {quantity : ℚ} (hdigit : digit < 10) (hodd : digit % 2 = 1)
    (hclose : 10 - quantity ≤ 1) (htie : |(digit : ℚ) - quantity| = 10 - quantity) :
    digit = 9 ∧ quantity = 19 / 2 := by
  have hge : (8 : ℚ) ≤ digit := by
    have hle := neg_abs_le ((digit : ℚ) - quantity)
    linarith
  have hge : 8 ≤ digit := by exact_mod_cast hge
  obtain rfl : digit = 9 := by omega
  refine ⟨rfl, ?_⟩
  rcases abs_cases (((9 : Nat) : ℚ) - quantity) with ⟨heq, -⟩ | ⟨heq, -⟩
  all_goals
    rw [heq] at htie
    push_cast at htie
    linarith

/-- Where another decimal of as many digits is just as near, the one that is found is even. -/
theorem Found.even_at_tie {rank digits best coefficient : Nat} {scale exponent : Int}
    (hfound : Found rank digits best scale) (hpos : 0 < rank) (hbound : rank < rankBound)
    (hread : RoundsTo (amount coefficient exponent * unitsPerOne) rank)
    (hlt : coefficient < 10 ^ (digits + 1))
    (htie : |amount coefficient exponent * unitsPerOne - unitsOfRank rank| =
      |amount best (scale - 1 - digits) * unitsPerOne - unitsOfRank rank|)
    (hne : amount coefficient exponent ≠ amount best (scale - 1 - digits)) :
    (trimZeros best (scale - 1 - digits)).1 % 2 = 0 ∧ coefficient % 2 = 1 := by
  obtain ⟨rfl, heven, hodd⟩ := (hfound.nearest hread hlt).2 htie hne
  refine ⟨?_, hodd⟩
  by_cases hzero : best % 10 = 0
  · -- ten and nine at the same distance, which is that of no number
    exfalso
    obtain ⟨rfl, rfl⟩ := hfound.eq_ten hpos hbound hzero
    have hbelow := hfound.onScale_bounds.2
    have hclose := (le_abs_self _).trans hfound.best.close
    rw [zero_add, pow_one] at hbelow hlt
    rw [distance_onScale, distance_onScale] at htie
    have htie := mul_right_cancel₀ (step_pos _).ne' htie
    generalize hquantity : onScale (unitsOfRank rank) (scale - 1 - (0 : Nat)) = quantity at *
    rw [Nat.cast_ofNat] at hclose htie
    rw [abs_of_pos (by linarith : (0 : ℚ) < 10 - quantity)] at htie
    obtain ⟨rfl, hhalf⟩ := nine_of_tie hlt hodd hclose htie
    exact onScale_ne_half hpos hread (hquantity.trans hhalf)
  · rwa [trimZeros, if_pos (.inr hzero)]

end Double

/-! ## The shortest decimal -/

open Double (finite roundsTo_rankOfDecimal rankOfDecimal_eq_of_roundsTo shortest signedUnits
  unitsOfRank unitsPerOne withSign RoundsTo)

/-- A decimal that a number is written with: it is read as the number, no decimal of fewer digits
is, no other one of as many digits is nearer to the number, and it is the even one if another one is
just as near. -/
structure Decimal.IsShortest (decimal : Decimal) (negative : Bool) (rank : Fin rankBound) :
    Prop where
  reads : decimal.toDouble = .finite negative rank
  fewest : ∀ other : Decimal, other.toDouble = .finite negative rank →
    decimal.coefficient.repr.length ≤ other.coefficient.repr.length
  nearest : ∀ other : Decimal, other.toDouble = .finite negative rank →
    other.coefficient.repr.length = decimal.coefficient.repr.length →
      |decimal.value * unitsPerOne - signedUnits negative rank| ≤
        |other.value * unitsPerOne - signedUnits negative rank|
  even_at_tie : ∀ other : Decimal, other.toDouble = .finite negative rank →
    other.coefficient.repr.length = decimal.coefficient.repr.length →
      |other.value * unitsPerOne - signedUnits negative rank| =
        |decimal.value * unitsPerOne - signedUnits negative rank| →
          other.value ≠ decimal.value → decimal.coefficient % 2 = 0

namespace Decimal

theorem toDouble_eq_finite {decimal : Decimal} {negative : Bool} {rank : Fin rankBound} :
    decimal.toDouble = .finite negative rank ↔ decimal.negative = negative ∧
      RoundsTo (amount decimal.coefficient decimal.exponent * unitsPerOne) rank := by
  rw [toDouble, Double.ofDecimal_eq]
  constructor
  · intro hread
    have hsign : decimal.negative = negative := by
      unfold Double.ofRank at hread
      split at hread
      next => exact (Double.finite.inj hread).1
      next => cases hread
    subst hsign
    refine ⟨rfl, ?_⟩
    have hrank :=
      Double.eq_of_ofRank rank.isLt (hread.trans (by rw [Double.ofRank, dif_pos rank.isLt]))
    rw [← hrank]
    exact roundsTo_rankOfDecimal _ _
  · rintro ⟨rfl, hround⟩
    rw [rankOfDecimal_eq_of_roundsTo hround, Double.ofRank, dif_pos rank.isLt]

/-- The sign does not matter for the distance from a number of the same sign. -/
theorem abs_value_sub {decimal : Decimal} {negative : Bool} (hsign : decimal.negative = negative)
    (rank : Fin rankBound) : |decimal.value * unitsPerOne - signedUnits negative rank| =
      |amount decimal.coefficient decimal.exponent * unitsPerOne - unitsOfRank rank| := by
  subst hsign
  unfold value signedUnits withSign
  cases decimal.negative with
  | false => simp
  | true =>
      rw [← abs_neg]
      congr 1
      push_cast
      simp only [if_true]
      ring

theorem value_eq_iff_amount {decimal decimal' : Decimal}
    (hsign : decimal.negative = decimal'.negative) : decimal.value = decimal'.value ↔
      amount decimal.coefficient decimal.exponent =
        amount decimal'.coefficient decimal'.exponent := by
  unfold value
  rw [hsign]
  split
  next => exact neg_inj
  next => exact Iff.rfl

end Decimal

namespace Double

theorem exists_found_shortest (negative : Bool) {rank : Fin rankBound} (hpos : 0 < rank.val) :
    ∃ digits best scale, Found rank digits best scale ∧
      (shortest negative rank).coefficient = (trimZeros best (scale - 1 - digits)).1 ∧
      amount (shortest negative rank).coefficient (shortest negative rank).exponent =
        amount best (scale - 1 - digits) := by
  obtain ⟨digits, best, scale, hfound, heq⟩ := exists_found hpos rank.isLt
  unfold shortest
  rw [if_neg hpos.ne', heq]
  exact ⟨digits, best, scale, hfound, rfl, amount_trimZeros _ _⟩

/-- A number is written with seventeen digits or fewer. -/
theorem coefficient_shortest_lt (negative : Bool) (rank : Fin rankBound) :
    (shortest negative rank).coefficient < 10 ^ 17 := by
  rcases Nat.eq_zero_or_pos rank.val with hzero | hpos
  · unfold shortest
    rw [if_pos hzero]
    exact Nat.pow_pos (by decide)
  · obtain ⟨digits, best, scale, hfound, heq, -⟩ := exists_found_shortest negative hpos
    rw [heq]
    exact (trimZeros_lt hfound.best_le _).trans_le
      (Nat.pow_le_pow_right (by decide) hfound.lt_seventeen)

/-- Any decimal that is read as a positive number is held against the one that is found. -/
theorem Found.length_le {rank digits best coefficient : Nat} {scale exponent : Int}
    (hfound : Found rank digits best scale) (hbound : rank < rankBound)
    (hread : RoundsTo (amount coefficient exponent * unitsPerOne) rank) :
    digits + 1 ≤ coefficient.repr.length := by
  obtain ⟨count, hcount⟩ := Nat.exists_eq_add_one_of_ne_zero (@Nat.length_repr_pos coefficient).ne'
  have hlt := Decimal.lt_pow_length_repr coefficient
  rw [hcount] at hlt ⊢
  exact Nat.succ_le_succ (hfound.digits_le hbound hread hlt)

theorem Found.length_eq {rank digits best : Nat} {scale : Int}
    (hfound : Found rank digits best scale) (hbound : rank < rankBound) :
    (trimZeros best (scale - 1 - digits)).1.repr.length = digits + 1 := by
  apply Nat.le_antisymm
  · exact (Nat.length_repr_le_iff (Nat.succ_pos _)).mpr (trimZeros_lt hfound.best_le _)
  · apply @Found.length_le _ _ _ _ _ (trimZeros best (scale - 1 - digits)).2 hfound hbound
    rw [amount_trimZeros]
    exact hfound.best.reads

theorem isShortest_shortest (negative : Bool) (rank : Fin rankBound) :
    (shortest negative rank).IsShortest negative rank := by
  have hreads := toDouble_shortest negative rank
  rcases Nat.eq_zero_or_pos rank.val with hzero | hpos
  · have heq : shortest negative rank = ⟨negative, 0, 0⟩ := if_pos hzero
    have hexact : (shortest negative rank).value * unitsPerOne - signedUnits negative rank = 0 := by
      rw [heq, Decimal.value_eq, signedUnits, hzero, unitsOfRank_zero]
      cases negative <;> simp [withSign]
    refine ⟨hreads, fun other _ => ?_, fun other _ _ => ?_, fun other _ _ _ _ => ?_⟩
    · rw [heq]
      exact ((Nat.length_repr_le_iff one_pos).mpr (Nat.pow_pos (by decide))).trans
        other.coefficient.length_repr_pos
    · rw [hexact, abs_zero]
      exact abs_nonneg _
    · rw [heq]
      rfl
  · obtain ⟨digits, best, scale, hfound, hcoefficient, hamount⟩ :=
      exists_found_shortest negative hpos
    have hsign := negative_shortest negative rank
    have hlength := hfound.length_eq rank.isLt
    rw [← hcoefficient] at hlength
    refine ⟨hreads, fun other hother => ?_, fun other hother hsame => ?_,
      fun other hother hsame htie hne => ?_⟩
    all_goals obtain ⟨hsign', hread⟩ := Decimal.toDouble_eq_finite.mp hother
    · rw [hlength]
      exact hfound.length_le rank.isLt hread
    all_goals
      have hlt := Decimal.lt_pow_length_repr other.coefficient
      rw [hsame, hlength] at hlt
    · rw [Decimal.abs_value_sub hsign, Decimal.abs_value_sub hsign', hamount]
      exact (hfound.nearest hread hlt).1
    · rw [Decimal.abs_value_sub hsign, Decimal.abs_value_sub hsign', hamount] at htie
      rw [ne_eq, Decimal.value_eq_iff_amount (hsign'.trans hsign.symm), hamount] at hne
      rw [hcoefficient]
      exact (hfound.even_at_tie hpos rank.isLt hread hlt htie hne).1

end Double

/-- A number has no other shortest decimal. -/
theorem Decimal.IsShortest.value_eq {decimal : Decimal} {negative : Bool} {rank : Fin rankBound}
    (hshortest : decimal.IsShortest negative rank) :
    decimal.value = (shortest negative rank).value := by
  have hself := Double.isShortest_shortest negative rank
  have hlength := le_antisymm (hshortest.fewest _ hself.reads) (hself.fewest _ hshortest.reads)
  have htie := le_antisymm (hshortest.nearest _ hself.reads hlength.symm)
    (hself.nearest _ hshortest.reads hlength)
  by_contra hne
  rcases Nat.eq_zero_or_pos rank.val with hzero | hpos
  · have hunits : signedUnits negative rank = 0 := by
      rw [signedUnits, hzero, Double.unitsOfRank_zero]
      cases negative <;> rfl
    have hvalue : (shortest negative rank).value = 0 := by
      rw [shortest, if_pos hzero]
      simp [value, amount]
    rw [hunits, hvalue, Int.cast_zero, sub_zero, zero_mul, sub_zero, abs_zero, abs_eq_zero,
      mul_eq_zero] at htie
    have hone : (unitsPerOne : ℚ) ≠ 0 := by exact_mod_cast Double.unitsPerOne_pos.ne'
    exact hne ((htie.resolve_right hone).trans hvalue.symm)
  · obtain ⟨digits, best, scale, hfound, hcoefficient, hamount⟩ :=
      Double.exists_found_shortest negative hpos
    have hsign := Double.negative_shortest negative rank
    have heven := hshortest.even_at_tie _ hself.reads hlength.symm htie.symm (Ne.symm hne)
    obtain ⟨hsign', hread⟩ := toDouble_eq_finite.mp hshortest.reads
    have hlt := lt_pow_length_repr decimal.coefficient
    rw [hlength, hcoefficient, hfound.length_eq rank.isLt] at hlt
    rw [abs_value_sub hsign, abs_value_sub hsign', hamount] at htie
    rw [value_eq_iff_amount (hsign'.trans hsign.symm), hamount] at hne
    have hodd := (hfound.even_at_tie hpos rank.isLt hread hlt htie hne).2
    omega

end Exemplar
