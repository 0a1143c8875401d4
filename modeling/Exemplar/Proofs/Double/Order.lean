import Exemplar.Proofs.Double.Magnitude
import Mathlib.Algebra.Order.Field.Rat

/-!
# Rounding keeps order

Sums and products are rounded from exact quantities of units. With the sign taken
in, rounding is one monotone and odd map from such quantities to the units of
numbers, which leaves those of numbers alone. A result therefore stays on the side of
every number on which the exact quantity lies, and whole quantities stay whole.
-/

namespace Exemplar

namespace Double

/-! ## The rounding of a quantity -/

/-- The rank nearest to the magnitude of a quantity of units. -/
def magnitudeRank (quantity : ℚ) : Nat := nearestRank quantity.num.natAbs quantity.den

/-- The units that a quantity of units is rounded to. -/
def rounded (quantity : ℚ) : ℤ :=
  withSign (quantity < 0) (unitsOfRank (magnitudeRank quantity))

theorem natAbs_num_div_den (quantity : ℚ) :
    (quantity.num.natAbs : ℚ) / quantity.den = |quantity| := by
  conv_rhs => rw [← Rat.num_div_den quantity, abs_div, Nat.abs_cast]
  rw [Nat.cast_natAbs, Int.cast_abs]

theorem roundsTo_magnitudeRank (quantity : ℚ) : RoundsTo |quantity| (magnitudeRank quantity) := by
  rw [← natAbs_num_div_den]
  exact roundsTo_nearestRank _ quantity.den_pos

theorem magnitudeRank_mono {quantity quantity' : ℚ} (hle : |quantity| ≤ |quantity'|) :
    magnitudeRank quantity ≤ magnitudeRank quantity' :=
  (roundsTo_magnitudeRank quantity).mono (roundsTo_magnitudeRank quantity') hle

theorem magnitudeRank_eq {quantity : ℚ} {rank : Nat} (hround : RoundsTo |quantity| rank) :
    magnitudeRank quantity = rank :=
  Nat.le_antisymm ((roundsTo_magnitudeRank quantity).mono hround le_rfl)
    (hround.mono (roundsTo_magnitudeRank quantity) le_rfl)

theorem magnitudeRank_neg (quantity : ℚ) : magnitudeRank (-quantity) = magnitudeRank quantity :=
  magnitudeRank_eq (by rw [abs_neg]; exact roundsTo_magnitudeRank quantity)

theorem magnitudeRank_zero : magnitudeRank 0 = 0 := by
  apply magnitudeRank_eq
  simpa [unitsOfRank_zero] using roundsTo_unitsOfRank 0

theorem rounded_of_nonneg {quantity : ℚ} (hnonneg : 0 ≤ quantity) :
    rounded quantity = unitsOfRank (magnitudeRank quantity) := by
  rw [rounded, decide_eq_false (not_lt.mpr hnonneg)]
  rfl

@[simp]
theorem rounded_zero : rounded 0 = 0 := by
  rw [rounded_of_nonneg le_rfl, magnitudeRank_zero, unitsOfRank_zero, Nat.cast_zero]

/-- A quantity and its opposite are rounded alike. -/
theorem rounded_neg (quantity : ℚ) : rounded (-quantity) = -rounded quantity := by
  rcases lt_trichotomy quantity 0 with hneg | rfl | hpos
  · rw [rounded_of_nonneg (neg_nonneg.mpr hneg.le), magnitudeRank_neg, rounded,
      decide_eq_true hneg, withSign, if_pos rfl, neg_neg]
  · rw [neg_zero, rounded_zero, neg_zero]
  · rw [rounded, magnitudeRank_neg, decide_eq_true (neg_lt_zero.mpr hpos), withSign, if_pos rfl,
      rounded_of_nonneg hpos.le]

theorem rounded_nonneg {quantity : ℚ} (hnonneg : 0 ≤ quantity) : 0 ≤ rounded quantity := by
  rw [rounded_of_nonneg hnonneg]
  exact Int.natCast_nonneg _

theorem rounded_le_of_nonneg {quantity quantity' : ℚ} (hnonneg : 0 ≤ quantity)
    (hle : quantity ≤ quantity') : rounded quantity ≤ rounded quantity' := by
  have hnonneg' := hnonneg.trans hle
  rw [rounded_of_nonneg hnonneg, rounded_of_nonneg hnonneg']
  rw [← abs_of_nonneg hnonneg, ← abs_of_nonneg hnonneg'] at hle
  exact_mod_cast unitsOfRank_strictMono.monotone (magnitudeRank_mono hle)

/-- A larger quantity is never rounded to less. -/
theorem rounded_mono {quantity quantity' : ℚ} (hle : quantity ≤ quantity') :
    rounded quantity ≤ rounded quantity' := by
  rcases le_total 0 quantity with hnonneg | hneg
  · exact rounded_le_of_nonneg hnonneg hle
  · rcases le_total 0 quantity' with hnonneg' | hneg'
    · have hopposite := rounded_nonneg (neg_nonneg.mpr hneg)
      rw [rounded_neg] at hopposite
      have := rounded_nonneg hnonneg'
      omega
    · have hopposite := rounded_le_of_nonneg (neg_nonneg.mpr hneg') (neg_le_neg hle)
      rw [rounded_neg, rounded_neg] at hopposite
      omega

theorem rounded_natCast {n rank : Nat} (hrank : unitsOfRank rank = n) : rounded n = n := by
  have hround : RoundsTo |(n : ℚ)| rank := by
    rw [Nat.abs_cast, ← hrank]
    exact roundsTo_unitsOfRank rank
  rw [rounded_of_nonneg (Nat.cast_nonneg n), magnitudeRank_eq hround, hrank]

/-- Rounding leaves the units of a number alone. -/
theorem rounded_signedUnits (negative : Bool) (rank : Fin rankBound) :
    rounded (signedUnits negative rank) = signedUnits negative rank := by
  cases negative with
  | false => exact rounded_natCast rfl
  | true =>
      have hunits : signedUnits true rank = -(unitsOfRank rank : ℤ) := rfl
      rw [hunits, Int.cast_neg, rounded_neg, Int.cast_natCast, rounded_natCast rfl]

theorem rounded_rounded (quantity : ℚ) : rounded (rounded quantity) = rounded quantity := by
  rcases le_total 0 quantity with hnonneg | hneg
  · rw [rounded_of_nonneg hnonneg, Int.cast_natCast, rounded_natCast rfl]
  · have hopposite := rounded_of_nonneg (neg_nonneg.mpr hneg)
    rw [rounded_neg, neg_eq_iff_eq_neg] at hopposite
    rw [hopposite, Int.cast_neg, rounded_neg, Int.cast_natCast, rounded_natCast rfl]

/-! ## Whole quantities -/

/-- An integer of at most 53 bits is not rounded at all. -/
theorem rounded_whole {n : ℤ} (hn : n.natAbs ≤ 2 * significandSpan) :
    rounded (n * unitsPerOne : ℤ) = n * unitsPerOne := by
  obtain ⟨rank, hrank⟩ := exists_unitsOfRank_eq hn unitExponent
  rw [← unitsPerOne_eq] at hrank
  have hmagnitude := rounded_natCast hrank
  rcases Int.natAbs_eq n with hpos | hneg
  · rw [hpos]
    exact_mod_cast hmagnitude
  · rw [hneg, neg_mul, Int.cast_neg, rounded_neg, neg_inj]
    exact_mod_cast hmagnitude

/-- From `2 ^ 53` on, magnitudes are multiples of their distance, which is two at least. -/
theorem exists_scaled_of_large {rank : Nat} (hrank : rankOfPower 53 ≤ rank) :
    ∃ shift significand, unitExponent ≤ shift ∧
      unitsOfRank rank = significand * (2 * 2 ^ shift) ∧
      unitsOfRank (rank + 1) = (significand + 1) * (2 * 2 ^ shift) := by
  obtain ⟨shift, significand, hlt, hnormal, rfl⟩ := exists_scaled rank
  have hshift : 1074 * significandSpan < shift * significandSpan := by
    unfold rankOfPower at hrank
    omega
  have hshift := Nat.lt_of_mul_lt_mul_right hshift
  obtain ⟨below, rfl⟩ := Nat.exists_eq_add_one_of_ne_zero (Nat.ne_zero_of_lt hshift)
  have hunits := unitsOfRank_scaled hlt.le hnormal
  have hnext := @unitsOfRank_scaled (below + 1) (significand + 1) hlt
    (hnormal.imp_right Nat.le_succ_of_le)
  rw [Nat.pow_succ'] at hunits hnext
  exact ⟨below, significand, Nat.le_of_lt_succ hshift, hunits, by rw [Nat.add_assoc, hnext]⟩

theorem dvd_unitsOfRank {rank : Nat} (hrank : rankOfPower 53 ≤ rank) :
    unitsPerOne ∣ unitsOfRank rank := by
  obtain ⟨shift, significand, hshift, hunits, -⟩ := exists_scaled_of_large hrank
  rw [hunits, unitsPerOne_eq]
  exact ((Nat.pow_dvd_pow 2 hshift).mul_left 2).mul_left significand

theorem unitsOfRank_add_two_le {rank : Nat} (hrank : rankOfPower 53 ≤ rank) :
    unitsOfRank rank + 2 * unitsPerOne ≤ unitsOfRank (rank + 1) := by
  obtain ⟨shift, significand, hshift, hunits, hnext⟩ := exists_scaled_of_large hrank
  have hgap : unitsPerOne ≤ 2 ^ shift := by
    obtain ⟨extra, rfl⟩ := Nat.exists_eq_add_of_le hshift
    rw [Nat.pow_add, ← unitsPerOne_eq]
    exact Nat.le_mul_of_pos_right _ (Nat.two_pow_pos extra)
  rw [hunits, hnext, Nat.add_one_mul significand]
  exact Nat.add_le_add_left (Nat.mul_le_mul_left 2 hgap) _

/-- An integer is rounded to an integer. -/
theorem dvd_rounded (n : ℤ) : (unitsPerOne : ℤ) ∣ rounded (n * unitsPerOne : ℤ) := by
  rcases Nat.le_total n.natAbs (2 * significandSpan) with hsmall | hlarge
  · rw [rounded_whole hsmall]
    exact dvd_mul_left _ n
  · have hle : (unitsOfRank (rankOfPower 53) : ℚ) ≤ |((n * unitsPerOne : ℤ) : ℚ)| := by
      rw [unitsOfRank_rankOfPower, ← Int.cast_abs, Int.abs_eq_natAbs, Int.natAbs_mul,
        Int.natAbs_natCast]
      exact_mod_cast Nat.mul_le_mul_right unitsPerOne hlarge
    have hdvd : (unitsPerOne : ℤ) ∣ unitsOfRank (magnitudeRank (n * unitsPerOne : ℤ)) :=
      Int.natCast_dvd_natCast.mpr
        (dvd_unitsOfRank ((roundsTo_unitsOfRank _).mono (roundsTo_magnitudeRank _) hle))
    unfold rounded withSign
    split
    next => exact hdvd.neg_right
    next => exact hdvd

/-- Rounding does not add one twice in a row: of two ties, one that is rounded up to an even rank
and one up to the next, only one can be. -/
theorem not_roundsTo_succ {quantity : ℚ} {rank : Nat} (hpos : 0 < rank)
    (hround : RoundsTo quantity rank) (hless : quantity + unitsPerOne ≤ unitsOfRank rank) :
    ¬RoundsTo (unitsOfRank rank + unitsPerOne) (rank + 1) := by
  intro hnext
  have hlow := hround.below_le hpos
  have hnextLow := hnext.below_le (Nat.succ_pos rank)
  have hconvex : (2 * unitsOfRank rank : ℚ) ≤ unitsOfRank (rank - 1) + unitsOfRank (rank + 1) := by
    have := two_mul_unitsOfRank_succ_le (rank - 1)
    rw [Nat.sub_add_cancel hpos, show rank - 1 + 2 = rank + 1 by omega] at this
    exact_mod_cast this
  rw [Nat.add_sub_cancel] at hnextLow
  have heven := hround.even_below hpos (by linarith)
  have heven' := hnext.even_below (Nat.succ_pos rank) (by rw [Nat.add_sub_cancel]; linarith)
  omega

/-- One more than a rounded integer is rounded to no more than the magnitude after the integer. -/
theorem unitsOfRank_pred_le {n rank next : Nat} (hlarge : 2 ^ 53 ≤ n)
    (hround : RoundsTo (n * unitsPerOne : Nat) rank)
    (hnext : RoundsTo (unitsOfRank rank + unitsPerOne) next) :
    unitsOfRank (next - 1) ≤ n * unitsPerOne := by
  have hrank : rankOfPower 53 ≤ rank := by
    refine (roundsTo_unitsOfRank _).mono hround ?_
    rw [unitsOfRank_rankOfPower]
    exact_mod_cast Nat.mul_le_mul_right unitsPerOne hlarge
  have hpos : 0 < rank := lt_of_lt_of_le (by decide) hrank
  rcases Nat.lt_trichotomy (next - 1) rank with hless | rfl | hmore
  · -- the magnitude lies half a step below the integer, or further
    have hlow := hround.below_le hpos
    have hlast := cast_unitsOfRank_lt (show rank - 1 < rank by omega)
    have hle := cast_unitsOfRank_le (show next - 1 ≤ rank - 1 by omega)
    exact_mod_cast (show (unitsOfRank (next - 1) : ℚ) ≤ (n * unitsPerOne : Nat) by linarith)
  · by_contra hgt
    obtain ⟨m, hm⟩ := dvd_unitsOfRank hrank
    rw [hm, Nat.mul_comm unitsPerOne m, not_le] at hgt
    have hnm : n + 1 ≤ m := Nat.lt_of_mul_lt_mul_right hgt
    refine not_roundsTo_succ hpos hround ?_ (by rwa [Nat.sub_add_cancel (by omega)])
    rw [hm, Nat.mul_comm unitsPerOne m]
    exact_mod_cast (Nat.add_one_mul n unitsPerOne).ge.trans (Nat.mul_le_mul_right _ hnm)
  · -- the next magnitude is two away, so that one more does not reach it
    have hgap : (unitsOfRank rank + 2 * unitsPerOne : ℚ) ≤ unitsOfRank (rank + 1) := by
      exact_mod_cast unitsOfRank_add_two_le hrank
    have hone : (0 : ℚ) < unitsPerOne := by exact_mod_cast unitsPerOne_pos
    have hlow := hnext.below_le (by omega)
    have hle := cast_unitsOfRank_le (show rank + 1 ≤ next - 1 by omega)
    have hlast := cast_unitsOfRank_lt (show next - 1 < next by omega)
    linarith

/-- A number one more than a rounded integer follows a number that is at most the integer. -/
theorem exists_rounded_succ {n : Nat} (hlarge : 2 ^ 53 ≤ n) :
    ∃ next, significandSpan < next ∧ unitsOfRank (next - 1) ≤ n * unitsPerOne ∧
      rounded (rounded (n * unitsPerOne : ℤ) + 1 * unitsPerOne : ℤ) = unitsOfRank next := by
  have hnonneg : (0 : ℚ) ≤ (n * unitsPerOne : Nat) := Nat.cast_nonneg _
  have hround := roundsTo_magnitudeRank (n * unitsPerOne : Nat)
  have hrounded := rounded_of_nonneg hnonneg
  generalize magnitudeRank (n * unitsPerOne : Nat) = rank at hround hrounded
  have hnonneg' : (0 : ℚ) ≤ unitsOfRank rank + unitsPerOne :=
    add_nonneg (Nat.cast_nonneg _) (Nat.cast_nonneg _)
  have hround' := roundsTo_magnitudeRank (unitsOfRank rank + unitsPerOne)
  have hrounded' := rounded_of_nonneg hnonneg'
  generalize magnitudeRank (unitsOfRank rank + unitsPerOne) = next at hround' hrounded'
  rw [abs_of_nonneg hnonneg] at hround
  rw [abs_of_nonneg hnonneg'] at hround'
  refine ⟨next, ?_, unitsOfRank_pred_le hlarge hround hround', ?_⟩
  · have hone : (unitsOfRank (rankOfPower 0) : ℚ) ≤ unitsOfRank rank + unitsPerOne := by
      rw [unitsOfRank_one]
      exact_mod_cast Nat.le_add_left _ _
    exact lt_of_lt_of_le (by decide) ((roundsTo_unitsOfRank _).mono hround' hone)
  · push_cast at hrounded hrounded' ⊢
    rw [hrounded, one_mul]
    exact_mod_cast hrounded'

/-! ## Results -/

theorem extent_infinite_ne (negative : Bool) (count : ℤ) :
    (infinite negative).extent ≠ .units count := by
  cases negative <;> simp [extent]

/-- A sum is finite only if both terms are. -/
theorem exists_units_of_add {x y : Double} {count : ℤ} (hsum : (x + y).extent = .units count) :
    (∃ a, x.extent = .units a) ∧ ∃ b, y.extent = .units b := by
  cases x with
  | nan => cases hsum
  | infinite negative =>
      cases y with
      | nan => cases hsum
      | infinite negative' =>
          change (if negative = negative' then infinite negative else nan).extent = _ at hsum
          split at hsum
          next => exact absurd hsum (extent_infinite_ne _ _)
          next => cases hsum
      | finite negative' rank' => exact absurd hsum (extent_infinite_ne negative count)
  | finite negative rank =>
      cases y with
      | nan => cases hsum
      | infinite negative' => exact absurd hsum (extent_infinite_ne negative' count)
      | finite negative' rank' => exact ⟨⟨_, rfl⟩, ⟨_, rfl⟩⟩

/-- A product is finite only if both factors are. -/
theorem exists_units_of_mul {x y : Double} {count : ℤ} (hproduct : (x * y).extent = .units count) :
    (∃ a, x.extent = .units a) ∧ ∃ b, y.extent = .units b := by
  have hzero {rank : Fin rankBound} {negative : Bool}
      (hresult : (if rank.val = 0 then nan else infinite negative).extent = .units count) :
      False := by
    split at hresult
    next => cases hresult
    next => exact extent_infinite_ne _ _ hresult
  cases x with
  | nan => cases hproduct
  | infinite negative =>
      cases y with
      | nan => cases hproduct
      | infinite negative' => exact absurd hproduct (extent_infinite_ne _ _)
      | finite negative' rank' => exact (hzero hproduct).elim
  | finite negative rank =>
      cases y with
      | nan => cases hproduct
      | infinite negative' => exact (hzero hproduct).elim
      | finite negative' rank' => exact ⟨⟨_, rfl⟩, ⟨_, rfl⟩⟩

theorem ofRank_ne_nan (negative : Bool) (rank : Nat) : ofRank negative rank ≠ nan := by
  unfold ofRank
  split <;> simp

theorem add_finite_ne_nan {x : Double} (hx : x ≠ nan) (negative : Bool) (rank : Fin rankBound) :
    x + finite negative rank ≠ nan := by
  cases x with
  | nan => exact absurd rfl hx
  | infinite negative' => exact nofun
  | finite negative' rank' => exact ofRank_ne_nan _ _

theorem exists_finite_of_extent {x : Double} {count : ℤ} (hx : x.extent = .units count) :
    ∃ negative rank, x = finite negative rank ∧ signedUnits negative rank = count := by
  cases x with
  | nan => cases hx
  | infinite negative => cases negative <;> cases hx
  | finite negative rank => exact ⟨negative, rank, rfl, Extent.units.inj hx⟩

theorem FitsIn.exists_extent {x : Double} {exponent : Nat} (hx : x.FitsIn exponent) :
    ∃ count, x.extent = .units count := by
  obtain ⟨negative, rank, rfl, -⟩ := hx
  exact ⟨_, rfl⟩

theorem rounded_eq_self {x : Double} {count : ℤ} (hx : x.extent = .units count) :
    rounded count = count := by
  obtain ⟨negative, rank, rfl, rfl⟩ := exists_finite_of_extent hx
  exact rounded_signedUnits negative rank

/-- The integer part of a number is that of its units. -/
theorem floor_eq_ok {x : Double} {part : ℤ} :
    x.floor = .ok part ↔ ∃ count, x.extent = .units count ∧ count / unitsPerOne = part := by
  constructor
  · intro hfloor
    cases x with
    | nan => cases hfloor
    | infinite negative => cases hfloor
    | finite negative rank => exact ⟨_, rfl, Except.ok.inj hfloor⟩
  · rintro ⟨count, hx, rfl⟩
    obtain ⟨negative, rank, rfl, rfl⟩ := exists_finite_of_extent hx
    rfl

theorem extent_nearest {negative : Bool} {num den : Nat} {count : ℤ}
    (hresult : (nearest negative num den).extent = .units count) :
    count = withSign negative (unitsOfRank (nearestRank num den)) := by
  unfold nearest ofRank at hresult
  split at hresult
  next => exact (Extent.units.inj hresult).symm
  next => cases negative <;> cases hresult

/-- A result is the rounded quantity that it was computed from. -/
theorem rounded_of_nearest {negative : Bool} {num den : Nat} {count : ℤ} (hden : 0 < den)
    (hresult : (nearest negative num den).extent = .units count) :
    count = rounded ((withSign negative num : ℤ) / den) := by
  have hpos : (0 : ℚ) < den := by exact_mod_cast hden
  have habs : |((withSign negative num : ℤ) : ℚ) / den| = num / den := by
    rw [abs_div, abs_of_pos hpos, ← Int.cast_abs]
    cases negative <;> simp [withSign]
  have hrank : magnitudeRank ((withSign negative num : ℤ) / den) = nearestRank num den :=
    magnitudeRank_eq (habs ▸ roundsTo_nearestRank num hden)
  have hcount := extent_nearest hresult
  rcases Nat.eq_zero_or_pos num with rfl | hnum
  · have hzero : ((withSign negative 0 : ℤ) : ℚ) / den = 0 := by cases negative <;> simp [withSign]
    rw [hzero, rounded_zero, hcount, nearestRank, if_pos rfl, unitsOfRank_zero]
    cases negative <;> rfl
  · have hnum' : (0 : ℚ) < num := by exact_mod_cast hnum
    have hsign : decide (((withSign negative num : ℤ) : ℚ) / den < 0) = negative := by
      cases negative with
      | false => exact decide_eq_false (not_lt.mpr (div_pos hnum' hpos).le)
      | true =>
          refine decide_eq_true (div_neg_of_neg_of_pos ?_ hpos)
          rw [withSign, if_pos rfl, Int.cast_neg, Int.cast_natCast]
          exact neg_lt_zero.mpr hnum'
    rw [hcount, rounded, hrank, hsign]

theorem extent_neg {x : Double} {count : ℤ} (hx : x.extent = .units count) :
    (-x).extent = .units (-count) := by
  obtain ⟨negative, rank, rfl, rfl⟩ := exists_finite_of_extent hx
  cases negative with
  | false => rfl
  | true => exact congrArg Extent.units (neg_neg _).symm

theorem extent_add {x y : Double} {a b count : ℤ} (hx : x.extent = .units a)
    (hy : y.extent = .units b) (hsum : (x + y).extent = .units count) :
    count = rounded (a + b : ℤ) := by
  obtain ⟨negative, rank, rfl, rfl⟩ := exists_finite_of_extent hx
  obtain ⟨negative', rank', rfl, rfl⟩ := exists_finite_of_extent hy
  have hrounded := rounded_of_nearest one_pos hsum
  rw [Nat.cast_one, div_one] at hrounded
  rw [hrounded]
  generalize signedUnits negative rank + signedUnits negative' rank' = total
  congr 2
  unfold withSign
  split
  next hsign =>
    rw [Bool.or_eq_true, Bool.and_eq_true, Bool.and_eq_true, decide_eq_true_eq,
      decide_eq_true_eq] at hsign
    omega
  next hsign =>
    rw [Bool.or_eq_true, not_or, decide_eq_true_eq] at hsign
    omega

theorem extent_sub {x y : Double} {a b count : ℤ} (hx : x.extent = .units a)
    (hy : y.extent = .units b) (hdifference : (x - y).extent = .units count) :
    count = rounded (a - b : ℤ) :=
  extent_add hx (extent_neg hy) hdifference

theorem extent_mul {x y : Double} {a b count : ℤ} (hx : x.extent = .units a)
    (hy : y.extent = .units b) (hproduct : (x * y).extent = .units count) :
    count = rounded ((a * b : ℤ) / unitsPerOne) := by
  obtain ⟨negative, rank, rfl, rfl⟩ := exists_finite_of_extent hx
  obtain ⟨negative', rank', rfl, rfl⟩ := exists_finite_of_extent hy
  have hrounded := rounded_of_nearest unitsPerOne_pos hproduct
  have hsign : withSign (negative != negative') (unitsOfRank rank * unitsOfRank rank') =
      signedUnits negative rank * signedUnits negative' rank' := by
    cases negative <;> cases negative' <;> simp [signedUnits, withSign]
  rw [hrounded, hsign]

theorem withSign_natAbs (n : ℤ) :
    withSign (n < 0) (unitsPerOne * n.natAbs) = n * unitsPerOne := by
  unfold withSign
  split
  next hneg =>
    have hn : (n.natAbs : ℤ) = -n := by
      have := of_decide_eq_true hneg
      omega
    push_cast [hn]
    ring
  next hnonneg =>
    have hn : (n.natAbs : ℤ) = n := by
      rw [decide_eq_true_eq] at hnonneg
      omega
    push_cast [hn]
    ring

theorem extent_ofInt {n : ℤ} {x : Double} (hx : ofInt? n = some x) :
    x.extent = .units (rounded (n * unitsPerOne : ℤ)) := by
  obtain ⟨rank, hrank, rfl⟩ := eq_finite_of_ofInt hx
  have hresult : (nearest (n < 0) (unitsPerOne * n.natAbs) 1).extent =
      .units (signedUnits (n < 0) rank) := by
    rw [nearest, ← hrank, ofRank, dif_pos rank.isLt]
    rfl
  have hrounded := rounded_of_nearest one_pos hresult
  rw [Nat.cast_one, div_one, withSign_natAbs] at hrounded
  exact congrArg Extent.units hrounded

/-- An integer is too large for a finite number if the rank nearest to it is. -/
theorem ofInt?_eq_none {n : ℤ} :
    ofInt? n = none ↔ rankBound ≤ magnitudeRank (n * unitsPerOne : ℤ) := by
  have habs : |((n * unitsPerOne : ℤ) : ℚ)| = (unitsPerOne * n.natAbs : Nat) / (1 : Nat) := by
    rw [Nat.cast_one, div_one, ← Int.cast_abs, abs_mul, Nat.abs_cast, mul_comm]
    push_cast
    rw [Nat.cast_natAbs, Int.cast_abs]
  have hrank : magnitudeRank (n * unitsPerOne : ℤ) = nearestRank (unitsPerOne * n.natAbs) 1 :=
    magnitudeRank_eq (habs ▸ roundsTo_nearestRank _ one_pos)
  rw [hrank]
  unfold ofInt? nearest ofRank
  by_cases hlt : nearestRank (unitsPerOne * n.natAbs) 1 < rankBound
  · rw [dif_pos hlt]
    exact iff_of_false (by simp) (Nat.not_le.mpr hlt)
  · rw [dif_neg hlt]
    exact iff_of_true rfl (Nat.le_of_not_lt hlt)

/-- Apart from zero, the sign of a number is that of its units. -/
theorem negative_eq {negative : Bool} {rank : Fin rankBound} {count : ℤ} (hcount : count ≠ 0)
    (hunits : signedUnits negative rank = count) : negative = decide (count < 0) := by
  subst hunits
  cases negative with
  | false => exact (decide_eq_false (not_lt.mpr (Int.natCast_nonneg _))).symm
  | true =>
      refine (decide_eq_true (lt_of_le_of_ne ?_ hcount)).symm
      exact Int.neg_nonpos_of_nonneg (Int.natCast_nonneg _)

/-- Numbers other than zero are equal if they have the same units. -/
theorem eq_of_extent {x y : Double} {count : ℤ} (hcount : count ≠ 0)
    (hx : x.extent = .units count) (hy : y.extent = .units count) : x = y := by
  obtain ⟨negative, rank, rfl, hunits⟩ := exists_finite_of_extent hx
  obtain ⟨negative', rank', rfl, hunits'⟩ := exists_finite_of_extent hy
  have hrank : unitsOfRank rank = unitsOfRank rank' := by
    rw [← natAbs_signedUnits negative, ← natAbs_signedUnits negative', hunits, hunits']
  rw [negative_eq hcount hunits, negative_eq hcount hunits',
    Fin.ext (unitsOfRank_strictMono.injective hrank)]

end Double

namespace Extent

theorem eq_of_not_lt {a b : Extent} (ha : a ≠ .undefined) (hb : b ≠ .undefined)
    (hnot : a.lt b = false) (hnot' : b.lt a = false) : a = b := by
  cases a <;> cases b <;> simp [lt] at ha hb hnot hnot' ⊢
  omega

theorem lt_of_units_le {a b : ℤ} {extent : Extent} (hle : a ≤ b)
    (hnot : (units a).lt extent = false) : (units b).lt extent = false := by
  cases extent <;> simp [lt] at hnot ⊢
  omega

end Extent

namespace Number

open Double (rounded unitsPerOne)

/-- A number whose value is an integer, be it one or not. -/
def Whole (number : Number) (n : ℤ) : Prop := number.extent = .units (n * unitsPerOne)

theorem whole_int (n : ℤ) : (int n).Whole n := rfl

theorem Whole.eq_of_int {m n : ℤ} (hwhole : (int m).Whole n) : m = n :=
  Int.eq_of_mul_eq_mul_right (by exact_mod_cast Double.unitsPerOne_pos.ne')
    (Extent.units.inj hwhole)

theorem FitsIn.exists_extent {number : Number} {exponent : Nat} (hfits : number.FitsIn exponent) :
    ∃ count, number.extent = .units count := by
  cases number with
  | int value => exact ⟨_, rfl⟩
  | float value => exact Double.FitsIn.exists_extent hfits

theorem extent_toDouble {number : Number} {x : Double} {count : ℤ}
    (hnumber : number.extent = .units count) (hdouble : number.toDouble = .ok x) :
    x.extent = .units (rounded count) := by
  cases number with
  | int value =>
      cases hnumber
      unfold toDouble at hdouble
      dsimp only at hdouble
      split at hdouble
      next heq =>
        cases hdouble
        exact Double.extent_ofInt heq
      next => cases hdouble
  | float value =>
      cases hdouble
      rw [Double.rounded_eq_self hnumber]
      exact hnumber

/-- A number that is no infinity and not NaN. -/
def Finite (number : Number) : Prop := ∃ count, number.extent = .units count

theorem finite_of_toDouble {number : Number} {x : Double} {count : ℤ}
    (hdouble : number.toDouble = .ok x) (hx : x.extent = .units count) : number.Finite := by
  cases number with
  | int value => exact ⟨_, rfl⟩
  | float value =>
      cases hdouble
      exact ⟨count, hx⟩

/-- A number whose conversion to a floating-point number does not round it. -/
def Exact (number : Number) : Prop := ∃ x, number.toDouble = .ok x ∧ x.extent = number.extent

theorem Exact.rounded_eq {number : Number} {count : ℤ} (hexact : number.Exact)
    (hnumber : number.extent = .units count) : rounded count = count := by
  obtain ⟨x, hdouble, hsame⟩ := hexact
  have hx := extent_toDouble hnumber hdouble
  rw [hsame, hnumber] at hx
  exact (Extent.units.inj hx).symm

/-- A result of floating-point numbers is rounded from the rounded operands. -/
theorem extent_of_toDouble {op : Double → Double → Double} {exact : ℤ → ℤ → ℤ}
    (hop : ∀ {x y : Double} {α β count : ℤ}, x.extent = .units α → y.extent = .units β →
      (op x y).extent = .units count → count = rounded (exact α β : ℤ))
    {a b result : Number} {α β count : ℤ} (ha : a.extent = .units α) (hb : b.extent = .units β)
    (hresult : (do
      let x ← a.toDouble
      let y ← b.toDouble
      return float (op x y) : Except Fault Number) = .ok result)
    (hcount : result.extent = .units count) :
    (∃ x, result = .float x) ∧ count = rounded (exact (rounded α) (rounded β) : ℤ) := by
  obtain ⟨x, hx, hresult⟩ := bind_eq_ok.mp hresult
  obtain ⟨y, hy, hresult⟩ := bind_eq_ok.mp hresult
  cases hresult
  exact ⟨⟨_, rfl⟩, hop (extent_toDouble ha hx) (extent_toDouble hb hy) hcount⟩

/-- A sum is that of two integers, or it is rounded from its rounded terms. -/
theorem extent_add {a b sum : Number} {α β count : ℤ} (ha : a.extent = .units α)
    (hb : b.extent = .units β) (hsum : a.add b = .ok sum) (hcount : sum.extent = .units count) :
    ((∃ m, a = .int m) ∧ (∃ n, b = .int n) ∧ count = α + β) ∨
      (∃ x, sum = .float x) ∧ count = rounded (rounded α + rounded β : ℤ) := by
  have hrounded := @extent_of_toDouble (· + ·) (· + ·) Double.extent_add a b sum α β count ha hb
  cases a with
  | int m =>
      cases b with
      | int n =>
          cases hsum
          cases ha
          cases hb
          rw [← Extent.units.inj hcount, add_mul]
          exact .inl ⟨⟨m, rfl⟩, ⟨n, rfl⟩, rfl⟩
      | float y => exact .inr (hrounded hsum hcount)
  | float x => cases b <;> exact .inr (hrounded hsum hcount)

/-- A difference is that of two integers, or it is rounded from its rounded terms. -/
theorem extent_sub {a b difference : Number} {α β count : ℤ} (ha : a.extent = .units α)
    (hb : b.extent = .units β) (hdifference : a.sub b = .ok difference)
    (hcount : difference.extent = .units count) :
    ((∃ m, a = .int m) ∧ (∃ n, b = .int n) ∧ count = α - β) ∨
      (∃ x, difference = .float x) ∧ count = rounded (rounded α - rounded β : ℤ) := by
  have hrounded :=
    @extent_of_toDouble (· - ·) (· - ·) Double.extent_sub a b difference α β count ha hb
  cases a with
  | int m =>
      cases b with
      | int n =>
          cases hdifference
          cases ha
          cases hb
          rw [← Extent.units.inj hcount, sub_mul]
          exact .inl ⟨⟨m, rfl⟩, ⟨n, rfl⟩, rfl⟩
      | float y => exact .inr (hrounded hdifference hcount)
  | float x => cases b <;> exact .inr (hrounded hdifference hcount)

/-- A difference of numbers in order is not negative. -/
theorem extent_sub_nonneg {a b difference : Number} {α β count : ℤ} (ha : a.extent = .units α)
    (hb : b.extent = .units β) (hle : β ≤ α) (hdifference : a.sub b = .ok difference)
    (hcount : difference.extent = .units count) : 0 ≤ count := by
  have hmono : rounded β ≤ rounded α := Double.rounded_mono (by exact_mod_cast hle)
  rcases extent_sub ha hb hdifference hcount with ⟨-, -, rfl⟩ | ⟨-, rfl⟩
  · exact sub_nonneg.mpr hle
  · exact Double.rounded_nonneg (by exact_mod_cast sub_nonneg.mpr hmono)

theorem extent_add_nonneg {a b sum : Number} {α β count : ℤ} (ha : a.extent = .units α)
    (hb : b.extent = .units β) (hα : 0 ≤ α) (hβ : 0 ≤ β) (hsum : a.add b = .ok sum)
    (hcount : sum.extent = .units count) : 0 ≤ count := by
  have hroundedα : 0 ≤ rounded α := Double.rounded_nonneg (by exact_mod_cast hα)
  have hroundedβ : 0 ≤ rounded β := Double.rounded_nonneg (by exact_mod_cast hβ)
  rcases extent_add ha hb hsum hcount with ⟨-, -, rfl⟩ | ⟨-, rfl⟩
  · exact add_nonneg hα hβ
  · exact Double.rounded_nonneg (by exact_mod_cast add_nonneg hroundedα hroundedβ)

/-- A sum is at least the floating-point number that something not negative is added to, as rounding
does not pass it. -/
theorem le_extent_add_float {a sum : Number} {value : Double} {α β count : ℤ}
    (ha : a.extent = .units α) (hb : (float value).extent = .units β) (hα : 0 ≤ α)
    (hsum : a.add (.float value) = .ok sum) (hcount : sum.extent = .units count) : β ≤ count := by
  have hself := @Double.rounded_eq_self value β hb
  rcases extent_add ha hb hsum hcount with ⟨-, ⟨_, hint⟩, -⟩ | ⟨-, rfl⟩
  · cases hint
  · have hrounded : 0 ≤ rounded α := Double.rounded_nonneg (by exact_mod_cast hα)
    rw [hself]
    calc β = rounded β := hself.symm
      _ ≤ _ := Double.rounded_mono (by exact_mod_cast le_add_of_nonneg_left hrounded)

/-- A difference is that of two integers, or that of two floating-point numbers. -/
theorem sub_eq_ok {a b difference : Number} (hdifference : a.sub b = .ok difference) :
    (∃ m n, a = .int m ∧ b = .int n ∧ difference = .int (m - n)) ∨
      ∃ x y, a.toDouble = .ok x ∧ b.toDouble = .ok y ∧ difference = .float (x - y) := by
  have hfloat (hdifference : (do
      let x ← a.toDouble
      let y ← b.toDouble
      return float (x - y) : Except Fault Number) = .ok difference) :
      ∃ x y, a.toDouble = .ok x ∧ b.toDouble = .ok y ∧ difference = .float (x - y) := by
    obtain ⟨x, hx, hdifference⟩ := bind_eq_ok.mp hdifference
    obtain ⟨y, hy, hdifference⟩ := bind_eq_ok.mp hdifference
    cases hdifference
    exact ⟨x, y, hx, hy, rfl⟩
  cases a with
  | int m =>
      cases b with
      | int n =>
          cases hdifference
          exact .inl ⟨m, n, rfl, rfl, rfl⟩
      | float y => exact .inr (hfloat hdifference)
  | float x => cases b <;> exact .inr (hfloat hdifference)

theorem sub_ne_nan {a b difference : Number} (ha : a.Finite) (hb : b.Finite)
    (hdifference : a.sub b = .ok difference) : difference ≠ .float .nan := by
  obtain ⟨α, hα⟩ := ha
  obtain ⟨β, hβ⟩ := hb
  obtain ⟨m, n, -, -, rfl⟩ | ⟨x, y, hx, hy, rfl⟩ := sub_eq_ok hdifference
  · exact nofun
  · obtain ⟨negative, rank, rfl, -⟩ := Double.exists_finite_of_extent (extent_toDouble hα hx)
    obtain ⟨negative', rank', rfl, -⟩ := Double.exists_finite_of_extent (extent_toDouble hβ hy)
    exact fun hnan => Double.ofRank_ne_nan _ _ (Number.float.inj hnan)

/-- What can be taken for a floating-point number is not nearest to a rank beyond all finite
ones. -/
theorem magnitudeRank_lt {number : Number} {x : Double} {count : ℤ}
    (hdouble : number.toDouble = .ok x) (hnumber : number.extent = .units count) :
    Double.magnitudeRank count < rankBound := by
  cases number with
  | int value =>
      cases hnumber
      by_contra hge
      rw [toDouble, Double.ofInt?_eq_none.mpr (Nat.le_of_not_lt hge)] at hdouble
      cases hdouble
  | float value =>
      obtain ⟨negative, rank, rfl, rfl⟩ := Double.exists_finite_of_extent hnumber
      have hround : Double.RoundsTo |(Double.signedUnits negative rank : ℚ)| rank := by
        rw [← Int.cast_abs, Int.abs_eq_natAbs, Double.natAbs_signedUnits, Int.cast_natCast]
        exact Double.roundsTo_unitsOfRank rank
      rw [Double.magnitudeRank_eq hround]
      exact rank.isLt

end Number

end Exemplar
