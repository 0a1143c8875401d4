import Exemplar.Draws
import Exemplar.Proofs.Double.Order

/-!
# Factors from the unit interval

A draw lies at zero or above and below one. Scaling a number by it is rounded
twice where the number is a large integer, once on taking the integer for a
floating-point number and once for the product. Even so the product never
reaches the integer, so that its integer part is always an index below it.
-/

namespace Exemplar

namespace Double

/-- At least zero and less than one. -/
def InUnit (number : Double) : Prop :=
  ∃ count, number.extent = .units count ∧ 0 ≤ count ∧ count < unitsPerOne

/-- A number of the unit interval is a magnitude below one, and zero if its sign is negative. -/
theorem InUnit.exists_finite {number : Double} (hunit : number.InUnit) :
    ∃ negative rank, number = finite negative rank ∧ unitsOfRank rank < unitsPerOne ∧
      (negative = true → unitsOfRank rank = 0) := by
  obtain ⟨count, hextent, hlow, hhigh⟩ := hunit
  cases number with
  | nan => simp [extent] at hextent
  | infinite negative => cases negative <;> simp [extent] at hextent
  | finite negative rank =>
      simp only [extent, Extent.units.injEq] at hextent
      have habs := natAbs_signedUnits negative rank
      refine ⟨negative, rank, rfl, by omega, ?_⟩
      intro hnegative
      subst hnegative
      simp only [signedUnits, withSign, if_true] at hextent
      omega

theorem zero_inUnit : zero.InUnit :=
  ⟨0, rfl, le_refl 0, by exact_mod_cast unitsPerOne_pos⟩

theorem InUnit.fitsIn {number : Double} (hunit : number.InUnit) : number.FitsIn 0 := by
  obtain ⟨negative, rank, rfl, hlt, -⟩ := hunit.exists_finite
  refine ⟨negative, rank, rfl, ?_⟩
  rw [pow_zero, Nat.one_mul]
  exact hlt.le

/-- A magnitude below one lies below it by half a unit of the least significand. -/
theorem unitsOfRank_div_le {rank : Nat} (hlt : unitsOfRank rank < unitsPerOne) :
    2 * significandSpan * (unitsOfRank rank / unitsPerOne : ℚ) ≤ 2 * significandSpan - 1 := by
  have hpos : (0 : ℚ) < unitsPerOne := by exact_mod_cast unitsPerOne_pos
  have hpower : 0 < rankOfPower 0 := by decide
  obtain ⟨last, hlast⟩ := Nat.exists_eq_succ_of_ne_zero hpower.ne'
  have hone : unitsOfRank (last + 1) = unitsPerOne := by
    rw [← unitsOfRank_one, hlast]
  have hle : rank ≤ last := by
    rw [← hone, unitsOfRank_strictMono.lt_iff_lt] at hlt
    omega
  have hgap := unitsOfRank_succ_le last
  rw [hone] at hgap
  have hspan : (0 : ℚ) < 2 * significandSpan := by
    exact_mod_cast Nat.mul_pos two_pos significandSpan_pos
  have hmono := mul_le_mul_of_nonneg_left (cast_unitsOfRank_le hle) hspan.le
  rw [← mul_div_assoc, div_le_iff₀ hpos]
  linarith

/-- Scaling by a factor below one makes a magnitude smaller, also after rounding, unless it lies in
the evenly spaced first binade. -/
theorem nearestRank_mul_lt {factor rank : Nat} (hfactor : unitsOfRank factor < unitsPerOne)
    (hlarge : significandSpan < rank) :
    nearestRank (unitsOfRank factor * unitsOfRank rank) unitsPerOne < rank := by
  obtain ⟨below, rfl⟩ := Nat.exists_eq_add_of_lt (Nat.zero_lt_of_lt hlarge)
  rw [Nat.zero_add] at hlarge ⊢
  apply nearestRank_lt unitsPerOne_pos
  have hratio := unitsOfRank_div_le hfactor
  have hgap := lt_unitsOfRank_succ (Nat.le_of_lt_succ hlarge)
  have hspan : (0 : ℚ) < significandSpan := by exact_mod_cast significandSpan_pos
  push_cast
  rw [mul_div_right_comm]
  generalize (unitsOfRank factor / unitsPerOne : ℚ) = ratio at hratio ⊢
  have hnonneg : (0 : ℚ) ≤ unitsOfRank (below + 1) := Nat.cast_nonneg _
  have hscaled := mul_le_mul_of_nonneg_right hratio hnonneg
  refine lt_of_mul_lt_mul_left ?_ (show (0 : ℚ) ≤ 2 * significandSpan by linarith)
  linarith

/-- A scaled magnitude beyond the evenly spaced first binade is at most the magnitude before. -/
theorem extent_mul_le {draw number : Double} {rank : Nat} {count : ℤ} (hunit : draw.InUnit)
    (hlarge : significandSpan < rank) (hnumber : number.extent = .units (unitsOfRank rank))
    (hcount : (draw * number).extent = .units count) : count ≤ unitsOfRank (rank - 1) := by
  obtain ⟨negative, factor, rfl, hfactor, -⟩ := hunit.exists_finite
  obtain ⟨negative', rank', rfl, hunits⟩ := exists_finite_of_extent hnumber
  have hrank : rank'.val = rank := by
    apply unitsOfRank_strictMono.injective
    rw [← natAbs_signedUnits negative' rank', hunits, Int.natAbs_natCast]
  have hproduct := nearestRank_mul_lt hfactor (hrank ▸ hlarge)
  rw [extent_nearest hcount, ← hrank]
  generalize nearestRank (unitsOfRank factor * unitsOfRank rank') unitsPerOne = product at hproduct
  have hle : unitsOfRank product ≤ unitsOfRank (rank' - 1) :=
    unitsOfRank_strictMono.monotone (by omega)
  unfold withSign
  split <;> omega

/-- Scaling what a distance is rounded to by a factor of the unit interval does not leave the
distance, although the product is rounded again. -/
theorem extent_mul_between {draw scale : Double} {distance count : ℤ} (hunit : draw.InUnit)
    (hdistance : 0 ≤ distance) (hscale : scale.extent = .units (rounded distance))
    (hcount : (draw * scale).extent = .units count) : 0 ≤ count ∧ count ≤ distance := by
  obtain ⟨drawn, hdraw, hlow, hhigh⟩ := id hunit
  have hpos : (0 : ℚ) < unitsPerOne := by exact_mod_cast unitsPerOne_pos
  have hnonneg : (0 : ℚ) ≤ distance := by exact_mod_cast hdistance
  have hscaled := extent_mul hdraw hscale hcount
  have hround := roundsTo_magnitudeRank distance
  have hrank := rounded_of_nonneg hnonneg
  rw [abs_of_nonneg hnonneg] at hround
  generalize magnitudeRank distance = rank at hround hrank
  have hfactor : (0 : ℤ) ≤ rounded distance := rounded_nonneg hnonneg
  refine ⟨?_, ?_⟩
  · rw [hscaled]
    exact rounded_nonneg (div_nonneg (by exact_mod_cast mul_nonneg hlow hfactor) hpos.le)
  rcases Nat.lt_or_ge significandSpan rank with hlarge | hsmall
  · -- the rounded product is at most the magnitude before, and the distance lies above that
    have hbefore := extent_mul_le hunit hlarge (hrank ▸ hscale) hcount
    have hbelow := hround.below_le (by omega)
    have hstep := cast_unitsOfRank_le (Nat.sub_le rank 1)
    have hle : (unitsOfRank (rank - 1) : ℚ) ≤ distance := by linarith
    exact hbefore.trans (by exact_mod_cast hle)
  · -- a small distance is not rounded at all
    obtain ⟨n, rfl⟩ := Int.eq_ofNat_of_zero_le hdistance
    have hexact : rounded (n : ℤ) = n := by
      have habove := hround.le_above
      have htop := cast_unitsOfRank_le hsmall
      have hnext := cast_unitsOfRank_le (Nat.succ_le_succ hsmall)
      have hspan : unitsOfRank significandSpan = significandSpan := by decide +kernel
      have hspan' : unitsOfRank (significandSpan + 1) = significandSpan + 1 := by decide +kernel
      rw [hspan] at htop
      rw [Nat.succ_eq_add_one, Nat.succ_eq_add_one, hspan'] at hnext
      have hle : (n : ℚ) ≤ (2 * significandSpan : Nat) := by
        have hone : (1 : ℚ) ≤ significandSpan := by exact_mod_cast significandSpan_pos
        push_cast at habove hnext ⊢
        linarith
      obtain ⟨exact, hunits⟩ := exists_unitsOfRank_eq (Nat.cast_le.mp hle) 0
      rw [pow_zero, mul_one] at hunits
      exact_mod_cast rounded_natCast hunits
    rw [hexact] at hscaled hfactor
    rw [hscaled]
    have hmono : rounded ((drawn * n : ℤ) / unitsPerOne) ≤ rounded (n : ℤ) := by
      apply rounded_mono
      rw [div_le_iff₀ hpos]
      have hle := mul_le_mul_of_nonneg_right hhigh.le hfactor
      push_cast at hle ⊢
      have hle' : (drawn * n : ℚ) ≤ unitsPerOne * n := by exact_mod_cast hle
      linarith
    rwa [hexact] at hmono

/-- A scaled integer falls short of the integer, although the integer and the product are both
rounded. -/
theorem nearestRank_mul_integer_lt {factor rank n : Nat}
    (hfactor : unitsOfRank factor < unitsPerOne)
    (hn : 0 < n) (hrank : rank = nearestRank (unitsPerOne * n) 1) :
    nearestRank (unitsOfRank factor * unitsOfRank rank) unitsPerOne < rank ∧
      unitsOfRank (nearestRank (unitsOfRank factor * unitsOfRank rank) unitsPerOne) <
        unitsPerOne * n := by
  have hspan : significandSpan < rank := by
    have hle : rankOfPower 0 ≤ rank := by
      rw [hrank]
      apply le_nearestRank one_pos
      rw [unitsOfRank_one, Nat.cast_one, div_one]
      exact_mod_cast Nat.le_mul_of_pos_right _ hn
    exact lt_of_lt_of_le (by decide) hle
  have hproduct := nearestRank_mul_lt hfactor hspan
  generalize nearestRank (unitsOfRank factor * unitsOfRank rank) unitsPerOne = product at hproduct
  refine ⟨hproduct, ?_⟩
  by_contra hge
  have hle : nearestRank (unitsPerOne * n) 1 ≤ product := by
    apply nearestRank_le one_pos
    rw [Nat.cast_one, div_one]
    exact_mod_cast Nat.le_of_not_lt hge
  omega

/-- A scaled integer has the sign of the integer, and falls short of it unless both are zero. -/
theorem extent_mul_ofInt {draw scale : Double} {n : Int} (hunit : draw.InUnit)
    (hscale : ofInt? n = some scale) :
    ∃ magnitude : Nat, (draw * scale).extent = .units (withSign (n < 0) magnitude) ∧
      magnitude ≤ unitsPerOne * n.natAbs ∧ (n ≠ 0 → magnitude < unitsPerOne * n.natAbs) := by
  obtain ⟨negative, factor, rfl, hfactor, hzero⟩ := hunit.exists_finite
  obtain ⟨rank, hrank, rfl⟩ := eq_finite_of_ofInt hscale
  generalize hproduct : nearestRank (unitsOfRank factor * unitsOfRank rank) unitsPerOne = product
  have hbounds : product < rankBound ∧ unitsOfRank product ≤ unitsPerOne * n.natAbs ∧
      (n ≠ 0 → unitsOfRank product < unitsPerOne * n.natAbs) := by
    rcases Nat.eq_zero_or_pos n.natAbs with hn | hn
    · have hrank : unitsOfRank rank = 0 := by rw [hrank, hn]; rfl
      rw [hrank, Nat.mul_zero, nearestRank, if_pos rfl] at hproduct
      rw [← hproduct]
      exact ⟨by decide, Nat.zero_le _, fun hne => absurd (Int.natAbs_eq_zero.mp hn) hne⟩
    · obtain ⟨hlt, hshort⟩ := nearestRank_mul_integer_lt hfactor hn hrank
      rw [hproduct] at hlt hshort
      exact ⟨hlt.trans rank.isLt, hshort.le, fun _ => hshort⟩
  refine ⟨unitsOfRank product, ?_, hbounds.2⟩
  change (nearest _ _ _).extent = _
  rw [nearest, hproduct, ofRank, dif_pos hbounds.1]
  cases negative with
  | false => rw [Bool.false_bne]; rfl
  | true =>
      rw [hzero rfl, Nat.zero_mul, nearestRank, if_pos rfl] at hproduct
      subst hproduct
      cases decide (n < 0) <;> rfl

/-- The integer part of a scaled positive integer is an index below it. -/
theorem floor_mul_ofInt {draw scale : Double} {n : Int} (hunit : draw.InUnit) (hn : 0 < n)
    (hscale : ofInt? n = some scale) :
    ∃ part, (draw * scale).floor = .ok part ∧ 0 ≤ part ∧ part < n := by
  obtain ⟨magnitude, hextent, -, hlt⟩ := extent_mul_ofInt hunit hscale
  have hpos : (0 : Int) < unitsPerOne := by exact_mod_cast unitsPerOne_pos
  have hn' := withSign_natAbs n
  rw [decide_eq_false (not_lt.mpr hn.le)] at hextent hn'
  refine ⟨_, floor_eq_ok.mpr ⟨_, hextent, rfl⟩, Int.ediv_nonneg (Int.natCast_nonneg _) hpos.le, ?_⟩
  apply Int.ediv_lt_of_lt_mul hpos
  rw [← hn']
  exact Int.ofNat_lt.mpr (hlt hn.ne')

/-- The integer part of a scaled integer that is not positive lies from the integer up to zero. -/
theorem floor_mul_ofInt_of_nonpos {draw scale : Double} {n : Int} (hunit : draw.InUnit)
    (hn : n ≤ 0) (hscale : ofInt? n = some scale) :
    ∃ part, (draw * scale).floor = .ok part ∧ n ≤ part ∧ part ≤ 0 := by
  obtain ⟨magnitude, hextent, hle, -⟩ := extent_mul_ofInt hunit hscale
  have hpos : (0 : Int) < unitsPerOne := by exact_mod_cast unitsPerOne_pos
  have hn' := withSign_natAbs n
  have hbounds : n * unitsPerOne ≤ withSign (n < 0) magnitude ∧
      withSign (n < 0) magnitude ≤ 0 := by
    rcases hn.lt_or_eq with hneg | rfl
    · rw [decide_eq_true hneg, withSign, if_pos rfl] at hn' ⊢
      omega
    · rw [Int.natAbs_zero, Nat.mul_zero, Nat.le_zero] at hle
      rw [hle, Int.zero_mul]
      exact ⟨le_rfl, le_rfl⟩
  exact ⟨_, floor_eq_ok.mpr ⟨_, hextent, rfl⟩, (Int.le_ediv_iff_mul_le hpos).mpr hbounds.1,
    Int.ediv_nonpos_of_nonpos_of_neg hbounds.2 hpos⟩

end Double

namespace Draws

/-- Every draw lies in the unit interval. -/
def InUnit (draws : Draws) : Prop := ∀ position, (draws position).InUnit

theorem inUnit_constant {draw : Double} (hunit : draw.InUnit) : (constant draw).InUnit :=
  fun _ => hunit

end Draws

end Exemplar
