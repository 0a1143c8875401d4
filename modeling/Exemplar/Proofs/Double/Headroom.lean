import Exemplar.Proofs.Double.UnitInterval

/-!
# Headroom

Rounding to the greatest finite number begins half a step above it, and a step is very
long there. A sum may therefore exceed the greatest number by what rounding of small
numbers adds up to, and is finite all the same. Scaling by a factor below one makes room
for the rounding of the product, whatever the sign.
-/

namespace Exemplar.Double

/-- The units of the greatest finite number. -/
def greatestUnits : Nat := unitsOfRank (rankBound - 1)

/-- The units that a sum may be too large by and still be finite, far fewer than it could be. -/
def headroom : Nat := 2 ^ 54 * unitsPerOne

theorem two_mul_headroom_lt : 2 * headroom + greatestUnits < unitsOfRank rankBound := by
  decide +kernel

theorem unitsPerOne_le_headroom : unitsPerOne ≤ headroom :=
  Nat.le_mul_of_pos_left unitsPerOne (Nat.two_pow_pos 54)

theorem unitsOfRank_le_greatestUnits (rank : Fin rankBound) : unitsOfRank rank ≤ greatestUnits :=
  unitsOfRank_strictMono.monotone (Nat.le_sub_one_of_lt rank.isLt)

theorem abs_le_greatestUnits {x : Double} {count : ℤ} (hx : x.extent = .units count) :
    |count| ≤ greatestUnits := by
  obtain ⟨negative, rank, rfl, rfl⟩ := exists_finite_of_extent hx
  rw [Int.abs_eq_natAbs, natAbs_signedUnits]
  exact_mod_cast unitsOfRank_le_greatestUnits rank

/-- A sum that exceeds the greatest number by no more than the headroom is finite. -/
theorem exists_units_add {x y : Double} {a b : ℤ} (hx : x.extent = .units a)
    (hy : y.extent = .units b) (hle : |a + b| ≤ greatestUnits + headroom) :
    ∃ count, (x + y).extent = .units count := by
  obtain ⟨negative, rank, rfl, rfl⟩ := exists_finite_of_extent hx
  obtain ⟨negative', rank', rfl, rfl⟩ := exists_finite_of_extent hy
  change ∃ count,
    (nearest _ (signedUnits negative rank + signedUnits negative' rank').natAbs 1).extent = _
  rw [Int.abs_eq_natAbs] at hle
  generalize (signedUnits negative rank + signedUnits negative' rank').natAbs = total at hle ⊢
  have hrank : nearestRank total 1 < rankBound := by
    apply @nearestRank_lt total 1 (rankBound - 1) one_pos
    have hlt : 2 * total < greatestUnits + unitsOfRank rankBound := by
      have hroom := two_mul_headroom_lt
      omega
    have hlt : (2 * total : ℚ) < greatestUnits + unitsOfRank rankBound := by exact_mod_cast hlt
    rw [Nat.cast_one, div_one, Nat.sub_add_cancel (by decide : 1 ≤ rankBound)]
    change (total : ℚ) < (greatestUnits + _) / 2
    linarith
  rw [nearest, ofRank, dif_pos hrank]
  exact ⟨_, rfl⟩

/-- Scaling an infinity by a finite number makes no number only if the factor is zero. -/
theorem mul_infinite {x : Double} {c : ℤ} (hx : x.extent = .units c) (negative : Bool) :
    x.isZero = true ∧ x * .infinite negative = .nan ∨
      x.isZero = false ∧ ∃ negative', x * .infinite negative = .infinite negative' := by
  obtain ⟨negative', rank, rfl, -⟩ := exists_finite_of_extent hx
  change _ ∧ (if rank.val = 0 then nan else .infinite (negative' != negative)) = _ ∨ _ ∧
    ∃ _, (if rank.val = 0 then nan else .infinite (negative' != negative)) = _
  by_cases hzero : rank.val = 0
  · exact .inl ⟨decide_eq_true hzero, if_pos hzero⟩
  · exact .inr ⟨decide_eq_false hzero, _, if_neg hzero⟩

/-! ## Magnitudes of rounded quantities -/

theorem abs_rounded (quantity : ℚ) : |rounded quantity| = unitsOfRank (magnitudeRank quantity) := by
  unfold rounded withSign
  split
  · rw [abs_neg, Nat.abs_cast]
  · exact Nat.abs_cast _

/-- Rounding a larger magnitude gives no smaller one. -/
theorem abs_rounded_le {a b : ℤ} (hle : |a| ≤ b) : |rounded a| ≤ rounded b := by
  have hnonneg : (0 : ℚ) ≤ b := by exact_mod_cast (abs_nonneg a).trans hle
  have hle : |(a : ℚ)| ≤ |(b : ℚ)| := by
    rw [abs_of_nonneg hnonneg]
    exact_mod_cast hle
  rw [abs_rounded, rounded_of_nonneg hnonneg]
  exact Int.ofNat_le.mpr (unitsOfRank_strictMono.monotone (magnitudeRank_mono hle))

theorem rounded_le_one {quantity : ℤ} (hle : quantity ≤ unitsPerOne) :
    rounded quantity ≤ unitsPerOne := by
  have hone := @rounded_natCast _ _ unitsOfRank_one
  calc rounded quantity ≤ rounded (unitsPerOne : Nat) := rounded_mono (by exact_mod_cast hle)
    _ = unitsPerOne := hone

/-- A scaled quantity is rounded to at most the magnitude before that of what was scaled. -/
theorem abs_rounded_mul_le {draw : Double} {drawn count : ℤ} {rank : Nat} (hunit : draw.InUnit)
    (hdraw : draw.extent = .units drawn) (hlarge : significandSpan < rank)
    (hcount : |count| ≤ unitsOfRank rank) :
    |rounded ((drawn * count : ℤ) / unitsPerOne)| ≤ unitsOfRank (rank - 1) := by
  obtain ⟨negative, factor, rfl, hfactor, -⟩ := hunit.exists_finite
  cases hdraw
  have hproduct := nearestRank_mul_lt hfactor hlarge
  have hmagnitude : magnitudeRank ((unitsOfRank factor * unitsOfRank rank : Nat) / unitsPerOne) =
      nearestRank (unitsOfRank factor * unitsOfRank rank) unitsPerOne := by
    apply magnitudeRank_eq
    rw [abs_of_nonneg (div_nonneg (Nat.cast_nonneg _) (Nat.cast_nonneg _))]
    exact roundsTo_nearestRank _ unitsPerOne_pos
  have hfactors : |signedUnits negative factor * count| ≤
      (unitsOfRank factor * unitsOfRank rank : Nat) := by
    rw [abs_mul, Int.abs_eq_natAbs (signedUnits _ _), natAbs_signedUnits, Int.natCast_mul]
    exact Int.mul_le_mul_of_nonneg_left hcount (Int.natCast_nonneg _)
  have hmono : magnitudeRank ((signedUnits negative factor * count : ℤ) / unitsPerOne) ≤
      magnitudeRank ((unitsOfRank factor * unitsOfRank rank : Nat) / unitsPerOne) := by
    apply magnitudeRank_mono
    rw [abs_div, abs_div, Nat.abs_cast, Nat.abs_cast, ← Int.cast_abs]
    exact div_le_div_of_nonneg_right (by exact_mod_cast hfactors) (Nat.cast_nonneg _)
  rw [abs_rounded]
  exact Int.ofNat_le.mpr (unitsOfRank_strictMono.monotone (by omega))

/-! ## Counts of integers in a distance -/

/-- One more than a rounded integer from `2 ^ 54` on is rounded to a number that follows an
integer. -/
theorem exists_whole_before {n : Nat} (hlarge : 2 ^ 54 ≤ n) :
    ∃ next, significandSpan < next ∧ unitsPerOne ∣ unitsOfRank (next - 1) ∧
      unitsOfRank (next - 1) ≤ n * unitsPerOne ∧
      rounded (rounded (n * unitsPerOne : ℤ) + 1 * unitsPerOne : ℤ) = unitsOfRank next := by
  obtain ⟨next, hnext, hbelow, hrounded⟩ := exists_rounded_succ (show 2 ^ 53 ≤ n by omega)
  refine ⟨next, hnext, dvd_unitsOfRank ?_, hbelow, hrounded⟩
  have hpower := @rounded_natCast _ _ (unitsOfRank_rankOfPower 54)
  have hle : rounded (2 ^ 54 * unitsPerOne : Nat) ≤ unitsOfRank next := by
    rw [← hrounded, hpower, ← hpower]
    apply rounded_mono
    have hmono : rounded (2 ^ 54 * unitsPerOne : Nat) ≤ rounded (n * unitsPerOne : ℤ) :=
      rounded_mono (by exact_mod_cast Nat.mul_le_mul_right unitsPerOne hlarge)
    rw [hpower] at hmono
    exact_mod_cast hmono.trans (Int.le_add_of_nonneg_right (by omega))
  rw [hpower, ← unitsOfRank_rankOfPower, Int.ofNat_le,
    unitsOfRank_strictMono.le_iff_le] at hle
  have hpowers : rankOfPower 53 < rankOfPower 54 := by decide
  omega

/-- Beyond a distance there is an integer so large, and by no more than the headroom. -/
theorem exists_integer_near (distance : ℤ) :
    ∃ n : Nat, 2 ^ 54 ≤ n ∧ |distance| ≤ n * unitsPerOne ∧
      (n * unitsPerOne : ℤ) ≤ |distance| + headroom := by
  have hdivision := Nat.div_add_mod' distance.natAbs unitsPerOne
  have hrest := Nat.mod_lt distance.natAbs unitsPerOne_pos
  have hone := unitsPerOne_le_headroom
  have hsum : (distance.natAbs / unitsPerOne + 2 ^ 54) * unitsPerOne =
      distance.natAbs / unitsPerOne * unitsPerOne + headroom := Nat.add_mul _ _ _
  refine ⟨distance.natAbs / unitsPerOne + 2 ^ 54, Nat.le_add_left _ _, ?_, ?_⟩
  · rw [Int.abs_eq_natAbs, ← Int.natCast_mul, hsum]
    exact Int.ofNat_le.mpr (by omega)
  · rw [Int.abs_eq_natAbs, ← Int.natCast_mul, hsum]
    exact_mod_cast (by omega : _ ≤ distance.natAbs + headroom)

/-- The count of a distance is no farther from zero than that of an integer beyond the distance. -/
theorem abs_rounded_succ_le {distance : ℤ} {n : Nat} (hle : |distance| ≤ n * unitsPerOne) :
    |rounded (rounded distance + 1 * unitsPerOne : ℤ)| ≤
      rounded (rounded (n * unitsPerOne : ℤ) + 1 * unitsPerOne : ℤ) := by
  apply abs_rounded_le
  calc |rounded distance + 1 * unitsPerOne|
      ≤ |rounded distance| + |(1 * unitsPerOne : ℤ)| := abs_add_le _ _
    _ ≤ rounded (n * unitsPerOne : ℤ) + 1 * unitsPerOne := by
        rw [abs_of_nonneg (by omega : (0 : ℤ) ≤ 1 * unitsPerOne)]
        exact Int.add_le_add_right (abs_rounded_le hle) _

end Exemplar.Double
