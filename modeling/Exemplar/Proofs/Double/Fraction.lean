import Exemplar.Proofs.Double.UnitInterval

/-!
# Fractions of the unit interval

The multiples of one part in `2 ^ 53` below one are numbers of the unit interval.
Among them is one for every index below a count of at most `2 ^ 52`: the integer
part of the count scaled by it is the index, so that a draw can choose any element
of a list of that length.
-/

namespace Exemplar.Double

/-- The binary logarithm of the units of one part in `2 ^ 53`. -/
def partExponent : Nat := 1021

/-- The units of one part in `2 ^ 53`. -/
def partUnits : Nat := 2 ^ partExponent

theorem partUnits_pos : 0 < partUnits := Nat.two_pow_pos _

theorem unitsPerOne_eq_mul : unitsPerOne = 2 * significandSpan * partUnits := by
  have hexponent : unitExponent = 52 + 1 + partExponent := rfl
  rw [unitsPerOne_eq, hexponent, Nat.pow_add, Nat.pow_succ', two_pow_52, partUnits]

theorem exists_finite_of_units {significand shift exponent : Nat}
    (hle : significand ≤ 2 * significandSpan) (hexponent : exponent < 1024)
    (hbound : significand * 2 ^ shift ≤ 2 ^ exponent * unitsPerOne) :
    ∃ rank : Fin rankBound, unitsOfRank rank = significand * 2 ^ shift := by
  obtain ⟨rank, hrank⟩ := exists_unitsOfRank_eq hle shift
  rw [← hrank, ← unitsOfRank_rankOfPower, unitsOfRank_strictMono.le_iff_le] at hbound
  exact ⟨⟨rank, hbound.trans_lt (rankOfPower_lt hexponent)⟩, hrank⟩

/-- An integer of at most 53 bits is a number itself. -/
theorem ofInt?_natCast {n : Nat} (hle : n ≤ 2 * significandSpan) :
    ∃ rank : Fin rankBound, ofInt? n = some (finite false rank) ∧
      unitsOfRank rank = n * unitsPerOne := by
  have hbound : n * 2 ^ unitExponent ≤ 2 ^ 53 * unitsPerOne := by
    rw [← unitsPerOne_eq]
    exact Nat.mul_le_mul_right _ (hle.trans (by decide))
  obtain ⟨rank, hrank⟩ := exists_finite_of_units hle (by decide) hbound
  rw [← unitsPerOne_eq] at hrank
  have hnearest : nearestRank (unitsPerOne * n) 1 = rank := by
    apply nearestRank_eq_of_eq one_pos
    rw [Nat.cast_one, div_one, hrank, Nat.mul_comm]
  refine ⟨rank, ?_, hrank⟩
  have hsign : decide ((n : Int) < 0) = false := by simp
  rw [ofInt?, hsign, Int.natAbs_natCast, nearest, hnearest, ofRank, dif_pos rank.isLt]

/-- The middle between an index and the next one is a number itself. -/
theorem exists_middle {index : Nat} (hindex : index < significandSpan) :
    ∃ rank : Fin rankBound,
      unitsOfRank rank = (2 * index + 1) * (significandSpan * partUnits) := by
  have hhalf : significandSpan * partUnits = 2 ^ (52 + partExponent) := by
    rw [Nat.pow_add, two_pow_52, partUnits]
  rw [hhalf]
  apply @exists_finite_of_units _ _ 53 (by omega) (by decide)
  rw [← hhalf, unitsPerOne_eq_mul, Nat.mul_assoc 2, ← Nat.mul_assoc (2 ^ 53), Nat.pow_succ,
    two_pow_52]
  exact Nat.mul_le_mul_right _ (by omega)

/-- Scaling a count by a part that lies at an index or above it, but not above the middle between
it and the next one, rounds to a number with that index as its integer part. -/
theorem floor_mul_of_part {index count part : Nat} {draw scale : Fin rankBound}
    (hindex : index < significandSpan) (hlow : index * (2 * significandSpan) ≤ part * count)
    (hhigh : part * count ≤ (2 * index + 1) * significandSpan)
    (hdraw : unitsOfRank draw = part * partUnits)
    (hscale : unitsOfRank scale = count * unitsPerOne) :
    (finite false draw * finite false scale).floor = .ok index := by
  have hpos := unitsPerOne_pos
  have hratio : (unitsOfRank draw * unitsOfRank scale : Nat) / (unitsPerOne : ℚ) =
      (part * count * partUnits : Nat) := by
    rw [div_eq_iff (by exact_mod_cast hpos.ne'), hdraw, hscale]
    push_cast
    ring
  obtain ⟨below, -, hbelow⟩ := @ofInt?_natCast index (by omega)
  obtain ⟨middle, hmiddle⟩ := exists_middle hindex
  have hfrom : below.val ≤ nearestRank (unitsOfRank draw * unitsOfRank scale) unitsPerOne := by
    apply le_nearestRank hpos
    rw [hratio, hbelow, unitsPerOne_eq_mul, ← Nat.mul_assoc]
    exact_mod_cast Nat.mul_le_mul_right partUnits hlow
  have hto : nearestRank (unitsOfRank draw * unitsOfRank scale) unitsPerOne ≤ middle.val := by
    apply nearestRank_le hpos
    rw [hratio, hmiddle, ← Nat.mul_assoc]
    exact_mod_cast Nat.mul_le_mul_right partUnits hhigh
  generalize hproduct : nearestRank (unitsOfRank draw * unitsOfRank scale) unitsPerOne = product
    at hfrom hto
  have hmul : finite false draw * finite false scale =
      finite false ⟨product, hto.trans_lt middle.isLt⟩ := by
    change nearest _ _ _ = _
    rw [nearest, hproduct, ofRank, dif_pos (hto.trans_lt middle.isLt)]
    rfl
  have hfrom := unitsOfRank_strictMono.monotone hfrom
  have hto := unitsOfRank_strictMono.monotone hto
  rw [hbelow] at hfrom
  have hnext : (2 * index + 1) * (significandSpan * partUnits) < (index + 1) * unitsPerOne := by
    rw [unitsPerOne_eq_mul, Nat.mul_assoc 2, ← Nat.mul_assoc (index + 1)]
    exact Nat.mul_lt_mul_of_pos_right (by omega) (Nat.mul_pos significandSpan_pos partUnits_pos)
  rw [hmiddle] at hto
  rw [hmul]
  have hfloor : unitsOfRank product / unitsPerOne = index :=
    Nat.div_eq_of_lt_le hfrom (hto.trans_lt hnext)
  change Except.ok ((unitsOfRank product : Int) / (unitsPerOne : Int)) = _
  rw [← hfloor, Int.natCast_ediv]

/-- Whichever index below a count of at most `2 ^ 52`, some number of the unit interval scales the
count to it. -/
theorem exists_floor_mul_eq {index count : Nat} (hindex : index < count)
    (hcount : count ≤ significandSpan) :
    ∃ draw scale, draw.InUnit ∧ ofInt? count = some scale ∧ (draw * scale).floor = .ok index := by
  have hpos := Nat.zero_lt_of_lt hindex
  -- the least part in `2 ^ 53` that does not fall short of the index
  obtain ⟨part, hlow, hhigh⟩ : ∃ part, index * (2 * significandSpan) ≤ part * count ∧
      part * count < index * (2 * significandSpan) + count := by
    have hlow := @Nat.lt_div_mul_add (index * (2 * significandSpan) + (count - 1)) count hpos
    have hhigh := Nat.div_mul_le_self (index * (2 * significandSpan) + (count - 1)) count
    exact ⟨(index * (2 * significandSpan) + (count - 1)) / count, by omega, by omega⟩
  have hpart : part < 2 * significandSpan := by
    have hlast : (index + 1) * (2 * significandSpan) ≤ count * (2 * significandSpan) :=
      Nat.mul_le_mul_right _ hindex
    have hbound : part * count < 2 * significandSpan * count := by
      rw [Nat.mul_comm (2 * significandSpan) count]
      rw [Nat.add_one_mul] at hlast
      omega
    exact Nat.lt_of_mul_lt_mul_right hbound
  have hunits : part * partUnits < unitsPerOne := by
    rw [unitsPerOne_eq_mul]
    exact Nat.mul_lt_mul_of_pos_right hpart partUnits_pos
  obtain ⟨draw, hdraw⟩ := @exists_finite_of_units part partExponent 0 hpart.le (by decide)
    (by rw [pow_zero, Nat.one_mul]; exact hunits.le)
  obtain ⟨scale, hscale, hunitsOfScale⟩ := @ofInt?_natCast count (by omega)
  refine ⟨finite false draw, finite false scale, ?_, hscale,
    floor_mul_of_part (by omega) hlow ?_ hdraw hunitsOfScale⟩
  · refine ⟨unitsOfRank draw, rfl, Int.natCast_nonneg _, ?_⟩
    rw [hdraw]
    exact_mod_cast hunits
  · have hsplit : (2 * index + 1) * significandSpan =
        index * (2 * significandSpan) + significandSpan := by ring
    omega

/-- A number of the unit interval above one half. -/
def threeQuarters : Double := nearest false (3 * unitsPerOne / 4) 1

theorem threeQuarters_inUnit : threeQuarters.InUnit :=
  ⟨3 * unitsPerOne / 4, by decide +kernel, by decide +kernel, by decide +kernel⟩

end Exemplar.Double
