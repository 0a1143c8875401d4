import Exemplar.Number
import Exemplar.Proofs.Double.Rank

/-!
# Magnitudes of results

Arithmetic on numbers of a bounded magnitude has a finite result of a magnitude
that is bounded again. The bounds are powers of two, which rounding never
passes, so that a chain of operations needs no more than adding exponents.
-/

namespace Exemplar

namespace Double

theorem unitsPerOne_eq : unitsPerOne = 2 ^ unitExponent :=
  (Nat.shiftLeft_eq 1 unitExponent).trans (Nat.one_mul _)

theorem unitsPerOne_pos : 0 < unitsPerOne := by
  rw [unitsPerOne_eq]
  exact Nat.two_pow_pos _

/-- The rank of a power of two. -/
def rankOfPower (exponent : Nat) : Nat := (1023 + exponent) * significandSpan

theorem unitsOfRank_rankOfPower (exponent : Nat) :
    unitsOfRank (rankOfPower exponent) = 2 ^ exponent * unitsPerOne := by
  have hrank : rankOfPower exponent =
      (1022 + exponent) * significandSpan + significandSpan := by
    unfold rankOfPower
    ring
  rw [hrank, unitsOfRank_scaled (by omega) (Or.inr le_rfl), unitsPerOne_eq, ← two_pow_52,
    ← Nat.pow_add, ← Nat.pow_add]
  congr 1
  unfold unitExponent
  omega

theorem unitsOfRank_one : unitsOfRank (rankOfPower 0) = unitsPerOne := by
  rw [unitsOfRank_rankOfPower, pow_zero, Nat.one_mul]

theorem rankOfPower_lt {exponent : Nat} (hexponent : exponent < 1024) :
    rankOfPower exponent < rankBound := by
  have hbound : rankBound = 2047 * significandSpan := by decide
  unfold rankOfPower
  rw [hbound]
  exact Nat.mul_lt_mul_of_pos_right (by omega) significandSpan_pos

/-- Finite, with a magnitude of at most a power of two. -/
def FitsIn (number : Double) (exponent : Nat) : Prop :=
  ∃ negative rank, number = finite negative rank ∧
    unitsOfRank rank ≤ 2 ^ exponent * unitsPerOne

theorem FitsIn.mono {number : Double} {exponent exponent' : Nat} (hfits : number.FitsIn exponent)
    (hle : exponent ≤ exponent') : number.FitsIn exponent' := by
  obtain ⟨negative, rank, rfl, hunits⟩ := hfits
  exact ⟨negative, rank, rfl, hunits.trans
    (Nat.mul_le_mul_right _ (Nat.pow_le_pow_right two_pos hle))⟩

/-- A ratio of units that lies below a power of two rounds to a number that does. -/
theorem fitsIn_nearest {num den exponent : Nat} (negative : Bool) (hden : 0 < den)
    (hexponent : exponent < 1024) (hle : num ≤ 2 ^ exponent * unitsPerOne * den) :
    (nearest negative num den).FitsIn exponent := by
  have hrank : nearestRank num den ≤ rankOfPower exponent := by
    apply nearestRank_le hden
    rw [div_le_iff₀ (by exact_mod_cast hden), unitsOfRank_rankOfPower]
    exact_mod_cast hle
  have hbound := lt_of_le_of_lt hrank (rankOfPower_lt hexponent)
  refine ⟨negative, ⟨_, hbound⟩, dif_pos hbound, ?_⟩
  rw [← unitsOfRank_rankOfPower]
  exact unitsOfRank_strictMono.monotone hrank

theorem natAbs_signedUnits (negative : Bool) (rank : Fin rankBound) :
    (signedUnits negative rank).natAbs = unitsOfRank rank := by
  cases negative <;> simp [signedUnits, withSign]

theorem FitsIn.add {x y : Double} {exponent : Nat} (hx : x.FitsIn exponent)
    (hy : y.FitsIn exponent) (hexponent : exponent + 1 < 1024) :
    (x + y).FitsIn (exponent + 1) := by
  obtain ⟨negative, rank, rfl, hunits⟩ := hx
  obtain ⟨negative', rank', rfl, hunits'⟩ := hy
  apply fitsIn_nearest _ one_pos hexponent
  have habs := Int.natAbs_add_le (signedUnits negative rank) (signedUnits negative' rank')
  rw [natAbs_signedUnits, natAbs_signedUnits] at habs
  rw [pow_succ, Nat.mul_one, Nat.mul_right_comm]
  exact habs.trans (by omega)

theorem FitsIn.neg {x : Double} {exponent : Nat} (hx : x.FitsIn exponent) :
    (-x).FitsIn exponent := by
  obtain ⟨negative, rank, rfl, hunits⟩ := hx
  exact ⟨!negative, rank, rfl, hunits⟩

theorem FitsIn.sub {x y : Double} {exponent : Nat} (hx : x.FitsIn exponent)
    (hy : y.FitsIn exponent) (hexponent : exponent + 1 < 1024) :
    (x - y).FitsIn (exponent + 1) :=
  hx.add hy.neg hexponent

theorem FitsIn.mul {x y : Double} {exponent exponent' : Nat} (hx : x.FitsIn exponent)
    (hy : y.FitsIn exponent') (hexponent : exponent + exponent' < 1024) :
    (x * y).FitsIn (exponent + exponent') := by
  obtain ⟨negative, rank, rfl, hunits⟩ := hx
  obtain ⟨negative', rank', rfl, hunits'⟩ := hy
  apply fitsIn_nearest _ unitsPerOne_pos hexponent
  calc unitsOfRank rank * unitsOfRank rank'
      ≤ (2 ^ exponent * unitsPerOne) * (2 ^ exponent' * unitsPerOne) :=
        Nat.mul_le_mul hunits hunits'
    _ = 2 ^ (exponent + exponent') * unitsPerOne * unitsPerOne := by
        rw [Nat.pow_add]
        ring

/-- The number of an integer has the rank nearest to it. -/
theorem eq_finite_of_ofInt {n : Int} {number : Double} (heq : ofInt? n = some number) :
    ∃ rank : Fin rankBound, rank.val = nearestRank (unitsPerOne * n.natAbs) 1 ∧
      number = finite (n < 0) rank := by
  unfold ofInt? nearest ofRank at heq
  by_cases hbound : nearestRank (unitsPerOne * n.natAbs) 1 < rankBound
  · rw [dif_pos hbound] at heq
    exact ⟨⟨_, hbound⟩, rfl, (Option.some.inj heq).symm⟩
  · rw [dif_neg hbound] at heq
    cases heq

/-- An integer of bounded magnitude can be taken for a floating-point number. -/
theorem fitsIn_ofInt {n : Int} {exponent : Nat} (hle : n.natAbs ≤ 2 ^ exponent)
    (hexponent : exponent < 1024) : ∃ x, ofInt? n = some x ∧ x.FitsIn exponent := by
  have hfits : (nearest (n < 0) (unitsPerOne * n.natAbs) 1).FitsIn exponent := by
    apply fitsIn_nearest _ one_pos hexponent
    rw [Nat.mul_one, Nat.mul_comm]
    exact Nat.mul_le_mul_right _ hle
  obtain ⟨negative, rank, heq, hunits⟩ := hfits
  refine ⟨finite negative rank, ?_, negative, rank, rfl, hunits⟩
  unfold ofInt?
  rw [heq]

/-- The integer part of a number of bounded magnitude is bounded alike. -/
theorem FitsIn.floor {x : Double} {exponent : Nat} (hx : x.FitsIn exponent) :
    ∃ n, x.floor = .ok n ∧ n.natAbs ≤ 2 ^ exponent := by
  obtain ⟨negative, rank, rfl, hunits⟩ := hx
  refine ⟨_, rfl, ?_⟩
  have habs := natAbs_signedUnits negative rank
  have hpos : (0 : Int) < unitsPerOne := by exact_mod_cast unitsPerOne_pos
  generalize signedUnits negative rank = units at habs ⊢
  have hbound : (2 ^ exponent * unitsPerOne : Int) = (2 ^ exponent * unitsPerOne : Nat) := by
    push_cast
    rfl
  have hlow : -(2 ^ exponent : Int) ≤ units / unitsPerOne := by
    rw [Int.le_ediv_iff_mul_le hpos, neg_mul, hbound]
    omega
  have hhigh : units / unitsPerOne ≤ (2 ^ exponent : Int) := by
    apply Int.ediv_le_of_le_mul hpos
    rw [hbound]
    omega
  have hcast : (2 ^ exponent : Int) = (2 ^ exponent : Nat) := by push_cast; rfl
  omega

end Double

namespace Number

/-- An integer or a finite number with a magnitude of at most a power of two. -/
def FitsIn (exponent : Nat) : Number → Prop
  | int value => value.natAbs ≤ 2 ^ exponent
  | float value => value.FitsIn exponent

theorem FitsIn.mono {number : Number} {exponent exponent' : Nat}
    (hfits : number.FitsIn exponent) (hle : exponent ≤ exponent') :
    number.FitsIn exponent' := by
  cases number with
  | int value => exact le_trans hfits (Nat.pow_le_pow_right two_pos hle)
  | float value => exact Double.FitsIn.mono hfits hle

theorem FitsIn.toDouble {number : Number} {exponent : Nat} (hfits : number.FitsIn exponent)
    (hexponent : exponent < 1024) : ∃ x, number.toDouble = .ok x ∧ x.FitsIn exponent := by
  cases number with
  | int value =>
      obtain ⟨x, heq, hx⟩ := Double.fitsIn_ofInt hfits hexponent
      exact ⟨x, by simp [Number.toDouble, heq], hx⟩
  | float value => exact ⟨value, rfl, hfits⟩

/-- An exact operation on integers that is rounded otherwise keeps a bound if both forms of it
do. -/
theorem exists_fitsIn_of_toDouble {a b : Number} {exponent exponent' : Nat}
    (op : Double → Double → Double) (ha : a.FitsIn exponent) (hb : b.FitsIn exponent)
    (hexponent : exponent < 1024)
    (hop : ∀ {x y : Double}, x.FitsIn exponent → y.FitsIn exponent →
      (op x y).FitsIn exponent') :
    ∃ c, (do
      let x ← a.toDouble
      let y ← b.toDouble
      return float (op x y) : Except Fault Number) = .ok c ∧ c.FitsIn exponent' := by
  obtain ⟨x, hax, hx⟩ := ha.toDouble hexponent
  obtain ⟨y, hby, hy⟩ := hb.toDouble hexponent
  exact ⟨float (op x y), by rw [hax, hby]; rfl, hop hx hy⟩

theorem FitsIn.add {a b : Number} {exponent : Nat} (ha : a.FitsIn exponent)
    (hb : b.FitsIn exponent) (hexponent : exponent + 1 < 1024) :
    ∃ c, a.add b = .ok c ∧ c.FitsIn (exponent + 1) := by
  have hrounded := exists_fitsIn_of_toDouble (· + ·) ha hb (by omega)
    (fun hx hy => hx.add hy hexponent)
  cases a with
  | int m =>
      cases b with
      | int n =>
          refine ⟨int (m + n), rfl, ?_⟩
          simp only [FitsIn, pow_succ] at ha hb ⊢
          omega
      | float y => exact hrounded
  | float x => cases b <;> exact hrounded

theorem FitsIn.sub {a b : Number} {exponent : Nat} (ha : a.FitsIn exponent)
    (hb : b.FitsIn exponent) (hexponent : exponent + 1 < 1024) :
    ∃ c, a.sub b = .ok c ∧ c.FitsIn (exponent + 1) := by
  have hrounded := exists_fitsIn_of_toDouble (· - ·) ha hb (by omega)
    (fun hx hy => hx.sub hy hexponent)
  cases a with
  | int m =>
      cases b with
      | int n =>
          refine ⟨int (m - n), rfl, ?_⟩
          simp only [FitsIn, pow_succ] at ha hb ⊢
          omega
      | float y => exact hrounded
  | float x => cases b <;> exact hrounded

theorem FitsIn.scale {factor : Double} {number : Number} {exponent exponent' : Nat}
    (hfactor : factor.FitsIn exponent) (hnumber : number.FitsIn exponent')
    (hexponent : exponent + exponent' < 1024) :
    ∃ x, Number.scale factor number = .ok x ∧ x.FitsIn (exponent + exponent') := by
  obtain ⟨y, hy, hfits⟩ := hnumber.toDouble (by omega)
  exact ⟨factor * y, by simp [Number.scale, hy, Except.map], hfactor.mul hfits hexponent⟩

end Number

end Exemplar
