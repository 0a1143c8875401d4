import Exemplar.Double
import Mathlib.Algebra.Order.Field.Basic
import Mathlib.Data.Rat.Cast.Order
import Mathlib.Tactic.Linarith
import Mathlib.Tactic.Ring
import Mathlib.Tactic.Positivity
import Mathlib.Tactic.FieldSimp
import Mathlib.Tactic.NormNum

/-!
# The nearest rank

Ranks number the magnitudes in increasing order, and rounding finds the rank
whose magnitude is nearest, the even one at a tie. A quantity of units enters
only through its ratio, so that rounding is monotone, leaves a magnitude that
has a rank alone, and never passes a magnitude on its way.
-/

namespace Exemplar.Double

theorem two_pow_52 : (2 : Nat) ^ 52 = significandSpan := rfl

theorem significandSpan_pos : 0 < significandSpan := by decide

/-- The magnitude at a rank, written as a significand and a shift. A significand of twice the span
is the least one of the next binade. -/
theorem unitsOfRank_scaled {shift significand : Nat} (hle : significand ≤ 2 * significandSpan)
    (hnormal : shift = 0 ∨ significandSpan ≤ significand) :
    unitsOfRank (shift * significandSpan + significand) = significand * 2 ^ shift := by
  have hspan := significandSpan_pos
  unfold unitsOfRank
  rcases Nat.lt_or_ge significand significandSpan with hsmall | hlarge
  · have hshift : shift = 0 := hnormal.resolve_right (by omega)
    subst hshift
    simp [hsmall]
  · have hrank : ¬ shift * significandSpan + significand < significandSpan := by omega
    rw [if_neg hrank, Nat.shiftLeft_eq]
    rcases Nat.lt_or_ge significand (2 * significandSpan) with hbelow | htop
    · have hsplit : shift * significandSpan + significand =
          (significand - significandSpan) + significandSpan * (shift + 1) := by
        rw [Nat.mul_comm significandSpan, Nat.add_mul]
        omega
      have hfraction : significand - significandSpan < significandSpan := by omega
      rw [hsplit, Nat.add_mul_mod_self_left, Nat.mod_eq_of_lt hfraction,
        Nat.add_mul_div_left _ _ hspan, Nat.div_eq_of_lt hfraction, Nat.zero_add,
        Nat.add_sub_cancel, Nat.add_sub_cancel' hlarge]
    · have htwice : significand = 2 * significandSpan := Nat.le_antisymm hle htop
      have hsplit : shift * significandSpan + significand = significandSpan * (shift + 2) := by
        rw [htwice]
        ring
      rw [hsplit, Nat.mul_mod_right, Nat.mul_div_cancel_left _ hspan, htwice]
      have hexponent : shift + 2 - 1 = shift + 1 := by omega
      rw [hexponent]
      ring

/-- Every rank has a significand and a shift. -/
theorem exists_scaled (rank : Nat) : ∃ shift significand,
    significand < 2 * significandSpan ∧ (shift = 0 ∨ significandSpan ≤ significand) ∧
      rank = shift * significandSpan + significand := by
  have hspan := significandSpan_pos
  rcases Nat.lt_or_ge rank significandSpan with hsmall | hlarge
  · exact ⟨0, rank, by omega, Or.inl rfl, by omega⟩
  · have hmod := Nat.mod_lt rank hspan
    have hquotient : 1 ≤ rank / significandSpan := (Nat.one_le_div_iff hspan).mpr hlarge
    refine ⟨rank / significandSpan - 1, significandSpan + rank % significandSpan, by omega,
      Or.inr (by omega), ?_⟩
    have hdivision := Nat.div_add_mod' rank significandSpan
    rw [Nat.sub_mul, Nat.one_mul]
    have hle : significandSpan ≤ rank / significandSpan * significandSpan :=
      Nat.le_mul_of_pos_left _ hquotient
    omega

/-- A significand of at most 53 bits is exact at every shift. -/
theorem exists_unitsOfRank_eq {significand : Nat} (hle : significand ≤ 2 * significandSpan)
    (shift : Nat) : ∃ rank, unitsOfRank rank = significand * 2 ^ shift := by
  induction shift generalizing significand with
  | zero => exact ⟨_, unitsOfRank_scaled hle (Or.inl rfl)⟩
  | succ shift ih =>
      rcases Nat.le_total significand significandSpan with hsmall | hlarge
      · obtain ⟨rank, hrank⟩ := ih (Nat.mul_le_mul_left 2 hsmall)
        exact ⟨rank, by rw [hrank, pow_succ]; ring⟩
      · exact ⟨_, unitsOfRank_scaled hle (Or.inr hlarge)⟩

/-- Neighbouring magnitudes have neighbouring significands at one shift. -/
theorem exists_scaled_succ (rank : Nat) : ∃ shift significand,
    significand < 2 * significandSpan ∧ (significandSpan ≤ rank → significandSpan ≤ significand) ∧
      unitsOfRank rank = significand * 2 ^ shift ∧
      unitsOfRank (rank + 1) = (significand + 1) * 2 ^ shift := by
  obtain ⟨shift, significand, hlt, hnormal, rfl⟩ := exists_scaled rank
  refine ⟨shift, significand, hlt, fun hlarge => ?_, unitsOfRank_scaled hlt.le hnormal, ?_⟩
  · rcases hnormal with hzero | hle
    · simpa [hzero] using hlarge
    · exact hle
  · rw [Nat.add_assoc]
    exact unitsOfRank_scaled hlt (hnormal.imp_right Nat.le_succ_of_le)

theorem unitsOfRank_lt_succ (rank : Nat) : unitsOfRank rank < unitsOfRank (rank + 1) := by
  obtain ⟨shift, significand, -, -, hunits, hnext⟩ := exists_scaled_succ rank
  rw [hunits, hnext]
  exact Nat.mul_lt_mul_of_pos_right (Nat.lt_succ_self _) (Nat.two_pow_pos _)

/-- The step to a magnitude is no smaller a part of it than a unit of a full significand. -/
theorem unitsOfRank_succ_le (rank : Nat) : (unitsOfRank (rank + 1) : ℚ) ≤
    2 * significandSpan * (unitsOfRank (rank + 1) - unitsOfRank rank) := by
  obtain ⟨shift, significand, hlt, -, hunits, hnext⟩ := exists_scaled_succ rank
  have hle : ((significand + 1) * 2 ^ shift : ℚ) ≤ 2 * significandSpan * 2 ^ shift := by
    exact_mod_cast Nat.mul_le_mul_right (2 ^ shift) (show significand + 1 ≤ _ from hlt)
  rw [hunits, hnext]
  push_cast
  linarith

/-- Beyond the evenly spaced first binade the step to a magnitude is a smaller part of it than a
unit of the least significand. -/
theorem lt_unitsOfRank_succ {rank : Nat} (hlarge : significandSpan ≤ rank) :
    significandSpan * ((unitsOfRank (rank + 1) : ℚ) - unitsOfRank rank) <
      unitsOfRank (rank + 1) := by
  obtain ⟨shift, significand, -, hnormal, hunits, hnext⟩ := exists_scaled_succ rank
  have hlt : (significandSpan * 2 ^ shift : ℚ) < (significand + 1) * 2 ^ shift := by
    exact_mod_cast Nat.mul_lt_mul_of_pos_right (Nat.lt_succ_of_le (hnormal hlarge))
      (Nat.two_pow_pos shift)
  rw [hunits, hnext]
  push_cast
  linarith

theorem unitsOfRank_strictMono : StrictMono unitsOfRank :=
  strictMono_nat_of_lt_succ unitsOfRank_lt_succ

theorem unitsOfRank_zero : unitsOfRank 0 = 0 := rfl

/-- A rounded quotient lies within one half of the quotient, and is even if it lies one half off. -/
theorem roundHalfEven_spec (num den : Nat) (hden : 0 < den) :
    (num / den : ℚ) ≤ roundHalfEven num den + 1 / 2 ∧
      (roundHalfEven num den : ℚ) - 1 / 2 ≤ num / den ∧
      ((num / den : ℚ) = roundHalfEven num den + 1 / 2 ∨
        (roundHalfEven num den : ℚ) - 1 / 2 = num / den → roundHalfEven num den % 2 = 0) := by
  have hpos : (0 : ℚ) < den := by exact_mod_cast hden
  obtain ⟨fraction, hfraction⟩ : ∃ fraction : ℚ, (num % den : Nat) = fraction * den :=
    ⟨(num % den : Nat) / den, (div_mul_cancel₀ _ hpos.ne').symm⟩
  have hdivision : (num / den : ℚ) = (num / den : Nat) + fraction := by
    rw [div_eq_iff hpos.ne', add_mul, ← hfraction]
    exact_mod_cast (Nat.div_add_mod' num den).symm
  have hnonneg : 0 ≤ fraction := by
    refine nonneg_of_mul_nonneg_left ?_ hpos
    rw [← hfraction]
    exact Nat.cast_nonneg _
  have hbelow : fraction < 1 := by
    refine lt_of_mul_lt_mul_right ?_ hpos.le
    rw [← hfraction, one_mul]
    exact_mod_cast Nat.mod_lt num hden
  rw [hdivision]
  unfold roundHalfEven
  dsimp only
  rcases Nat.lt_trichotomy (2 * (num % den)) den with hless | htie | hmore
  · have hhalf : fraction < 1 / 2 := by
      refine lt_of_mul_lt_mul_right ?_ hpos.le
      rw [← hfraction, div_mul_eq_mul_div, one_mul, lt_div_iff₀ two_pos, mul_comm]
      exact_mod_cast hless
    rw [if_pos hless]
    refine ⟨by linarith, by linarith, ?_⟩
    rintro (heq | heq) <;> exfalso <;> linarith
  · have hhalf : fraction = 1 / 2 := by
      apply mul_right_cancel₀ hpos.ne'
      rw [← hfraction, div_mul_eq_mul_div, one_mul, eq_div_iff two_ne_zero, mul_comm]
      exact_mod_cast htie
    rw [if_neg (by omega), if_neg (by omega), hhalf]
    have hparity : num / den % 2 = 0 ∨ num / den % 2 = 1 := by omega
    rcases hparity with heven | hodd
    · rw [heven]
      push_cast
      refine ⟨by linarith, by linarith, fun _ => by omega⟩
    · rw [hodd]
      push_cast
      refine ⟨by linarith, by linarith, fun _ => by omega⟩
  · have hhalf : 1 / 2 < fraction := by
      refine lt_of_mul_lt_mul_right ?_ hpos.le
      rw [← hfraction, div_mul_eq_mul_div, one_mul, div_lt_iff₀ two_pos, mul_comm]
      exact_mod_cast hmore
    rw [if_neg (by omega), if_pos hmore]
    push_cast
    refine ⟨by linarith, by linarith, ?_⟩
    rintro (heq | heq) <;> exfalso <;> linarith

/-- A quantity of units rounds to a rank: it lies no farther from the magnitude at the rank than
from those next to it, and the rank is even where it lies just as far. -/
structure RoundsTo (quantity : ℚ) (rank : Nat) : Prop where
  le_above : quantity ≤ (unitsOfRank rank + unitsOfRank (rank + 1)) / 2
  below_le : 0 < rank → ((unitsOfRank (rank - 1) + unitsOfRank rank) / 2 : ℚ) ≤ quantity
  even_above : quantity = (unitsOfRank rank + unitsOfRank (rank + 1)) / 2 → rank % 2 = 0
  even_below : 0 < rank → ((unitsOfRank (rank - 1) + unitsOfRank rank) / 2 : ℚ) = quantity →
    rank % 2 = 0

theorem cast_unitsOfRank_le {rank rank' : Nat} (hle : rank ≤ rank') :
    (unitsOfRank rank : ℚ) ≤ unitsOfRank rank' := by
  exact_mod_cast unitsOfRank_strictMono.monotone hle

theorem cast_unitsOfRank_lt {rank rank' : Nat} (hlt : rank < rank') :
    (unitsOfRank rank : ℚ) < unitsOfRank rank' := by
  exact_mod_cast unitsOfRank_strictMono hlt

/-- A larger quantity rounds to no smaller rank. -/
theorem RoundsTo.mono {quantity quantity' : ℚ} {rank rank' : Nat}
    (hround : RoundsTo quantity rank) (hround' : RoundsTo quantity' rank')
    (hle : quantity ≤ quantity') : rank ≤ rank' := by
  by_contra hlt
  have hlt : rank' + 1 ≤ rank := by omega
  have hlow := hround.below_le (by omega)
  have hhigh := hround'.le_above
  have hprevious := cast_unitsOfRank_le (show rank' ≤ rank - 1 by omega)
  have hnext := cast_unitsOfRank_le hlt
  -- both quantities lie at the same half-way point, which cannot be even from both sides
  have heven := hround.even_below (by omega) (by linarith)
  have heven' := hround'.even_above (by linarith)
  rcases Nat.lt_or_ge (rank' + 1) rank with hfar | hnear
  · have := cast_unitsOfRank_lt (show rank' < rank - 1 by omega)
    linarith
  · omega

/-- A magnitude at a rank rounds to the rank. -/
theorem roundsTo_unitsOfRank (rank : Nat) : RoundsTo (unitsOfRank rank) rank := by
  have hnext := cast_unitsOfRank_lt (Nat.lt_succ_self rank)
  refine ⟨by linarith, fun hpos => ?_, fun heq => ?_, fun hpos heq => ?_⟩
  · have := cast_unitsOfRank_lt (show rank - 1 < rank by omega)
    linarith
  · exfalso
    linarith
  · have := cast_unitsOfRank_lt (show rank - 1 < rank by omega)
    exfalso
    linarith

/-- The magnitude above a significand is at least the one with the next significand. -/
theorem le_unitsOfRank_succ {shift significand : Nat} (hle : significand ≤ 2 * significandSpan)
    (hnormal : shift = 0 ∨ significandSpan ≤ significand) :
    (significand + 1) * 2 ^ shift ≤ unitsOfRank (shift * significandSpan + significand + 1) := by
  rcases Nat.lt_or_ge significand (2 * significandSpan) with hlt | hge
  · rw [Nat.add_assoc, unitsOfRank_scaled hlt (hnormal.imp_right Nat.le_succ_of_le)]
  · have htwice : significand = 2 * significandSpan := Nat.le_antisymm hle hge
    have hcarry : shift * significandSpan + significand + 1 =
        (shift + 1) * significandSpan + (significandSpan + 1) := by
      rw [htwice]
      ring
    have hspan := significandSpan_pos
    rw [hcarry, unitsOfRank_scaled (by omega) (Or.inr (by omega)), htwice, pow_succ]
    nlinarith [Nat.two_pow_pos shift]

/-- The steps between neighbouring magnitudes never become smaller. -/
theorem two_mul_unitsOfRank_succ_le (rank : Nat) :
    2 * unitsOfRank (rank + 1) ≤ unitsOfRank rank + unitsOfRank (rank + 2) := by
  obtain ⟨shift, significand, hlt, hnormal, rfl⟩ := exists_scaled rank
  have hnormal' : shift = 0 ∨ significandSpan ≤ significand + 1 :=
    hnormal.imp_right Nat.le_succ_of_le
  have hnext := @unitsOfRank_scaled shift (significand + 1) hlt hnormal'
  have hlast := @le_unitsOfRank_succ shift (significand + 1) hlt hnormal'
  rw [← Nat.add_assoc] at hnext hlast
  rw [unitsOfRank_scaled hlt.le hnormal, hnext]
  linarith

/-- The magnitude below a significand that does not begin a binade has the previous significand. -/
theorem unitsOfRank_pred {shift significand : Nat}
    (hpos : 0 < shift * significandSpan + significand) (hle : significand ≤ 2 * significandSpan)
    (hinner : shift = 0 ∨ significandSpan < significand) :
    (unitsOfRank (shift * significandSpan + significand - 1) : ℚ) =
      (significand - 1) * 2 ^ shift := by
  have hone : 1 ≤ significand := by
    rcases hinner with hzero | hlt
    · simpa [hzero, Nat.one_le_iff_ne_zero, Nat.pos_iff_ne_zero] using hpos
    · omega
  have hpred : shift * significandSpan + significand - 1 =
      shift * significandSpan + (significand - 1) := by omega
  rw [hpred, unitsOfRank_scaled (by omega) (hinner.imp_right Nat.le_sub_one_of_lt)]
  push_cast [Nat.cast_sub hone]
  ring

/-- Rounding a scaled quantity to a whole significand finds the rank. -/
theorem roundsTo_scaled {quotient : ℚ} {shift significand : Nat}
    (hbelow : quotient < 2 * significandSpan) (hnormal : shift = 0 ∨ significandSpan ≤ quotient)
    (hhigh : quotient ≤ significand + 1 / 2) (hlow : (significand : ℚ) - 1 / 2 ≤ quotient)
    (htie : quotient = significand + 1 / 2 ∨ (significand : ℚ) - 1 / 2 = quotient →
      significand % 2 = 0) :
    RoundsTo (quotient * 2 ^ shift) (shift * significandSpan + significand) := by
  have hscale : (0 : ℚ) < 2 ^ shift := by positivity
  have hle : significand ≤ 2 * significandSpan := by
    have hlt : (significand : ℚ) < ((2 * significandSpan + 1 : Nat) : ℚ) := by
      push_cast
      linarith
    exact Nat.lt_succ_iff.mp (by exact_mod_cast hlt)
  have hnormal' : shift = 0 ∨ significandSpan ≤ significand := by
    refine hnormal.imp_right fun hge => ?_
    have hlt : (significandSpan : ℚ) < ((significand + 1 : Nat) : ℚ) := by
      push_cast
      linarith
    exact Nat.lt_succ_iff.mp (by exact_mod_cast hlt)
  have hunits : (unitsOfRank (shift * significandSpan + significand) : ℚ) =
      significand * 2 ^ shift := by
    exact_mod_cast unitsOfRank_scaled hle hnormal'
  have habove : ((significand + 1) * 2 ^ shift : ℚ) ≤
      unitsOfRank (shift * significandSpan + significand + 1) := by
    exact_mod_cast le_unitsOfRank_succ hle hnormal'
  have hspan : significandSpan = 2 * 2251799813685248 := rfl
  have heven : significand % 2 = 0 → (shift * significandSpan + significand) % 2 = 0 := by
    rw [hspan, Nat.mul_left_comm]
    omega
  have hupper : quotient * 2 ^ shift ≤ (significand + 1 / 2) * 2 ^ shift :=
    mul_le_mul_of_nonneg_right hhigh hscale.le
  have hlower : ((significand : ℚ) - 1 / 2) * 2 ^ shift ≤ quotient * 2 ^ shift :=
    mul_le_mul_of_nonneg_right hlow hscale.le
  have hfirst : ∀ {a b : ℚ}, a * 2 ^ shift = b * 2 ^ shift → a = b :=
    fun heq => mul_right_cancel₀ hscale.ne' heq
  refine ⟨by rw [hunits]; linarith, fun hpos => ?_, fun heq => ?_, fun hpos heq => ?_⟩
  · by_cases hinner : shift = 0 ∨ significandSpan < significand
    · rw [unitsOfRank_pred hpos hle hinner, hunits]
      linarith
    · have hedge : significandSpan = significand := by omega
      have hge := hnormal.resolve_left (fun h => hinner (Or.inl h))
      have hpred := cast_unitsOfRank_le
        (Nat.sub_le (shift * significandSpan + significand) 1)
      rw [hedge] at hge
      have := mul_le_mul_of_nonneg_right hge hscale.le
      rw [hunits] at hpred ⊢
      linarith
  · rw [hunits] at heq
    exact heven (htie (Or.inl (hfirst (by linarith))))
  · by_cases hinner : shift = 0 ∨ significandSpan < significand
    · rw [unitsOfRank_pred hpos hle hinner, hunits] at heq
      exact heven (htie (Or.inr (hfirst (by linarith))))
    · exact heven (by omega)

/-- The rank nearest to a ratio of units is the one that the ratio rounds to. -/
theorem roundsTo_nearestRank (num : Nat) {den : Nat} (hden : 0 < den) :
    RoundsTo (num / den) (nearestRank num den) := by
  have hpos : (0 : ℚ) < den := by exact_mod_cast hden
  unfold nearestRank
  split
  next hzero => simpa [hzero, unitsOfRank_zero] using roundsTo_unitsOfRank 0
  dsimp only
  generalize hshift : (num / den).log2 - 52 = shift
  have hden' : 0 < den <<< shift := by
    rw [Nat.shiftLeft_eq]
    positivity
  have hquotient : (num : ℚ) / (den <<< shift : Nat) * 2 ^ shift = num / den := by
    rw [Nat.shiftLeft_eq]
    push_cast
    field_simp
  obtain ⟨hhigh, hlow, htie⟩ := roundHalfEven_spec num (den <<< shift) hden'
  have hspan : significandSpan = 2 ^ 52 := rfl
  rw [← hquotient]
  refine roundsTo_scaled ?_ ?_ hhigh hlow htie
  · rw [div_lt_iff₀ (by exact_mod_cast hden')]
    have hlog := Nat.lt_log2_self (n := num / den)
    have hexponent : 2 ^ ((num / den).log2 + 1) ≤ 2 * significandSpan * 2 ^ shift := by
      rw [hspan, ← Nat.pow_succ', ← Nat.pow_add]
      exact Nat.pow_le_pow_right two_pos (by omega)
    have hlt := (Nat.div_lt_iff_lt_mul hden).mp (lt_of_lt_of_le hlog hexponent)
    rw [Nat.shiftLeft_eq, Nat.mul_comm den, ← Nat.cast_ofNat, ← Nat.cast_mul, ← Nat.cast_mul,
      ← Nat.mul_assoc]
    exact_mod_cast hlt
  · rcases Nat.eq_zero_or_pos shift with hzero | hshifted
    · exact Or.inl hzero
    · apply Or.inr
      have hne : num / den ≠ 0 := by
        intro h
        simp [h] at hshift
        omega
      rw [le_div_iff₀ (by exact_mod_cast hden')]
      have hlog := Nat.log2_self_le hne
      have hexponent : significandSpan * 2 ^ shift = 2 ^ (num / den).log2 := by
        rw [hspan, ← Nat.pow_add]
        congr 1
        omega
      rw [← hexponent, Nat.le_div_iff_mul_le hden, Nat.mul_assoc, Nat.mul_comm (2 ^ shift)] at hlog
      rw [Nat.shiftLeft_eq]
      exact_mod_cast hlog

/-- Rounding leaves a magnitude that has a rank alone. -/
theorem nearestRank_eq_of_eq {num den rank : Nat} (hden : 0 < den)
    (heq : (num / den : ℚ) = unitsOfRank rank) : nearestRank num den = rank := by
  have hround := roundsTo_nearestRank num hden
  exact Nat.le_antisymm (hround.mono (roundsTo_unitsOfRank rank) heq.le)
    ((roundsTo_unitsOfRank rank).mono hround heq.ge)

/-- Rounding never passes a magnitude on its way up. -/
theorem nearestRank_le {num den rank : Nat} (hden : 0 < den)
    (hle : (num / den : ℚ) ≤ unitsOfRank rank) : nearestRank num den ≤ rank :=
  (roundsTo_nearestRank num hden).mono (roundsTo_unitsOfRank rank) hle

/-- Rounding never passes a magnitude on its way down. -/
theorem le_nearestRank {num den rank : Nat} (hden : 0 < den)
    (hle : (unitsOfRank rank : ℚ) ≤ num / den) : rank ≤ nearestRank num den :=
  (roundsTo_unitsOfRank rank).mono (roundsTo_nearestRank num hden) hle

/-- A ratio that lies nearer to a magnitude than to the next one rounds no farther. -/
theorem nearestRank_lt {num den rank : Nat} (hden : 0 < den)
    (hlt : (num / den : ℚ) < (unitsOfRank rank + unitsOfRank (rank + 1)) / 2) :
    nearestRank num den < rank + 1 := by
  by_contra hge
  have hround := roundsTo_nearestRank num hden
  have hlow := hround.below_le (by omega)
  have hprevious := cast_unitsOfRank_le (show rank ≤ nearestRank num den - 1 by omega)
  have hnext := cast_unitsOfRank_le (show rank + 1 ≤ nearestRank num den by omega)
  linarith

end Exemplar.Double
