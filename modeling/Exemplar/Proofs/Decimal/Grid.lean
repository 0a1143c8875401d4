import Exemplar.Proofs.Decimal.Order
import Mathlib.Data.Nat.Cast.Order.Field

/-!
# Decimals on a grid

The decimals that are read as one number lie in an interval around it. Among the multiples
of one power of ten the number has two neighbours, and if any multiple is read as the number
then one of them is, the nearest of all. Seventeen digits are fine enough for every number,
as the nearest multiple is then nearer than half the way to the next number.
-/

namespace Exemplar

namespace Double

open Decimal (amount ten_zpow)

/-! ## What is read as a number -/

/-- The quantities that are rounded to one rank make up an interval. -/
theorem RoundsTo.between {low high quantity : ℚ} {rank : Nat} (hlow : RoundsTo low rank)
    (hhigh : RoundsTo high rank) (hle : low ≤ quantity) (hle' : quantity ≤ high) :
    RoundsTo quantity rank where
  le_above := hle'.trans hhigh.le_above
  below_le hpos := (hlow.below_le hpos).trans hle
  even_above heq := hhigh.even_above (le_antisymm hhigh.le_above (heq ▸ hle'))
  even_below hpos heq := hlow.even_below hpos (le_antisymm (hlow.below_le hpos) (heq ▸ hle))

/-- What lies nearer to a number than the last bit of a full significand is rounded to it. -/
theorem roundsTo_of_near {quantity : ℚ} {rank : Nat} (hpos : 0 < rank)
    (hnear : 4 * significandSpan * |quantity - unitsOfRank rank| < unitsOfRank rank) :
    RoundsTo quantity rank := by
  have hspan : (0 : ℚ) < significandSpan := by exact_mod_cast significandSpan_pos
  have hnext := cast_unitsOfRank_lt (Nat.lt_succ_self rank)
  have habove := unitsOfRank_succ_le rank
  have hbelow := unitsOfRank_succ_le (rank - 1)
  rw [Nat.sub_add_cancel hpos] at hbelow
  have hhigh := mul_le_mul_of_nonneg_left (le_abs_self (quantity - unitsOfRank rank)) hspan.le
  have hlow := mul_le_mul_of_nonneg_left (neg_abs_le (quantity - unitsOfRank rank)) hspan.le
  have hless : quantity < (unitsOfRank rank + unitsOfRank (rank + 1)) / 2 :=
    lt_of_mul_lt_mul_left (by linarith) hspan.le
  have hmore : (unitsOfRank (rank - 1) + unitsOfRank rank) / 2 < quantity :=
    lt_of_mul_lt_mul_left (by linarith) hspan.le
  exact ⟨hless.le, fun _ => hmore.le, fun heq => absurd heq hless.ne,
    fun _ heq => absurd heq hmore.ne⟩

theorem readsBack_iff {rank coefficient : Nat} {exponent : Int} (hbound : rank < rankBound) :
    readsBack rank coefficient exponent = true ↔
      RoundsTo (amount coefficient exponent * unitsPerOne) rank := by
  unfold readsBack
  rw [decide_eq_true_iff, ofDecimal_eq]
  constructor
  · intro hread
    rw [← eq_of_ofRank hbound hread]
    exact roundsTo_rankOfDecimal coefficient exponent
  · intro hround
    rw [rankOfDecimal_eq_of_roundsTo hround]

/-- A decimal of zero is not read as a positive number. -/
theorem pos_of_roundsTo {rank coefficient : Nat} {exponent : Int} (hpos : 0 < rank)
    (hround : RoundsTo (amount coefficient exponent * unitsPerOne) rank) : 0 < coefficient := by
  rw [Nat.pos_iff_ne_zero]
  rintro rfl
  have hlow := hround.below_le hpos
  have hunits := cast_unitsOfRank_lt hpos
  have hprevious := @cast_unitsOfRank_le 0 (rank - 1) (Nat.zero_le _)
  rw [unitsOfRank_zero, Nat.cast_zero] at hunits hprevious
  rw [amount, Nat.cast_zero, zero_mul, zero_mul] at hlow
  linarith

/-! ## Neighbours on a grid -/

/-- The two integers next to a quantity, the nearer one first and an even one at a tie. -/
structure Neighbours (quantity : ℚ) (near far : Nat) : Prop where
  around : near ≤ quantity ∧ quantity < far ∧ far = near + 1 ∨
    far ≤ quantity ∧ quantity < near ∧ near = far + 1
  le_half : |(near : ℚ) - quantity| ≤ 1 / 2
  even : |(near : ℚ) - quantity| = 1 / 2 → near % 2 = 0

/-- A magnitude in units of a grid. -/
def onScale (units : Nat) (grid : Int) : ℚ := units / (unitsPerOne * 10 ^ grid)

theorem step_pos (grid : Int) : (0 : ℚ) < unitsPerOne * 10 ^ grid :=
  mul_pos (by exact_mod_cast unitsPerOne_pos) (zpow_pos (by norm_num) _)

theorem onScale_eq_div (units : Nat) (grid : Int) :
    onScale units grid = (units * Nat.pow 10 (-grid).toNat : Nat) /
      (unitsPerOne * Nat.pow 10 grid.toNat : Nat) := by
  have hden : ((Nat.pow 10 (-grid).toNat : Nat) : ℚ) ≠ 0 := by
    exact_mod_cast (Nat.pow_pos (by decide)).ne'
  rw [onScale, ten_zpow, mul_div_assoc', div_div_eq_mul_div]
  push_cast
  rfl

theorem neighbours_gridNeighbours (units : Nat) (grid : Int) :
    Neighbours (onScale units grid) (gridNeighbours units grid).1
      (gridNeighbours units grid).2 := by
  have hden : 0 < unitsPerOne * Nat.pow 10 grid.toNat :=
    Nat.mul_pos unitsPerOne_pos (Nat.pow_pos (by decide))
  rw [onScale_eq_div]
  unfold gridNeighbours
  dsimp only
  generalize units * Nat.pow 10 (-grid).toNat = num
  generalize unitsPerOne * Nat.pow 10 grid.toNat = den at hden ⊢
  have hpos : (0 : ℚ) < den := by exact_mod_cast hden
  obtain ⟨hhigh, hlow, htie⟩ := roundHalfEven_spec num den hden
  have hfloor : ((num / den : Nat) : ℚ) ≤ num / den := Nat.cast_div_le
  have hceil : (num / den : ℚ) < (num / den + 1 : Nat) := by
    rw [div_lt_iff₀ hpos]
    exact_mod_cast Nat.lt_mul_of_div_lt (Nat.lt_succ_self _) hden
  -- a quotient that is rounded down may be exact, one that is rounded up never is
  have hround : roundHalfEven num den = num / den ∨ roundHalfEven num den = num / den + 1 := by
    unfold roundHalfEven
    dsimp only
    split_ifs <;> omega
  refine ⟨?_, abs_le.mpr ⟨by linarith, by linarith⟩, fun heq => htie ?_⟩
  · rcases hround with heq | heq
    · rw [heq]
      exact .inl ⟨hfloor, by rwa [show 2 * (num / den) + 1 - num / den = num / den + 1 by omega],
        by omega⟩
    · rw [heq]
      exact .inr ⟨by rwa [show 2 * (num / den) + 1 - (num / den + 1) = num / den by omega], hceil,
        by omega⟩
  · rcases (abs_eq (by norm_num)).mp heq with heq | heq
    · exact .inr (by linarith)
    · exact .inl (by linarith)

section Neighbours

variable {quantity : ℚ} {near far : Nat} (hneighbours : Neighbours quantity near far)
include hneighbours

theorem Neighbours.near_le (integer : Nat) : |(near : ℚ) - quantity| ≤ |(integer : ℚ) - quantity| ∧
    (|(integer : ℚ) - quantity| = |(near : ℚ) - quantity| → integer ≠ near →
      near % 2 = 0 ∧ integer % 2 = 1) := by
  have hhalf := hneighbours.le_half
  rcases Nat.lt_trichotomy integer near with hless | rfl | hmore
  · have hgap : (integer + 1 : ℚ) ≤ near := by exact_mod_cast hless
    have hnear := le_abs_self ((near : ℚ) - quantity)
    have hinteger := neg_abs_le ((integer : ℚ) - quantity)
    refine ⟨by linarith, fun htie _ => ?_⟩
    have heven := hneighbours.even (by linarith)
    have hnext : (near : ℚ) ≤ (integer + 1 : Nat) := by
      push_cast
      linarith
    have hnext := Nat.cast_le.mp hnext
    omega
  · exact ⟨le_rfl, fun _ hne => absurd rfl hne⟩
  · have hgap : (near + 1 : ℚ) ≤ integer := by exact_mod_cast hmore
    have hnear := neg_abs_le ((near : ℚ) - quantity)
    have hinteger := le_abs_self ((integer : ℚ) - quantity)
    refine ⟨by linarith, fun htie _ => ?_⟩
    have heven := hneighbours.even (by linarith)
    have hnext : (integer : ℚ) ≤ (near + 1 : Nat) := by
      push_cast
      linarith
    have hnext := Nat.cast_le.mp hnext
    omega

/-- Where the nearer one is left out of an interval, every integer in the interval lies at the other
one or beyond it. -/
theorem Neighbours.beyond_far {good : ℚ → Prop} {integer : Nat}
    (hbetween : ∀ a b c, good a → good b → a ≤ c → c ≤ b → good c) (hgood : good quantity)
    (hnear : ¬good near) (hinteger : good integer) :
    (quantity < far ∧ far ≤ integer) ∨ (integer ≤ far ∧ far ≤ quantity) := by
  rcases hneighbours.around with ⟨hle, hlt, hfar⟩ | ⟨hle, hlt, hfar⟩
  · refine .inl ⟨hlt, ?_⟩
    by_contra hless
    refine hnear (hbetween _ _ _ hinteger hgood ?_ hle)
    exact_mod_cast show integer ≤ near by omega
  · refine .inr ⟨?_, hle⟩
    by_contra hmore
    refine hnear (hbetween _ _ _ hgood hinteger hlt.le ?_)
    exact_mod_cast show near ≤ integer by omega

theorem Neighbours.far_le {good : ℚ → Prop} {integer : Nat}
    (hbetween : ∀ a b c, good a → good b → a ≤ c → c ≤ b → good c) (hgood : good quantity)
    (hnear : ¬good near) (hinteger : good integer) :
    good far ∧ |(far : ℚ) - quantity| ≤ |(integer : ℚ) - quantity| ∧
      (|(integer : ℚ) - quantity| = |(far : ℚ) - quantity| → integer = far) := by
  rcases hneighbours.beyond_far hbetween hgood hnear hinteger with ⟨hlt, hle⟩ | ⟨hle, hlt⟩
  · have hle' : (far : ℚ) ≤ integer := by exact_mod_cast hle
    rw [abs_of_nonneg (by linarith), abs_of_nonneg (by linarith)]
    refine ⟨hbetween _ _ _ hgood hinteger hlt.le hle', by linarith, fun htie => ?_⟩
    exact_mod_cast show (integer : ℚ) = far by linarith
  · have hle' : (integer : ℚ) ≤ far := by exact_mod_cast hle
    rw [abs_of_nonpos (by linarith), abs_of_nonpos (by linarith)]
    refine ⟨hbetween _ _ _ hinteger hgood hle' hlt, by linarith, fun htie => ?_⟩
    exact_mod_cast show (integer : ℚ) = far by linarith

end Neighbours

/-! ## The best multiple of a power of ten -/

/-- A multiple of a power of ten that is read as a number, no other one being nearer; where another
one is just as near, it is the even one. -/
structure BestOn (rank : Nat) (grid : Int) (best : Nat) : Prop where
  reads : RoundsTo (amount best grid * unitsPerOne) rank
  close : |(best : ℚ) - onScale (unitsOfRank rank) grid| ≤ 1
  nearest : ∀ other : Nat, RoundsTo (amount other grid * unitsPerOne) rank →
    |(best : ℚ) - onScale (unitsOfRank rank) grid| ≤
      |(other : ℚ) - onScale (unitsOfRank rank) grid|
  even_at_tie : ∀ other : Nat, RoundsTo (amount other grid * unitsPerOne) rank →
    |(other : ℚ) - onScale (unitsOfRank rank) grid| =
      |(best : ℚ) - onScale (unitsOfRank rank) grid| → other ≠ best → best % 2 = 0 ∧ other % 2 = 1

theorem onScale_mul (units : Nat) (grid : Int) :
    onScale units grid * (unitsPerOne * 10 ^ grid) = units :=
  div_mul_cancel₀ _ (step_pos grid).ne'

theorem amount_mul (coefficient : Nat) (grid : Int) :
    amount coefficient grid * unitsPerOne = coefficient * (unitsPerOne * 10 ^ grid) := by
  rw [amount]
  ring

section Grid

variable {rank : Nat} (grid : Int)

/-- Distances from a number, on the scale of a grid. -/
theorem distance_onScale (coefficient : Nat) :
    |amount coefficient grid * unitsPerOne - unitsOfRank rank| =
      |(coefficient : ℚ) - onScale (unitsOfRank rank) grid| * (unitsPerOne * 10 ^ grid) := by
  rw [amount_mul]
  conv_lhs => rw [← onScale_mul (unitsOfRank rank) grid]
  rw [← sub_mul, abs_mul, abs_of_pos (step_pos grid)]

/-- Being read as a number, in units of a grid. -/
theorem reads_between (a b c : ℚ) (ha : RoundsTo (a * (unitsPerOne * 10 ^ grid)) rank)
    (hb : RoundsTo (b * (unitsPerOne * 10 ^ grid)) rank) (hle : a ≤ c) (hle' : c ≤ b) :
    RoundsTo (c * (unitsPerOne * 10 ^ grid)) rank :=
  ha.between hb (mul_le_mul_of_nonneg_right hle (step_pos grid).le)
    (mul_le_mul_of_nonneg_right hle' (step_pos grid).le)

theorem reads_onScale :
    RoundsTo (onScale (unitsOfRank rank) grid * (unitsPerOne * 10 ^ grid)) rank := by
  rw [onScale_mul]
  exact roundsTo_unitsOfRank rank

/-- What is found on a grid is the best multiple there. -/
theorem bestOn_of_onGrid? {best : Nat} {exponent : Int} (hbound : rank < rankBound)
    (hfound : onGrid? rank grid = some (best, exponent)) :
    exponent = grid ∧ BestOn rank grid best := by
  have hneighbours := neighbours_gridNeighbours (unitsOfRank rank) grid
  unfold onGrid? at hfound
  generalize gridNeighbours (unitsOfRank rank) grid = neighbours at hneighbours hfound
  obtain ⟨near, far⟩ := neighbours
  dsimp only at hneighbours hfound
  split at hfound
  next hnear =>
    cases hfound
    have hhalf := hneighbours.le_half
    exact ⟨rfl, (readsBack_iff hbound).mp hnear, by linarith,
      fun other _ => (hneighbours.near_le other).1, fun other _ => (hneighbours.near_le other).2⟩
  next hnear =>
  split at hfound
  next hfar =>
    cases hfound
    rw [readsBack_iff hbound, amount_mul] at hnear
    refine ⟨rfl, (readsBack_iff hbound).mp hfar, ?_, fun other hother => ?_,
      fun other hother htie hne => absurd ?_ hne⟩
    · rcases hneighbours.around with ⟨hle, hlt, hnext⟩ | ⟨hle, hlt, hnext⟩
      · rw [hnext] at hlt ⊢
        push_cast at hlt ⊢
        exact abs_le.mpr ⟨by linarith, by linarith⟩
      · rw [hnext] at hlt
        push_cast at hlt
        exact abs_le.mpr ⟨by linarith, by linarith⟩
    · rw [amount_mul] at hother
      exact (hneighbours.far_le (reads_between grid) (reads_onScale grid) hnear hother).2.1
    · rw [amount_mul] at hother
      exact (hneighbours.far_le (reads_between grid) (reads_onScale grid) hnear hother).2.2 htie
  next => cases hfound

/-- A grid on which some multiple is read as a number is not left without one. -/
theorem onGrid?_ne_none {other : Nat} (hbound : rank < rankBound)
    (hother : RoundsTo (amount other grid * unitsPerOne) rank) : onGrid? rank grid ≠ none := by
  have hneighbours := neighbours_gridNeighbours (unitsOfRank rank) grid
  unfold onGrid?
  generalize gridNeighbours (unitsOfRank rank) grid = neighbours at hneighbours ⊢
  obtain ⟨near, far⟩ := neighbours
  dsimp only at hneighbours ⊢
  split
  next => simp
  next hnear =>
    rw [readsBack_iff hbound, amount_mul] at hnear
    rw [amount_mul] at hother
    have hfar := (hneighbours.far_le (reads_between grid) (reads_onScale grid) hnear hother).1
    rw [if_pos ((readsBack_iff hbound).mpr (by rwa [amount_mul]))]
    simp

end Grid

/-! ## The scale of a magnitude -/

/-- Powers of two bases compare as one pair of them does, as far as the exponents are in its
ratio. -/
theorem zpow_le_zpow_of_pow_le {a b : ℚ} {m n d : Nat} {p q k : ℤ} (ha : 1 ≤ a) (hb : 1 ≤ b)
    (hpow : a ^ m ≤ b ^ n) (hd : d ≠ 0) (hk : 0 ≤ k) (hp : p * d ≤ m * k) (hq : n * k ≤ q * d) :
    a ^ p ≤ b ^ q := by
  have hpos : 0 < a := zero_lt_one.trans_le ha
  have hpos' : 0 < b := zero_lt_one.trans_le hb
  refine (pow_le_pow_iff_left₀ (zpow_nonneg hpos.le _) (zpow_nonneg hpos'.le _) hd).mp ?_
  calc (a ^ p) ^ d = a ^ (p * d) := by rw [zpow_mul, zpow_natCast]
    _ ≤ a ^ (m * k) := zpow_le_zpow_right₀ ha hp
    _ = (a ^ m) ^ k := by rw [zpow_mul, zpow_natCast]
    _ ≤ (b ^ n) ^ k := zpow_le_zpow_left₀ hk (pow_nonneg hpos.le m) hpow
    _ = b ^ (n * k) := by rw [zpow_mul, zpow_natCast]
    _ ≤ b ^ (q * d) := zpow_le_zpow_right₀ hb hq
    _ = (b ^ q) ^ d := by rw [zpow_mul, zpow_natCast]

theorem ten_zpow_le_of_nonneg {power exponent : ℤ} (hnonneg : 0 ≤ exponent)
    (hle : power * 196 ≤ 59 * exponent) : (10 : ℚ) ^ power ≤ 2 ^ exponent :=
  @zpow_le_zpow_of_pow_le 10 2 59 196 196 _ _ exponent (by norm_num) (by norm_num) (by norm_num)
    (by decide) hnonneg hle (mul_comm _ _).le

theorem two_zpow_le_of_nonneg {power exponent : ℤ} (hnonneg : 0 ≤ exponent)
    (hle : 28 * exponent ≤ power * 93) : (2 : ℚ) ^ exponent ≤ 10 ^ power :=
  @zpow_le_zpow_of_pow_le 2 10 93 28 93 _ _ exponent (by norm_num) (by norm_num) (by norm_num)
    (by decide) hnonneg (mul_comm _ _).le hle

/-- Three tenths of a binary exponent, on the safe side for either sign, give a decimal one
below. -/
theorem ten_zpow_le {power exponent : ℤ} (hle : power * 196 ≤ 59 * exponent)
    (hle' : power * 93 ≤ 28 * exponent) : (10 : ℚ) ^ power ≤ 2 ^ exponent := by
  rcases le_total 0 exponent with hpos | hneg
  · exact ten_zpow_le_of_nonneg hpos hle
  · have hopposite := @two_zpow_le_of_nonneg (-power) (-exponent) (by omega) (by omega)
    rwa [zpow_neg, zpow_neg, inv_le_inv₀ (zpow_pos (by norm_num) _) (zpow_pos (by norm_num) _)]
      at hopposite

/-- And they give one above. -/
theorem two_zpow_le {power exponent : ℤ} (hle : 28 * exponent ≤ power * 93)
    (hle' : 59 * exponent ≤ power * 196) : (2 : ℚ) ^ exponent ≤ 10 ^ power := by
  rcases le_total 0 exponent with hpos | hneg
  · exact two_zpow_le_of_nonneg hpos hle
  · have hopposite := @ten_zpow_le_of_nonneg (-power) (-exponent) (by omega) (by omega)
    rwa [zpow_neg, zpow_neg, inv_le_inv₀ (zpow_pos (by norm_num) _) (zpow_pos (by norm_num) _)]
      at hopposite

theorem belowPower_iff {units : Nat} {scale : Int} :
    belowPower units scale = true ↔ (units : ℚ) < 10 ^ scale * unitsPerOne := by
  have hden : (0 : ℚ) < (Nat.pow 10 (-scale).toNat : Nat) := by
    exact_mod_cast Nat.pow_pos (by decide)
  unfold belowPower
  rw [decide_eq_true_iff, ten_zpow, div_mul_eq_mul_div, lt_div_iff₀ hden, mul_comm (_ : ℚ)
    (unitsPerOne : ℚ)]
  exact_mod_cast Iff.rfl

theorem belowPower_eq_false {units : Nat} {scale : Int} :
    belowPower units scale = false ↔ 10 ^ scale * unitsPerOne ≤ (units : ℚ) := by
  rw [← Bool.not_eq_true, belowPower_iff, not_lt]

theorem two_zpow_mul_unitsPerOne (log : Nat) :
    (2 : ℚ) ^ ((log : Int) - unitExponent) * unitsPerOne = (2 ^ log : Nat) := by
  rw [zpow_sub₀ (by norm_num), unitsPerOne_eq, zpow_natCast, zpow_natCast]
  push_cast
  exact div_mul_cancel₀ _ (by positivity)

/-- Three tenths of the binary logarithm are a step above the scale at most. -/
theorem le_of_estimate {units : Nat} (hpos : 0 < units) (hlog : units.log2 < 1024 + unitExponent)
    {scale : Int} (hscale : 4096 * (scale - 1) ≤ ((units.log2 : Int) - unitExponent) * 1233) :
    10 ^ (scale - 2) * unitsPerOne ≤ (units : ℚ) := by
  have hone : (0 : ℚ) < unitsPerOne := by exact_mod_cast unitsPerOne_pos
  have hlow : (2 : ℚ) ^ ((units.log2 : Int) - unitExponent) * unitsPerOne ≤ units := by
    rw [two_zpow_mul_unitsPerOne]
    exact_mod_cast Nat.log2_self_le hpos.ne'
  refine (mul_le_mul_of_nonneg_right (ten_zpow_le ?_ ?_) hone.le).trans hlow
  all_goals
    unfold unitExponent at *
    omega

/-- And they are a step below it at most. -/
theorem lt_of_estimate {units : Nat} (hlog : units.log2 < 1024 + unitExponent) {scale : Int}
    (hscale : ((units.log2 : Int) - unitExponent) * 1233 < 4096 * (scale - 1)) :
    (units : ℚ) < 10 ^ scale * unitsPerOne := by
  have hone : (0 : ℚ) < unitsPerOne := by exact_mod_cast unitsPerOne_pos
  have hhigh : (units : ℚ) < 2 ^ ((units.log2 : Int) + 1 - unitExponent) * unitsPerOne := by
    have hcast := two_zpow_mul_unitsPerOne (units.log2 + 1)
    push_cast at hcast
    rw [hcast]
    exact_mod_cast @Nat.lt_log2_self units
  refine hhigh.trans_le (mul_le_mul_of_nonneg_right (two_zpow_le ?_ ?_) hone.le)
  all_goals
    unfold unitExponent at *
    omega

/-- The scale of a magnitude tells how many digits it has in front of the point. -/
theorem decimalScale_spec {units : Nat} (hpos : 0 < units)
    (hlog : units.log2 < 1024 + unitExponent) :
    10 ^ (decimalScale units - 1) * unitsPerOne ≤ (units : ℚ) ∧
      (units : ℚ) < 10 ^ decimalScale units * unitsPerOne := by
  unfold decimalScale
  dsimp only
  generalize hestimate : ((units.log2 : Int) - unitExponent) * 1233 / 4096 = estimate
  have hestimate' : 4096 * estimate ≤ ((units.log2 : Int) - unitExponent) * 1233 ∧
      ((units.log2 : Int) - unitExponent) * 1233 < 4096 * (estimate + 1) := by omega
  split
  next hsmall =>
    have hlow := @le_of_estimate units hpos hlog (estimate + 1) (by omega)
    rw [show estimate + 1 - 2 = estimate - 1 by omega] at hlow
    exact ⟨hlow, belowPower_iff.mp hsmall⟩
  next hlarge =>
    rw [Bool.not_eq_true, belowPower_eq_false] at hlarge
    split
    next hsmall =>
      rw [Int.add_sub_cancel]
      exact ⟨hlarge, belowPower_iff.mp hsmall⟩
    next hlarge' =>
      rw [Bool.not_eq_true, belowPower_eq_false] at hlarge'
      rw [show estimate + 2 - 1 = estimate + 1 by omega]
      exact ⟨hlarge', lt_of_estimate hlog (by omega)⟩

theorem log2_unitsOfRank_lt {rank : Nat} (hpos : 0 < rank) (hbound : rank < rankBound) :
    (unitsOfRank rank).log2 < 1024 + unitExponent := by
  have hunits : 0 < unitsOfRank rank := unitsOfRank_strictMono hpos
  have hlt : unitsOfRank rank < unitsOfRank (rankOfPower 1024) := by
    rw [← rankBound_eq]
    exact unitsOfRank_strictMono hbound
  generalize 1024 = exponent at hlt ⊢
  rw [unitsOfRank_rankOfPower, unitsPerOne_eq, ← Nat.pow_add] at hlt
  exact (Nat.log2_lt hunits.ne').mpr hlt

/-- Seventeen digits always suffice: the multiple that is nearest then is nearer than half the way
to the next number. -/
theorem onGrid?_seventeen {rank : Nat} {scale : Int} (hpos : 0 < rank) (hbound : rank < rankBound)
    (hscale : 10 ^ (scale - 1) * unitsPerOne ≤ (unitsOfRank rank : ℚ)) :
    onGrid? rank (scale - 17) ≠ none := by
  have hstep := step_pos (scale - 17)
  have hhalf := (neighbours_gridNeighbours (unitsOfRank rank) (scale - 17)).le_half
  generalize (gridNeighbours (unitsOfRank rank) (scale - 17)).1 = near at hhalf
  apply @onGrid?_ne_none rank (scale - 17) near hbound
  apply roundsTo_of_near hpos
  have hspan : (significandSpan : ℚ) = 4503599627370496 := by norm_num [significandSpan]
  have hdigits : (10 : ℚ) ^ (scale - 1) = 10 ^ 16 * 10 ^ (scale - 17) := by
    rw [← zpow_natCast, ← zpow_add₀ (by norm_num)]
    congr 1
    push_cast
    omega
  rw [distance_onScale, hspan]
  rw [hdigits, mul_assoc, mul_comm (_ ^ _ : ℚ) (unitsPerOne : ℚ)] at hscale
  have hdistance := mul_le_mul_of_nonneg_right hhalf hstep.le
  linarith

end Double

end Exemplar
