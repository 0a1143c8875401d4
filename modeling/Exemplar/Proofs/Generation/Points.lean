import Exemplar.Proofs.Decimal.Order
import Exemplar.Proofs.Generation.Accounting
import Exemplar.Proofs.Generation.Bounds

/-!
# Points between bounds

A number is chosen between its bounds by scaling their distance, and is rounded to
places afterwards. The arithmetic on the way rounds four times, but never past the
bounds as floating-point numbers; the last rounding keeps the order of numbers. So a
number of bounds in order lies between the bounds as these are rounded to places, and
between the bounds themselves if they have no more places than that.
-/

namespace Exemplar

open Run
open Double (rounded rounded_mono rounded_nonneg rounded_of_nonneg magnitudeRank unitsOfRank
  unitsPerOne unitsPerOne_pos)

namespace Number

/-- A number rounded to places as a floating-point number, as far as there is room for that. -/
def settled (number : Number) (places : Int) : Number :=
  match number.toDouble with
  | .ok x => .float (x.settled places)
  | .error _ => number

/-- A number that equals a floating-point number with at most two decimal places. -/
def InHundredths (number : Number) : Prop :=
  ∃ negative rank, number.toDouble = .ok (.finite negative rank) ∧
    number.extent = (Double.finite negative rank).extent ∧
    -2 ≤ (Double.shortest negative rank).exponent

theorem InHundredths.extent_settled {number : Number} (hhundredths : number.InHundredths) :
    (number.settled 2).extent = number.extent := by
  obtain ⟨negative, rank, hdouble, hextent, hexponent⟩ := hhundredths
  rw [settled, hdouble, hextent]
  exact congrArg Double.extent (Double.settled_eq_self rfl hexponent)

theorem finite_getD {declared : Option Number} (hdeclared : ∀ number ∈ declared, number.Finite)
    (standard : Int) : (declared.getD (.int standard)).Finite := by
  cases declared with
  | none => exact ⟨_, rfl⟩
  | some number => exact hdeclared number rfl

end Number

/-! ## Points as floating-point numbers -/

/-- The way from two bounds to a point that some draw chooses between them. -/
inductive PointTo (low high : Number) (chosen : Double) : Prop
  | steps {drawn scale base : Double} {width : Number} (hunit : drawn.InUnit)
      (hwidth : high.sub low = .ok width) (hscale : width.toDouble = .ok scale)
      (hbase : low.toDouble = .ok base) (hchosen : chosen = drawn * scale + base)

/-- A point that is made is computed from numbers that the bounds give, by the draw at the start. -/
theorem point_eq_value {lower upper places : Json} {draws : Draws} {start final : Nat}
    {result : Double} (hrun : point lower upper places draws start = .value result final) :
    ∃ low high width scale base count, lower.asNumber = .ok low ∧ upper.asNumber = .ok high ∧
      high.sub low = .ok width ∧ width.toDouble = .ok scale ∧ low.toDouble = .ok base ∧
      places.asInt = .ok count ∧ (draws start * scale + base).round count = .ok result := by
  obtain ⟨drawn, next, hdraw, hrun⟩ := bind_eq_value.mp hrun
  cases hdraw
  obtain ⟨hresult, -⟩ := evaluate_eq_value.mp hrun
  obtain ⟨high, hhigh, hresult⟩ := bind_eq_ok.mp hresult
  obtain ⟨low, hlow, hresult⟩ := bind_eq_ok.mp hresult
  obtain ⟨width, hwidth, hresult⟩ := bind_eq_ok.mp hresult
  obtain ⟨offset, hoffset, hresult⟩ := bind_eq_ok.mp hresult
  obtain ⟨sum, hsum, hresult⟩ := bind_eq_ok.mp hresult
  obtain ⟨chosen, hchosen, hresult⟩ := bind_eq_ok.mp hresult
  obtain ⟨count, hcount, hresult⟩ := bind_eq_ok.mp hresult
  obtain ⟨scale, hscale, rfl⟩ := map_eq_ok.mp hoffset
  obtain ⟨_, ⟨⟩, hsum⟩ := bind_eq_ok.mp hsum
  obtain ⟨base, hbase, hsum⟩ := bind_eq_ok.mp hsum
  cases hsum
  cases hchosen
  exact ⟨low, high, width, scale, base, count, hlow, hhigh, hwidth, hscale, hbase, hcount, hresult⟩

/-- A point is chosen on this way and rounded, and only where the bounds are numbers. -/
theorem ensures_pointTo (lower upper places : Json) :
    (point lower upper places).Ensures
      (fun result => ∃ low high chosen count, lower.asNumber = .ok low ∧
        upper.asNumber = .ok high ∧ places.asInt = .ok count ∧ PointTo low high chosen ∧
        chosen.round count = .ok result)
      (fun _ => True) := by
  intro draws position hunit
  cases hrun : point lower upper places draws position with
  | value result final =>
      obtain ⟨low, high, width, scale, base, count, hlow, hhigh, hwidth, hscale, hbase, hcount,
        hround⟩ := point_eq_value hrun
      exact ⟨low, high, _, count, hlow, hhigh, hcount,
        .steps (hunit position) hwidth hscale hbase rfl, hround⟩
  | failure cause final => trivial
  | unfinished => trivial

namespace PointTo

variable {low high : Number} {chosen : Double}

theorem exists_toDouble (hpoint : PointTo low high chosen) : ∃ base, low.toDouble = .ok base := by
  obtain @⟨-, -, base, -, -, -, -, hbase, -⟩ := hpoint
  exact ⟨base, hbase⟩

/-- A finite point between two bounds in order lies between them as floating-point numbers. Of two
different integers the upper one is taken as it is, so that the lower one must not be rounded. -/
theorem between {l u c : ℤ} (hpoint : PointTo low high chosen) (hlow : low.extent = .units l)
    (hhigh : high.extent = .units u) (hle : l ≤ u) (hc : chosen.extent = .units c) :
    rounded l ≤ c ∧
      ((∀ m n, low = .int m → high = .int n → m ≠ n → low.Exact) → c ≤ rounded u) := by
  obtain @⟨drawn, scale, base, width, hunit, hwidth, hscale, hbase, rfl⟩ := hpoint
  obtain ⟨⟨o, ho⟩, -⟩ := Double.exists_units_of_add hc
  obtain ⟨-, s, hs⟩ := Double.exists_units_of_mul ho
  obtain ⟨w, hw⟩ := Number.finite_of_toDouble hscale hs
  have hbase := Number.extent_toDouble hlow hbase
  have hscale := Number.extent_toDouble hw hscale
  have hc := Double.extent_add ho hbase hc
  have hmono : rounded l ≤ rounded u := rounded_mono (by exact_mod_cast hle)
  have hlower (hfrom : 0 ≤ o) : rounded l ≤ c := by
    calc rounded l = rounded (rounded l) := (Double.rounded_rounded l).symm
      _ ≤ rounded (o + rounded l : ℤ) :=
          rounded_mono (by exact_mod_cast le_add_of_nonneg_left hfrom)
      _ = c := hc.symm
  rcases Number.extent_sub hhigh hlow hwidth hw with ⟨⟨n, rfl⟩, ⟨m, rfl⟩, rfl⟩ | ⟨-, rfl⟩
  · obtain ⟨hfrom, hto⟩ := Double.extent_mul_between hunit (sub_nonneg.mpr hle) hscale ho
    refine ⟨hlower hfrom, fun hexact => ?_⟩
    by_cases hne : m = n
    · subst hne
      cases hlow.symm.trans hhigh
      calc c = rounded (o + rounded l : ℤ) := hc
        _ ≤ rounded (rounded l) := rounded_mono (by exact_mod_cast (by omega))
        _ = rounded l := Double.rounded_rounded l
    · rw [hc, (hexact m n rfl rfl hne).rounded_eq hlow]
      exact rounded_mono (by exact_mod_cast (by omega : o + l ≤ u))
  · rw [Double.rounded_rounded] at hscale
    obtain ⟨hfrom, hto⟩ := Double.extent_mul_between hunit (sub_nonneg.mpr hmono) hscale ho
    refine ⟨hlower hfrom, fun _ => ?_⟩
    calc c = rounded (o + rounded l : ℤ) := hc
      _ ≤ rounded (rounded u) := rounded_mono (by exact_mod_cast (by omega))
      _ = rounded u := Double.rounded_rounded u

/-- Between finite bounds the point is NaN only if the distance overflows. -/
theorem infinite_width (hpoint : PointTo low high .nan) (hlow : low.Finite) (hhigh : high.Finite) :
    ∃ negative, high.sub low = .ok (.float (.infinite negative)) := by
  obtain @⟨drawn, scale, base, width, hunit, hwidth, hscale, hbase, hchosen⟩ := hpoint
  obtain ⟨l, hl⟩ := hlow
  obtain ⟨negative, rank, rfl, -⟩ :=
    Double.exists_finite_of_extent (Number.extent_toDouble hl hbase)
  obtain ⟨negative', rank', rfl, -⟩ := hunit.exists_finite
  have hproduct : Double.finite negative' rank' * scale = .nan := by
    by_contra hne
    exact Double.add_finite_ne_nan hne negative rank hchosen.symm
  cases scale with
  | finite negative'' rank'' => exact absurd hproduct (Double.ofRank_ne_nan _ _)
  | infinite negative'' =>
      cases width with
      | int n =>
          have hn := Number.extent_toDouble (Number.whole_int n) hscale
          exact absurd hn (Double.extent_infinite_ne _ _)
      | float value =>
          cases hscale
          exact ⟨negative'', hwidth⟩
  | nan =>
      cases width with
      | int n => cases Number.extent_toDouble (Number.whole_int n) hscale
      | float value =>
          cases hscale
          exact absurd rfl (Number.sub_ne_nan hhigh ⟨l, hl⟩ hwidth)

end PointTo

/-! ## Rounded points -/

/-- An upper bound that is too large for a floating-point number is so by far. -/
theorem large_of_toDouble {low high : Number} {base : Double} {l u : ℤ} {cause : Fault}
    (hlow : low.extent = .units l) (hhigh : high.extent = .units u) (hle : l ≤ u)
    (hbase : low.toDouble = .ok base) (herror : high.toDouble = .error cause) :
    unitsOfRank (Double.rankOfPower 100) ≤ u := by
  have hbound : rankBound ≤ magnitudeRank u := by
    cases high with
    | float value => cases herror
    | int n =>
        cases hhigh
        apply Double.ofInt?_eq_none.mp
        unfold Number.toDouble at herror
        dsimp only at herror
        split at herror
        next => cases herror
        next hnone => exact hnone
  have hsmaller {quantity : ℚ} (hfits : |(u : ℚ)| ≤ |quantity|) :
      rankBound ≤ magnitudeRank quantity :=
    hbound.trans (Double.magnitudeRank_mono hfits)
  by_contra hsmall
  rcases le_total 0 u with hpos | hneg
  · have hfits : |(u : ℚ)| ≤ |(unitsOfRank (Double.rankOfPower 100) : ℚ)| := by
      rw [Nat.abs_cast, ← Int.cast_abs, abs_of_nonneg hpos]
      exact_mod_cast (not_le.mp hsmall).le
    have hround := Double.roundsTo_unitsOfRank (Double.rankOfPower 100)
    rw [← Nat.abs_cast] at hround
    have hreached := hsmaller hfits
    rw [Double.magnitudeRank_eq hround] at hreached
    exact absurd hreached (Nat.not_le.mpr (Double.rankOfPower_lt (by decide)))
  · have hfits : |(u : ℚ)| ≤ |(l : ℚ)| := by
      rw [← Int.cast_abs, ← Int.cast_abs, abs_of_nonpos hneg, abs_of_nonpos (hle.trans hneg)]
      exact_mod_cast neg_le_neg hle
    exact absurd (hsmaller hfits) (Nat.not_le.mpr (Number.magnitudeRank_lt hbase hlow))

/-- A rounded point is not above such a bound, as it has 28 digits, two of them after the point. -/
theorem round_le_of_large {chosen result : Double} {c u : ℤ} (hc : chosen.extent = .units c)
    (hround : chosen.round 2 = .ok result) (hu : unitsOfRank (Double.rankOfPower 100) ≤ u) :
    (Extent.units u).lt result.extent = false := by
  obtain ⟨negative, rank, rfl, -⟩ := Double.exists_finite_of_extent hc
  have hnot := @Double.round_le_limit 2 2 28 negative rank result rfl rfl hround
  have hlimit : Decimal.toDouble ⟨false, 10 ^ 28, -2⟩ =
      Double.nearest false (unitsPerOne * 10 ^ 28) 100 := by decide +kernel
  obtain ⟨negative', rank', heq, hle⟩ :=
    @Double.fitsIn_nearest (unitsPerOne * 10 ^ 28) 100 100 false (by decide) (by decide)
      (by decide +kernel)
  rw [← Double.unitsOfRank_rankOfPower] at hle
  rw [hlimit, heq] at hnot
  have habs := Double.natAbs_signedUnits negative' rank'
  exact Extent.lt_of_units_le (show Double.signedUnits negative' rank' ≤ u by omega) hnot

/-- What becomes of two bounds in order in a number that is chosen between them. -/
structure RespectsBounds (low high : Number) (chosen : Double) : Prop where
  /-- The lower one is kept as far as its hundredths. -/
  lower : (Number.float chosen).lt (low.settled 2) = false
  /-- So is the upper one, unless the bounds are different integers of which the lower one is
  rounded on the way. -/
  upper : (∀ m n, low = .int m → high = .int n → m ≠ n → low.Exact) →
    (high.settled 2).lt (.float chosen) = false
  /-- Where they are equal, the chosen number is equal to what they are rounded to. -/
  equal : low.extent = high.extent → chosen.extent = (low.settled 2).extent
  lower_hundredths : low.InHundredths → (Number.float chosen).lt low = false
  upper_hundredths : (∀ m n, low = .int m → high = .int n → m ≠ n → low.Exact) →
    high.InHundredths → high.lt (.float chosen) = false

theorem PointTo.respectsBounds {low high : Number} {chosen result : Double}
    (hpoint : PointTo low high chosen) (hlow : low.Finite) (hhigh : high.Finite)
    (hordered : high.lt low = false) (hround : chosen.round 2 = .ok result)
    (hresult : result ≠ .nan) : RespectsBounds low high result := by
  obtain ⟨l, hl⟩ := hlow
  obtain ⟨u, hu⟩ := hhigh
  obtain ⟨-, hnan⟩ | ⟨⟨c, hc⟩, -⟩ := Double.units_of_round hround
  · exact absurd hnan hresult
  rw [Number.lt, hu, hl, Extent.lt, decide_eq_false_iff_not, not_lt] at hordered
  obtain ⟨hfrom, hto⟩ := hpoint.between hl hu hordered hc
  obtain ⟨base, hbase⟩ := hpoint.exists_toDouble
  have hx := Number.extent_toDouble hl hbase
  have hsettled := Double.settled_of_round hround
  have hlower : (Number.float result).lt (low.settled 2) = false := by
    rw [Number.settled, hbase, ← hsettled]
    exact Double.settled_not_lt hx hc hfrom 2
  have hupper (hexact : ∀ m n, low = .int m → high = .int n → m ≠ n → low.Exact) :
      (high.settled 2).lt (.float result) = false := by
    unfold Number.settled
    cases hdouble : high.toDouble with
    | ok top =>
        rw [← hsettled]
        exact Double.settled_not_lt hc (Number.extent_toDouble hu hdouble) (hto hexact) 2
    | error cause =>
        rw [Number.lt, hu]
        exact round_le_of_large hc hround (large_of_toDouble hl hu hordered hbase hdouble)
  refine ⟨hlower, hupper, ?_, ?_, ?_⟩
  · intro hequal
    rw [hl, hu] at hequal
    cases hequal
    have hto := hto fun m n hm hn hne => by
      subst hm hn
      cases hl
      exact absurd (Number.Whole.eq_of_int hu).symm hne
    have hsame : c = rounded l := le_antisymm hto hfrom
    rw [Number.settled, hbase, ← hsettled]
    exact Double.extent_settled_congr (hsame ▸ hc) hx 2
  · intro hhundredths
    rwa [Number.lt, hhundredths.extent_settled] at hlower
  · intro hexact hhundredths
    have hupper := hupper hexact
    rwa [Number.lt, hhundredths.extent_settled] at hupper

/-! ## Schemas with bounds -/

/-- A schema of a number, with the bounds that it declares for it. -/
structure DeclaresNumber (fields : Fields) (minimum maximum : Option Number) : Prop where
  plain : Plain true fields
  type : fields.get "type" = .str "number"
  minimum : fields.get "minimum" = (minimum.map .number).getD .null
  maximum : fields.get "maximum" = (maximum.map .number).getD .null

/-- Such a number is a rounded point between the declared bounds, a missing one being the standard
one. -/
theorem DeclaresNumber.ensures_expand {fields : Fields} {minimum maximum : Option Number}
    (hfields : DeclaresNumber fields minimum maximum) (child : Json → Run Json) :
    (expand Config.standard child (.number (fields.get "minimum") (fields.get "maximum"))).Ensures
      (fun value => ∃ chosen result, value = .float result ∧
        PointTo (minimum.getD (.int 1)) (maximum.getD (.int 100)) chosen ∧
        chosen.round 2 = .ok result)
      (fun _ => True) := by
  have hlower : (fields.get "minimum").orElse Config.standard.defaultMinimum =
      .number (minimum.getD (.int 1)) := by
    rw [hfields.minimum]
    cases minimum <;> rfl
  have hupper : (fields.get "maximum").orElse Config.standard.defaultMaximum =
      .number (maximum.getD (.int 100)) := by
    rw [hfields.maximum]
    cases maximum <;> rfl
  rw [expand, hlower, hupper]
  refine (ensures_pointTo _ _ _).map ?_
  rintro result ⟨low, high, chosen, count, hlow, hhigh, hcount, hpoint, hround⟩
  cases hlow
  cases hhigh
  cases hcount
  exact ⟨chosen, result, rfl, hpoint, hround⟩

/-- A number that is made of a schema with finite bounds in order, a missing one being the standard
one, respects them as far as their hundredths. It is NaN only where the distance between the bounds
is too large for a floating-point number. -/
theorem number_respects_bounds {fields : Fields} {minimum maximum : Option Number}
    (hfields : DeclaresNumber fields minimum maximum) (hminimum : ∀ low ∈ minimum, low.Finite)
    (hmaximum : ∀ high ∈ maximum, high.Finite)
    (hordered : (maximum.getD (.int 100)).lt (minimum.getD (.int 1)) = false) {root value : Json}
    {draws : Draws} {position final : Nat} (hunit : draws.InUnit)
    (hends : Ends Config.standard (.obj fields) root draws position (.value value final)) :
    ∃ result, value = .float result ∧
      (result = .nan → ∃ negative, (maximum.getD (.int 100)).sub (minimum.getD (.int 1)) =
        .ok (.float (.infinite negative))) ∧
      (result ≠ .nan →
        RespectsBounds (minimum.getD (.int 1)) (maximum.getD (.int 100)) result) := by
  have hshape : Shape.ofType fields =
      .ok (.number (fields.get "minimum") (fields.get "maximum")) := by
    simp [Shape.ofType, hfields.type]
  obtain ⟨chosen, result, rfl, hpoint, hround⟩ :=
    hends.of_ensures hunit hfields.plain hshape hfields.ensures_expand
  have hlow := Number.finite_getD hminimum 1
  have hhigh := Number.finite_getD hmaximum 100
  refine ⟨result, rfl, ?_, hpoint.respectsBounds hlow hhigh hordered hround⟩
  rintro rfl
  obtain ⟨rfl, -⟩ | ⟨-, hne⟩ := Double.units_of_round hround
  · exact hpoint.infinite_width hlow hhigh
  · exact absurd rfl hne

namespace Sample

/-- A number with two decimal places, `coefficient / 100`. -/
def hundredths (coefficient : Nat) : Number := .float (.ofDecimal false coefficient (-2))

/-- A number between a quarter and three quarters. -/
def middle : Fields :=
  [("type", .str "number"), ("minimum", .number (hundredths 25)),
    ("maximum", .number (hundredths 75))]

theorem middle_declaresNumber :
    DeclaresNumber middle (some (hundredths 25)) (some (hundredths 75)) where
  plain := ⟨fun _ => rfl, rfl, rfl⟩
  type := rfl
  minimum := rfl
  maximum := rfl

theorem finite_quarters : (hundredths 25).Finite ∧ (hundredths 75).Finite :=
  ⟨⟨(Double.unitsPerOne / 4 : Nat), by decide +kernel⟩,
    ⟨(3 * Double.unitsPerOne / 4 : Nat), by decide +kernel⟩⟩

theorem inHundredths_of_shortest {coefficient : Nat} {rank : Fin rankBound}
    (hread : Double.ofDecimal false coefficient (-2) = .finite false rank)
    (hexponent : -2 ≤ (Double.shortest false rank).exponent) :
    (hundredths coefficient).InHundredths := by
  unfold hundredths
  rw [hread]
  exact ⟨false, rank, rfl, rfl, hexponent⟩

theorem quarter_inHundredths : (hundredths 25).InHundredths :=
  @inHundredths_of_shortest _ ⟨1021 * significandSpan, by decide⟩ (by decide +kernel)
    (by decide +kernel)

theorem threeQuarters_inHundredths : (hundredths 75).InHundredths :=
  @inHundredths_of_shortest _ ⟨1022 * significandSpan + significandSpan / 2, by decide⟩
    (by decide +kernel) (by decide +kernel)

theorem ends_middle : Ends Config.standard (.obj middle) .null (Draws.constant .threeQuarters) 0
    (.value (.number (hundredths 63)) 1) :=
  @ends_of_exampleWithin _ _ _ _ _ 1 _ (by simp) (by decide +kernel)

end Sample

theorem number_respects_bounds_sample :
    (Sample.hundredths 63).lt (Sample.hundredths 25) = false ∧
      (Sample.hundredths 75).lt (Sample.hundredths 63) = false := by
  obtain ⟨hlow, hhigh⟩ := Sample.finite_quarters
  obtain ⟨result, heq, -, hrespects⟩ := number_respects_bounds Sample.middle_declaresNumber
    (fun _ hmem => Option.some.inj hmem ▸ hlow) (fun _ hmem => Option.some.inj hmem ▸ hhigh)
    (by decide +kernel) (Draws.inUnit_constant Double.threeQuarters_inUnit) Sample.ends_middle
  obtain rfl := Number.float.inj (Json.number.inj heq)
  have hkept := hrespects (by decide +kernel)
  refine ⟨hkept.lower_hundredths Sample.quarter_inHundredths,
    hkept.upper_hundredths ?_ Sample.threeQuarters_inHundredths⟩
  intro m n hlow
  cases hlow

namespace Sample

/-- A schema of a number with some bounds. -/
def numberOf (bounds : Fields) : Json := .obj (("type", .str "number") :: bounds)

/-- The value of a schema without references on a supply of one repeated draw. -/
def valueOn (drawn : Double) (schema : Json) : Outcome Json :=
  exampleWithin 1 Config.standard schema .null (Draws.constant drawn) 0

end Sample

/-- Two bounds of one thousandth are rounded to zero; two of the least integer that is rounded as a
floating-point number, to the integer before; between two integers of which the lower one is
rounded up, a number above the upper one is made. A lower bound above the standard upper one is
missed altogether, where the distance of the bounds overflows there is no number at all, and an
enumeration is chosen from whatever the bounds are. -/
theorem number_bounds_missed :
    Sample.valueOn .zero (Sample.numberOf [("minimum", .float (.ofDecimal false 1 (-3))),
        ("maximum", .float (.ofDecimal false 1 (-3)))]) = .value (.float .zero) 1 ∧
      (Number.float .zero).lt (.float (.ofDecimal false 1 (-3))) = true ∧
    Sample.valueOn .zero (Sample.numberOf [("minimum", .int 9007199254740993),
        ("maximum", .int 9007199254740993)]) =
          .value (.float (.ofDecimal false 9007199254740992 0)) 1 ∧
      (Number.float (.ofDecimal false 9007199254740992 0)).lt (.int 9007199254740993) = true ∧
    Sample.valueOn .threeQuarters (Sample.numberOf [("minimum", .int 9007199254740995),
        ("maximum", .int 9007199254740997)]) =
          .value (.float (.ofDecimal false 9007199254740998 0)) 1 ∧
      (Number.int 9007199254740997).lt (.float (.ofDecimal false 9007199254740998 0)) = true ∧
    Sample.valueOn .half (Sample.numberOf [("minimum", .int 200)]) =
        .value (.float (.ofDecimal false 150 0)) 1 ∧
      (Number.float (.ofDecimal false 150 0)).lt (.int 200) = true ∧
    Sample.valueOn .zero (Sample.numberOf [("minimum", .float (.ofDecimal true 17 307)),
        ("maximum", .float (.ofDecimal false 17 307))]) = .value (.float .nan) 1 ∧
    Sample.valueOn .zero (Sample.numberOf [("enum", .arr [.int 5]), ("minimum", .int 10)]) =
        .value (.int 5) 1 ∧ (Number.int 5).lt (.int 10) = true := by
  refine ⟨?_, ?_, ?_, ?_, ?_, ?_, ?_, ?_, ?_, ?_, ?_⟩ <;> decide +kernel

end Exemplar
