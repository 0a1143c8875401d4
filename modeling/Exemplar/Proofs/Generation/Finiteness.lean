import Exemplar.Proofs.Double.Headroom
import Exemplar.Proofs.Generation.Origins
import Exemplar.Proofs.Generation.Points
import Exemplar.Proofs.Json.Words

/-!
# Finite examples

From finite bounds an integer is chosen finite, whichever way round they are: a distance
that overflows has no part, and any other part is added to the lower bound without an
overflow. A point overflows with the distance of its bounds. It then fails when it is
rounded, unless the draw is zero: zero times an infinity is NaN, which rounding lets
through. So an example of finite numbers is finite but for NaN in such a place.
-/

namespace Exemplar

open Run
open Json (PartOf)
open Double (headroom rounded rounded_le_one rounded_mono rounded_nonneg unitsOfRank unitsPerOne
  unitsPerOne_pos)

/-! ## Parts -/

/-- The part of a number that is no farther from zero than the number after a rounded integer is no
farther from it than the integer, also after rounding. -/
theorem abs_partOf_le {drawn : Double} {count : Number} {n : Nat} {c part : Int}
    (hunit : drawn.InUnit) (hlarge : 2 ^ 54 ≤ n) (hcount : count.extent = .units c)
    (hle : |c| ≤ rounded (rounded (n * unitsPerOne : ℤ) + 1 * unitsPerOne : ℤ))
    (hpart : partOf drawn count = .ok part) :
    |rounded (part * unitsPerOne : ℤ)| ≤ n * unitsPerOne := by
  obtain ⟨scale, hdouble, hfloor⟩ := partOf_eq_ok.mp hpart
  obtain ⟨units, hproduct, rfl⟩ := Double.floor_eq_ok.mp hfloor
  obtain ⟨d, hd, -, -⟩ := id hunit
  have hscale := Number.extent_toDouble hcount hdouble
  obtain ⟨next, hnext, ⟨k, hk⟩, hbelow, hrounded⟩ := Double.exists_whole_before hlarge
  have habs {a : ℤ} {rank : Nat} (ha : |a| ≤ unitsOfRank rank) :
      |rounded a| ≤ unitsOfRank rank := by
    have hle := Double.abs_rounded_le ha
    rwa [Int.cast_natCast, Double.rounded_natCast rfl] at hle
  have hunits := Double.abs_rounded_mul_le hunit hd hnext (habs (hrounded ▸ hle))
  rw [← Double.extent_mul hd hscale hproduct, hk] at hunits
  have hpos : (0 : ℤ) < unitsPerOne := by exact_mod_cast unitsPerOne_pos
  -- the integer part of what lies between two integers does so too
  have hpart : |units / unitsPerOne| ≤ k := by
    rw [abs_le] at hunits ⊢
    push_cast at hunits
    exact ⟨(Int.le_ediv_iff_mul_le hpos).mpr (by linarith),
      Int.ediv_le_of_le_mul hpos (by linarith)⟩
  have hwhole : |units / unitsPerOne * unitsPerOne| ≤ unitsOfRank (next - 1) := by
    rw [abs_mul, Nat.abs_cast, hk, Nat.mul_comm]
    exact_mod_cast Int.mul_le_mul_of_nonneg_right hpart hpos.le
  exact (habs hwhole).trans (by exact_mod_cast hbelow)

/-- The part of a number that is at most one is at most one. -/
theorem partOf_le_one {drawn : Double} {count : Number} {c part : Int} (hunit : drawn.InUnit)
    (hcount : count.extent = .units c) (hle : c ≤ unitsPerOne)
    (hpart : partOf drawn count = .ok part) : part ≤ 1 := by
  obtain ⟨scale, hdouble, hfloor⟩ := partOf_eq_ok.mp hpart
  obtain ⟨units, hproduct, rfl⟩ := Double.floor_eq_ok.mp hfloor
  obtain ⟨d, hd, hnonneg, hbelow⟩ := hunit
  have hscale := Number.extent_toDouble hcount hdouble
  have hone := @Double.rounded_natCast _ _ Double.unitsOfRank_one
  have hpos : (0 : ℤ) < unitsPerOne := by exact_mod_cast unitsPerOne_pos
  have hfactors : d * rounded c ≤ unitsPerOne * unitsPerOne := by
    calc d * rounded c ≤ d * unitsPerOne :=
          Int.mul_le_mul_of_nonneg_left (rounded_le_one hle) hnonneg
      _ ≤ unitsPerOne * unitsPerOne := Int.mul_le_mul_of_nonneg_right hbelow.le hpos.le
  have hunits : units ≤ unitsPerOne := by
    rw [Double.extent_mul hd hscale hproduct]
    conv_rhs => rw [← hone]
    apply rounded_mono
    rw [div_le_iff₀ (by exact_mod_cast hpos)]
    exact_mod_cast hfactors
  exact Int.ediv_le_of_le_mul hpos (by rwa [Int.one_mul])

/-! ## Steps -/

/-- The numbers on the way from a floating-point lower bound to a chosen one are finite, as only
finite numbers have an integer part. -/
theorem SpreadTo.exists_steps {value : Double} {high chosen : Number} {l u : ℤ}
    (hchosen : SpreadTo (.float value) high chosen) (hlow : (Number.float value).extent = .units l)
    (hhigh : high.extent = .units u) :
    ∃ (drawn x top : Double) (count : Number) (part : ℤ), drawn.InUnit ∧
      top.extent = .units (rounded u) ∧
      count.extent = .units (rounded (rounded (rounded u - l : ℤ) + 1 * unitsPerOne : ℤ)) ∧
      partOf drawn count = .ok part ∧ x.extent = .units (rounded (part * unitsPerOne : ℤ)) ∧
      chosen = .float (x + value) := by
  obtain @⟨drawn, width, count, part, hunit, hwidth, hcount, hpart, hchosen⟩ := hchosen
  obtain ⟨_, _, -, ⟨⟩, -⟩ | ⟨top, _, htop, -, rfl⟩ := Number.sub_eq_ok hwidth
  obtain ⟨x, hx, hsum⟩ : ∃ x, (Number.int part).toDouble = .ok x ∧ chosen = .float (x + value) := by
    obtain ⟨x, hx, hsum⟩ := bind_eq_ok.mp hchosen
    cases hsum
    exact ⟨x, hx, rfl⟩
  obtain ⟨scale, hdouble, hfloor⟩ := partOf_eq_ok.mp hpart
  obtain ⟨units, hproduct, -⟩ := Double.floor_eq_ok.mp hfloor
  obtain ⟨-, s, hs⟩ := Double.exists_units_of_mul hproduct
  obtain ⟨c, hc⟩ := Number.finite_of_toDouble hdouble hs
  obtain ⟨w, hw⟩ : (Number.float _).Finite := by
    obtain ⟨_, ⟨⟩, hsum⟩ := bind_eq_ok.mp hcount
    obtain ⟨one, -, ⟨⟩⟩ := bind_eq_ok.mp hsum
    exact (Double.exists_units_of_add hc).1
  obtain ⟨-, ⟨_, ⟨⟩⟩, -⟩ | ⟨-, rfl⟩ := Number.extent_sub hhigh hlow hwidth hw
  obtain ⟨⟨_, ⟨⟩⟩, -⟩ | ⟨-, rfl⟩ := Number.extent_add hw (Number.whole_int 1) hcount hc
  have hone : rounded (1 * unitsPerOne : ℤ) = 1 * unitsPerOne := Double.rounded_whole (by decide)
  rw [@Double.rounded_eq_self value l hlow, hone, Double.rounded_rounded] at hc
  exact ⟨drawn, x, top, count, part, hunit, Number.extent_toDouble hhigh htop, hc, hpart,
    Number.extent_toDouble (Number.whole_int part) hx, hsum⟩

/-- What a part adds to the lower bound lies between zero and the distance, or near enough. -/
theorem rounded_partOf_near {drawn : Double} {count : Number} {distance part : ℤ}
    (hunit : drawn.InUnit)
    (hcount : count.extent = .units (rounded (rounded distance + 1 * unitsPerOne : ℤ)))
    (hpart : partOf drawn count = .ok part) :
    min distance 0 - headroom ≤ rounded (part * unitsPerOne : ℤ) ∧
      rounded (part * unitsPerOne : ℤ) ≤ max distance 0 + headroom := by
  obtain ⟨n, hn, hle, hnear⟩ := Double.exists_integer_near distance
  have hadded := abs_le.mp (abs_partOf_le hunit hn hcount (Double.abs_rounded_succ_le hle) hpart)
  have hpos : (0 : ℤ) ≤ unitsPerOne := Int.natCast_nonneg _
  rcases le_total 0 distance with hordered | hdisordered
  · have hpart : 0 ≤ part := by
      refine partOf_nonneg hunit hcount (rounded_nonneg ?_) hpart
      have hwidth : 0 ≤ rounded distance := rounded_nonneg (by exact_mod_cast hordered)
      exact_mod_cast add_nonneg hwidth (by omega)
    have hfrom : 0 ≤ rounded (part * unitsPerOne : ℤ) :=
      rounded_nonneg (by exact_mod_cast mul_nonneg hpart hpos)
    rw [abs_of_nonneg hordered] at hnear
    omega
  · have hwidth : rounded distance ≤ 0 := by
      rw [← Double.rounded_zero]
      exact rounded_mono (by exact_mod_cast hdisordered)
    have hpart := partOf_le_one hunit hcount (rounded_le_one (by omega)) hpart
    have hto : rounded (part * unitsPerOne : ℤ) ≤ unitsPerOne :=
      rounded_le_one (by linarith [Int.mul_le_mul_of_nonneg_right hpart hpos])
    have hroom : (unitsPerOne : ℤ) ≤ headroom := Int.ofNat_le.mpr Double.unitsPerOne_le_headroom
    rw [abs_of_nonpos hdisordered] at hnear
    omega

/-- What is chosen between finite bounds is finite, as a part adds to the lower bound hardly more
than the distance. -/
theorem SpreadTo.finite_of_bounds {low high chosen : Number} (hchosen : SpreadTo low high chosen)
    (hlow : low.Finite) (hhigh : high.Finite) : chosen.Finite := by
  cases low with
  | int m =>
      obtain ⟨-, -, -, -, hsum⟩ := hchosen
      cases hsum
      exact ⟨_, rfl⟩
  | float value =>
      obtain ⟨l, hl⟩ := hlow
      obtain ⟨u, hu⟩ := hhigh
      obtain ⟨drawn, x, top, count, part, hunit, htop, hcount, hpart, hx, rfl⟩ :=
        hchosen.exists_steps hl hu
      obtain ⟨hfrom, hto⟩ := rounded_partOf_near hunit hcount hpart
      have hl' := abs_le.mp (Double.abs_le_greatestUnits hl)
      have hu' := abs_le.mp (Double.abs_le_greatestUnits htop)
      apply Double.exists_units_add hx hl
      rw [abs_le]
      omega

/-! ## Points -/

/-- A finite number rounded to two places is finite, as its digits are limited. -/
theorem finite_of_round {x result : Double} {c : ℤ} (hx : x.extent = .units c)
    (hround : x.round 2 = .ok result) : (Number.float result).Finite := by
  obtain ⟨negative, rank, rfl, -⟩ := Double.exists_finite_of_extent hx
  rw [@Double.round_finite 2 2 rfl] at hround
  obtain ⟨coefficient, hcoefficient, rfl⟩ := map_eq_ok.mp hround
  obtain ⟨hroom, hcoefficient⟩ := (@Decimal.coefficientAt_eq_ok _ 2 28 _ rfl).mp hcoefficient
  have hlt : coefficient < 10 ^ 28 := by
    rw [hcoefficient]
    exact (Nat.floor_lt (add_nonneg (Decimal.amount_nonneg _ _) (by norm_num))).mpr hroom
  have hfits : (Double.nearest negative (unitsPerOne * (coefficient * 1)) 100).FitsIn 94 := by
    apply Double.fitsIn_nearest negative (by decide) (by decide)
    generalize unitsPerOne = one
    calc one * (coefficient * 1) ≤ one * (2 ^ 94 * 100) := by
          apply Nat.mul_le_mul_left
          omega
      _ = 2 ^ 94 * one * 100 := by ring
  rw [Decimal.toDouble, Double.ofDecimal_eq]
  exact hfits.exists_extent

/-- The distance between two bounds is too large for a finite number. -/
def FarApart (low high : Number) : Prop :=
  ∃ negative, high.sub low = .ok (.float (.infinite negative))

section Points

variable {lower upper : Json} {low high : Number} {draws : Draws} {start : Nat}
  (hlower : lower.asNumber = .ok low) (hupper : upper.asNumber = .ok high) (hlow : low.Finite)
  (hunit : (draws start).InUnit)

include hlower hupper hlow hunit

/-- Between bounds that are too far apart there is no number: a draw of zero makes NaN, and every
other one fails. -/
theorem point_of_farApart (hfar : FarApart low high) :
    point lower upper Config.standard.numberPrecision draws start =
      if (draws start).isZero then .value .nan (start + 1)
      else .failure (.fault .invalidDecimal) (start + 1) := by
  obtain ⟨negative, hwidth⟩ := hfar
  obtain ⟨_, _, -, -, ⟨⟩⟩ | ⟨-, base, -, hbase, -⟩ := Number.sub_eq_ok hwidth
  obtain ⟨l, hl⟩ := hlow
  obtain ⟨d, hd, -⟩ := hunit
  obtain ⟨negative', rank, rfl, -⟩ :=
    Double.exists_finite_of_extent (Number.extent_toDouble hl hbase)
  have hsum (offset : Double) : Number.add (.float offset) low =
      .ok (.float (offset + .finite negative' rank)) := by
    have hadd : Number.add (.float offset) low =
        low.toDouble >>= fun y => .ok (.float (offset + y)) := by cases low <;> rfl
    rw [hadd, hbase]
    rfl
  have hpoint : point lower upper Config.standard.numberPrecision draws start =
      evaluate ((draws start * .infinite negative + .finite negative' rank).round 2) draws
        (start + 1) := by
    simp only [point, hupper, hlower, hwidth, hsum, bind, Except.bind]
    rfl
  rw [hpoint]
  obtain ⟨hzero, hproduct⟩ | ⟨hzero, negative'', hproduct⟩ := Double.mul_infinite hd negative
  · rw [hproduct, if_pos hzero]
    rfl
  · rw [hproduct, hzero]
    rfl

/-- Between finite bounds a point is finite, unless they are too far apart and the draw is zero. -/
theorem finite_or_farApart (hhigh : high.Finite) {result : Double} {final : Nat}
    (hrun : point lower upper Config.standard.numberPrecision draws start = .value result final) :
    (Number.float result).Finite ∨
      result = .nan ∧ FarApart low high ∧ (draws start).isZero = true := by
  obtain ⟨low', high', width, scale, base, count, hlow', hhigh', hwidth, hscale, hbase, hcount,
    hround⟩ := point_eq_value hrun
  cases hlower.symm.trans hlow'
  cases hupper.symm.trans hhigh'
  cases hcount
  obtain ⟨hnan, rfl⟩ | ⟨⟨c, hc⟩, -⟩ := Double.units_of_round hround
  · obtain ⟨negative, hfar⟩ :=
      (PointTo.steps hunit hwidth hscale hbase hnan.symm).infinite_width hlow hhigh
    refine .inr ⟨rfl, ⟨negative, hfar⟩, ?_⟩
    by_contra hnonzero
    rw [point_of_farApart hlower hupper hlow hunit ⟨negative, hfar⟩, if_neg hnonzero] at hrun
    cases hrun
  · exact .inl (finite_of_round hc hround)

end Points

/-! ## Examples -/

/-- An object declares a number between bounds, given or standard, that are too far apart. -/
def Fields.DeclaresFarApart (fields : Fields) : Prop :=
  fields.get "type" = .str "number" ∧ ∃ low high,
    ((fields.get "minimum").orElse Config.standard.defaultMinimum).asNumber = .ok low ∧
    ((fields.get "maximum").orElse Config.standard.defaultMaximum).asNumber = .ok high ∧
    FarApart low high

/-- Between two places a draw of zero met bounds of an object that are too far apart. -/
def ZeroMetFarApart (stated : Json → Prop) (draws : Draws) (first last : Nat) : Prop :=
  ∃ fields place, stated (.obj fields) ∧ Fields.DeclaresFarApart fields ∧ first ≤ place ∧
    place < last ∧ (draws place).isZero = true

theorem NumberFrom.finite_or_nan {stated : Json → Prop} {draws : Draws} {first last : Nat}
    {number : Number} (hnumber : NumberFrom Config.standard stated draws first last number)
    (hstated : ∀ part, stated part → part.Finite) (hunit : draws.InUnit) :
    number.Finite ∨ number = .float .nan ∧ ZeroMetFarApart stated draws first last := by
  cases hnumber with
  | stated hpart => exact .inl (Json.finite_number.mp (hstated _ hpart))
  | @integer fields number place hfields _ _ _ hchosen =>
      have hspread := ensures_spreadTo
        ((fields.get "minimum").orElse Config.standard.defaultMinimum)
        ((fields.get "maximum").orElse Config.standard.defaultMaximum) draws place hunit
      rw [hchosen] at hspread
      obtain ⟨low, high, hlow, hhigh, hspread⟩ := hspread
      have hfinite := hstated _ hfields
      exact .inl (hspread.finite_of_bounds ((hfinite.get "minimum").of_asNumber 1 hlow)
        ((hfinite.get "maximum").of_asNumber 100 hhigh))
  | @number fields result place hfields htype hfirst hlast hchosen =>
      obtain ⟨low, high, -, -, -, -, hlow, hhigh, -⟩ := point_eq_value hchosen
      have hfinite := hstated _ hfields
      obtain hresult | ⟨rfl, hfar, hzero⟩ := finite_or_farApart hlow hhigh
        ((hfinite.get "minimum").of_asNumber 1 hlow) (hunit place)
        ((hfinite.get "maximum").of_asNumber 100 hhigh) hchosen
      · exact .inl hresult
      · exact .inr ⟨rfl, fields, place, hfields, ⟨htype, low, high, hlow, hhigh, hfar⟩, hfirst,
          hlast, hzero⟩

theorem StatedIn.finite {schema root part : Json} (hstated : StatedIn schema root part)
    (hschema : schema.Finite) (hroot : root.Finite) : part.Finite := by
  intro number hpart
  rcases hstated with hin | hin
  · exact hschema number (hpart.trans hin)
  · exact hroot number (hpart.trans hin)

/-- What is made of a schema and a root with finite numbers holds finite numbers, except for NaN
where a draw of zero met bounds that are too far apart. So its document never shows an infinity
outside of quoted texts, and NaN only then. -/
theorem finite_but_for_far_bounds {schema root value : Json} {draws : Draws} {position final : Nat}
    (hschema : schema.Finite) (hroot : root.Finite) (hunit : draws.InUnit)
    (hends : Ends Config.standard schema root draws position (.value value final)) :
    (∀ number, PartOf (.number number) value → number.Finite ∨ number = .float .nan) ∧
      (¬value.Finite → ZeroMetFarApart (StatedIn schema root) draws position final) ∧
      ∀ indent text, (∀ unit, indent ≠ .str unit) → value.document indent = .ok text →
        ¬"Infinity".toList <:+: Json.unquoted .outside text.toList ∧
          ("NaN".toList <:+: Json.unquoted .outside text.toList ↔ ¬value.Finite) := by
  have hplaceholder (number : Number) :
      ¬PartOf (.number number) Config.standard.patternPlaceholder := by
    rintro ⟨⟩
  have hnumbers (number : Number) (hpart : PartOf (.number number) value) :=
    (numberFrom_of_ends hplaceholder hends hpart).finite_or_nan
      (fun part hstated => hstated.finite hschema hroot) hunit
  have hnan : PartOf (.number (.float .nan)) value ↔ ¬value.Finite := by
    constructor
    · intro hpart hfinite
      obtain ⟨_, ⟨⟩⟩ := hfinite _ hpart
    · intro hnot
      by_contra hnone
      refine hnot fun number hpart => (hnumbers number hpart).resolve_right ?_
      rintro ⟨rfl, -⟩
      exact hnone hpart
  refine ⟨fun number hpart => (hnumbers number hpart).imp_right And.left, fun hnot => ?_, ?_⟩
  · obtain hfinite | ⟨-, hmet⟩ := hnumbers _ (hnan.mpr hnot)
    · obtain ⟨_, ⟨⟩⟩ := hfinite
    · exact hmet
  · intro indent text hindent hdocument
    obtain ⟨hshows, hinfinity⟩ := Json.document_words hindent hdocument
    refine ⟨fun hshown => ?_, hshows.trans hnan⟩
    obtain ⟨negative, hpart⟩ := hinfinity.mp hshown
    obtain ⟨_, hfinite⟩ | ⟨heq, -⟩ := hnumbers _ hpart
    · exact Double.extent_infinite_ne _ _ hfinite
    · cases heq

namespace Sample

theorem numberOf_finite {low high : Number} (hlow : low.Finite) (hhigh : high.Finite) :
    (numberOf [("minimum", .number low), ("maximum", .number high)]).Finite := by
  apply Json.finite_obj.mpr
  intro field hmem
  simp only [List.mem_cons, List.not_mem_nil, or_false] at hmem
  rcases hmem with rfl | rfl | rfl
  · exact nofun
  · exact Json.finite_number.mpr hlow
  · exact Json.finite_number.mpr hhigh

/-- Ten to the power 308, with a sign. -/
def distant (negative : Bool) : Number := .float (.ofDecimal negative 1 308)

theorem distant_finite (negative : Bool) : (distant negative).Finite := by
  have heq : Double.ofDecimal negative 1 308 =
      .finite negative ⟨9214871658872686752, by decide⟩ := by
    cases negative <;> decide +kernel
  unfold distant
  rw [heq]
  exact ⟨_, rfl⟩

end Sample

/-- A number between a quarter and three quarters is finite, and so its document shows no word. -/
theorem finite_but_for_far_bounds_sample :
    (Json.number (Sample.hundredths 63)).Finite ∧
      ¬"NaN".toList <:+: Json.unquoted .outside "0.63\n".toList := by
  obtain ⟨hlow, hhigh⟩ := Sample.finite_quarters
  have hroot : Json.null.Finite := nofun
  obtain ⟨-, hmet, hdocument⟩ := finite_but_for_far_bounds (Sample.numberOf_finite hlow hhigh)
    hroot (Draws.inUnit_constant Double.threeQuarters_inUnit) Sample.ends_middle
  have hfinite : (Json.number (Sample.hundredths 63)).Finite := by
    by_contra hnot
    obtain ⟨_, _, -, -, -, -, hzero⟩ := hmet hnot
    have hdrawn : Double.threeQuarters.isZero = false := by decide +kernel
    rw [Draws.constant, hdrawn] at hzero
    cases hzero
  obtain ⟨-, hshows⟩ := hdocument (.int 2) "0.63\n" nofun (by decide +kernel)
  exact ⟨hfinite, fun hshown => hshows.mp hshown hfinite⟩

/-- Between ten to the power 308 and its opposite a draw of zero makes NaN, which the document then
shows; another draw makes nothing. -/
theorem far_bounds_show_nan :
    let schema := Sample.numberOf [("minimum", .number (Sample.distant true)),
      ("maximum", .number (Sample.distant false))]
    schema.Finite ∧ (Draws.constant .zero).InUnit ∧
      Sample.valueOn .zero schema = .value (.float .nan) 1 ∧
      Sample.valueOn .half schema = .failure (.fault .invalidDecimal) 1 ∧
      ¬(Json.float .nan).Finite ∧ (Json.float .nan).document (.int 2) = .ok "NaN\n" ∧
      "NaN".toList <:+: Json.unquoted .outside "NaN\n".toList := by
  refine ⟨Sample.numberOf_finite (Sample.distant_finite true) (Sample.distant_finite false),
    Draws.inUnit_constant Double.zero_inUnit, by decide +kernel, by decide +kernel,
    fun hfinite => ?_, by decide +kernel, by decide +kernel⟩
  obtain ⟨_, ⟨⟩⟩ := hfinite _ .self

end Exemplar
