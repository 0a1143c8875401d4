import Exemplar.Proofs.Generation.Completeness
import Exemplar.Proofs.Generation.DepthLimit
import Exemplar.Proofs.Generation.Safety

/-!
# Declared bounds

The bound that a schema leaves open is a fixed one, whatever the other bound is. Where
the two are integers in order, lengths and integers keep to them, also where the
arithmetic between them is that of floating-point numbers and rounds at every step, as
long as the bounds themselves are not rounded. Where they are not in order, what is
chosen lies on the wrong side of the upper bound every time, and of the lower bound all
but once. A fractional lower bound is kept too, but what is chosen from it on is no
integer, and it may lie above the upper bound.
-/

namespace Exemplar

open Run
open Double (rounded rounded_mono rounded_nonneg unitsOfRank unitsPerOne unitsPerOne_pos)

/-! ## Parts of numbers -/

/-- The part of a number that a draw falls into is not negative if the number is not. -/
theorem partOf_nonneg {drawn : Double} {count : Number} {n part : Int} (hunit : drawn.InUnit)
    (hcount : count.extent = .units n) (hn : 0 ≤ n) (hpart : partOf drawn count = .ok part) :
    0 ≤ part := by
  obtain ⟨scale, hdouble, hfloor⟩ := partOf_eq_ok.mp hpart
  obtain ⟨units, hproduct, rfl⟩ := Double.floor_eq_ok.mp hfloor
  obtain ⟨drawnUnits, hdrawn, hlow, -⟩ := hunit
  have hscaled := Double.extent_mul hdrawn (Number.extent_toDouble hcount hdouble) hproduct
  have hpos : (0 : ℤ) ≤ unitsPerOne := Int.natCast_nonneg _
  refine Int.ediv_nonneg ?_ hpos
  rw [hscaled]
  apply rounded_nonneg
  have hrounded : 0 ≤ rounded n := rounded_nonneg (by exact_mod_cast hn)
  exact div_nonneg (by exact_mod_cast mul_nonneg hlow hrounded) (Nat.cast_nonneg _)

/-- The part of a number with an integer value is an index below that integer, as it is for the
integer itself. -/
theorem partOf_whole {drawn : Double} {count : Number} {n part : Int} (hunit : drawn.InUnit)
    (hcount : count.Whole n) (hpos : 0 < n) (hsmall : n.natAbs ≤ 2 * significandSpan)
    (hpart : partOf drawn count = .ok part) : 0 ≤ part ∧ part < n := by
  obtain ⟨scale, hdouble, hfloor⟩ := partOf_eq_ok.mp hpart
  obtain ⟨scale', hscale', -⟩ := @Double.fitsIn_ofInt n 53 hsmall (by decide)
  have hunits := Double.extent_ofInt hscale'
  have hdouble := Number.extent_toDouble hcount hdouble
  rw [Double.rounded_whole hsmall] at hunits hdouble
  have hne : n * (unitsPerOne : ℤ) ≠ 0 :=
    mul_ne_zero hpos.ne' (by exact_mod_cast unitsPerOne_pos.ne')
  obtain ⟨index, hindex, hlow, hhigh⟩ := Double.floor_mul_ofInt hunit hpos hscale'
  rw [← Double.eq_of_extent hne hdouble hunits, hfloor] at hindex
  cases hindex
  exact ⟨hlow, hhigh⟩

/-- The part of a magnitude is at most the magnitude before it, also after rounding. -/
theorem rounded_partOf_le {drawn : Double} {count : Number} {rank : Nat} {part : Int}
    (hunit : drawn.InUnit) (hlarge : significandSpan < rank)
    (hcount : count.extent = .units (unitsOfRank rank)) (hpart : partOf drawn count = .ok part) :
    part * unitsPerOne ≤ (unitsOfRank (rank - 1) : ℤ) ∧
      rounded (part * unitsPerOne : ℤ) ≤ unitsOfRank (rank - 1) := by
  obtain ⟨scale, hdouble, hfloor⟩ := partOf_eq_ok.mp hpart
  obtain ⟨units, hproduct, rfl⟩ := Double.floor_eq_ok.mp hfloor
  have hscale := Number.extent_toDouble hcount hdouble
  rw [Int.cast_natCast, Double.rounded_natCast rfl] at hscale
  have hbelow := Double.extent_mul_le hunit hlarge hscale hproduct
  have hfloor : units / unitsPerOne * unitsPerOne ≤ units :=
    Int.ediv_mul_le units (by exact_mod_cast unitsPerOne_pos.ne')
  have hround : rounded (units / unitsPerOne * unitsPerOne : ℤ) ≤ rounded units :=
    rounded_mono (by exact_mod_cast hfloor)
  rw [Double.rounded_eq_self hproduct] at hround
  exact ⟨hfloor.trans hbelow, hround.trans hbelow⟩

/-- The part of the number that comes one after a rounded integer is at most that integer, also
after rounding. -/
theorem partOf_succ_le {drawn : Double} {count : Number} {d : Nat} {part : Int}
    (hunit : drawn.InUnit)
    (hcount : count.extent =
      .units (rounded (rounded (d * unitsPerOne : ℤ) + 1 * unitsPerOne : ℤ)))
    (hpart : partOf drawn count = .ok part) :
    part ≤ d ∧ rounded (part * unitsPerOne : ℤ) ≤ d * unitsPerOne := by
  rcases Nat.lt_or_ge d (2 * significandSpan) with hsmall | hlarge
  · rw [Double.rounded_whole (by omega), ← add_mul, Double.rounded_whole (by omega)] at hcount
    obtain ⟨hfrom, hto⟩ := partOf_whole hunit hcount (by omega) (by omega) hpart
    have hle : part ≤ d := by omega
    rw [Double.rounded_whole (by omega)]
    exact ⟨hle, Int.mul_le_mul_of_nonneg_right hle (Int.natCast_nonneg _)⟩
  · obtain ⟨next, hnext, hbelow, hrounded⟩ :=
      Double.exists_rounded_succ (show 2 ^ 53 ≤ d from hlarge)
    obtain ⟨hle, hround⟩ := rounded_partOf_le hunit hnext (hrounded ▸ hcount) hpart
    have hbelow : (unitsOfRank (next - 1) : ℤ) ≤ d * unitsPerOne := by exact_mod_cast hbelow
    exact ⟨Int.le_of_mul_le_mul_right (hle.trans hbelow) (by exact_mod_cast unitsPerOne_pos),
      hround.trans hbelow⟩

/-! ## Numbers chosen between bounds -/

namespace SpreadTo

variable {low high chosen : Number}

/-- The way from two bounds to a number chosen between them where all numbers on it are finite. -/
inductive Finite (low high chosen : Number) : Prop
  | steps {drawn : Double} {width count : Number} {part w n c : Int} (hunit : drawn.InUnit)
      (hwidth : high.sub low = .ok width) (hw : width.extent = .units w)
      (hcount : width.add (.int 1) = .ok count) (hn : count.extent = .units n)
      (hpart : partOf drawn count = .ok part) (hchosen : (Number.int part).add low = .ok chosen)
      (hc : chosen.extent = .units c)

/-- Between bounds of bounded magnitude they are. -/
theorem finite {exponent : Nat} (hchosen : SpreadTo low high chosen) (hlow : low.FitsIn exponent)
    (hhigh : high.FitsIn exponent) (hexponent : exponent + 3 < 1024) : Finite low high chosen := by
  obtain @⟨drawn, width, count, part, hunit, hwidth, hcount, hpart, hchosen⟩ := hchosen
  have hwidthFits : width.FitsIn (exponent + 1) := by
    obtain ⟨_, heq, hfits⟩ := hhigh.sub hlow (by omega)
    exact Except.ok.inj (hwidth.symm.trans heq) ▸ hfits
  have hcountFits : count.FitsIn (exponent + 2) := by
    have hone : (Number.int 1).FitsIn (exponent + 1) := Nat.one_le_two_pow
    obtain ⟨_, heq, hfits⟩ := hwidthFits.add hone (by omega)
    exact Except.ok.inj (hcount.symm.trans heq) ▸ hfits
  have hchosenFits : chosen.FitsIn (exponent + 3) := by
    obtain ⟨_, heq, hbound⟩ := partOf_fitsIn hunit hcountFits (by omega)
    cases hpart.symm.trans heq
    obtain ⟨_, heq, hfits⟩ :=
      Number.FitsIn.add (a := .int part) hbound (hlow.mono (by omega)) (by omega)
    exact Except.ok.inj (hchosen.symm.trans heq) ▸ hfits
  obtain ⟨w, hw⟩ := hwidthFits.exists_extent
  obtain ⟨n, hn⟩ := hcountFits.exists_extent
  obtain ⟨c, hc⟩ := hchosenFits.exists_extent
  exact .steps hunit hwidth hw hcount hn hpart hchosen hc

namespace Finite

variable (hchosen : Finite low high chosen)

include hchosen

/-- The lower one of two bounds in order is kept, be it fractional or not. -/
theorem low_le {l u : Int} (hlow : low.extent = .units l) (hhigh : high.extent = .units u)
    (hle : l ≤ u) : ∃ c, chosen.extent = .units c ∧ l ≤ c := by
  obtain @⟨drawn, width, count, part, w, n, c, hunit, hwidth, hw, hcount, hn, hpart, hchosen, hc⟩ :=
    hchosen
  have hwidth : 0 ≤ w := Number.extent_sub_nonneg hhigh hlow hle hwidth hw
  have hcount : 0 ≤ n :=
    Number.extent_add_nonneg hw (Number.whole_int 1) hwidth (by omega) hcount hn
  have hpart : 0 ≤ part * (unitsPerOne : ℤ) :=
    mul_nonneg (partOf_nonneg hunit hn hcount hpart) (Int.natCast_nonneg _)
  refine ⟨c, hc, ?_⟩
  cases low with
  | int m =>
      cases hchosen
      cases hlow
      cases hc
      rw [add_mul]
      omega
  | float value =>
      exact Number.le_extent_add_float (Number.whole_int part) hlow hpart hchosen hc

/-- From an integer value on an integer value is chosen. -/
theorem whole {m : Int} (hlow : low.Whole m) : ∃ n, chosen.Whole n := by
  obtain @⟨drawn, width, count, part, w, n, c, hunit, hwidth, hw, hcount, hn, hpart, hchosen, hc⟩ :=
    hchosen
  have hdvd : (unitsPerOne : ℤ) ∣ c := by
    rcases Number.extent_add (Number.whole_int part) hlow hchosen hc with ⟨-, -, rfl⟩ | ⟨-, rfl⟩
    · exact dvd_add (dvd_mul_left _ _) (dvd_mul_left _ _)
    · obtain ⟨part', hpart'⟩ := Double.dvd_rounded part
      obtain ⟨m', hm'⟩ := Double.dvd_rounded m
      rw [hpart', hm', ← mul_add, mul_comm]
      exact Double.dvd_rounded _
  obtain ⟨k, rfl⟩ := hdvd
  exact ⟨k, by rw [Number.Whole, hc, mul_comm]⟩

/-- The upper one of two bounds in order is kept if both have integer values and are not rounded on
the way. -/
theorem le_high {a b : Int} (hlow : low.Whole a) (hhigh : high.Whole b) (ha : low.Exact)
    (hb : high.Exact) (hle : a ≤ b) (hfloat : ∀ m n, high = .int m → low ≠ .int n) :
    ∃ c, chosen.extent = .units c ∧ c ≤ b * unitsPerOne := by
  obtain @⟨drawn, width, count, part, w, n, c, hunit, hwidth, hw, hcount, hn, hpart, hchosen, hc⟩ :=
    hchosen
  have ha := ha.rounded_eq hlow
  have hb := hb.rounded_eq hhigh
  obtain ⟨⟨m, hm⟩, ⟨k, hk⟩, -⟩ | ⟨⟨x, rfl⟩, rfl⟩ := Number.extent_sub hhigh hlow hwidth hw
  · exact absurd hk (hfloat m k hm)
  obtain ⟨⟨m, hm⟩, -⟩ | ⟨-, rfl⟩ := Number.extent_add hw (Number.whole_int 1) hcount hn
  · cases hm
  obtain ⟨d, hd⟩ := Int.eq_ofNat_of_zero_le (sub_nonneg.mpr hle)
  have hwidth :
      rounded (b * unitsPerOne : ℤ) - rounded (a * unitsPerOne : ℤ) = d * unitsPerOne := by
    rw [ha, hb, ← sub_mul, hd]
  rw [Double.rounded_eq_self hw, hwidth, Double.rounded_whole (by decide : (1 : ℤ).natAbs ≤ _)]
    at hn
  obtain ⟨hpart, hround⟩ := partOf_succ_le hunit hn hpart
  have hsum : (d * unitsPerOne + a * unitsPerOne : ℤ) = b * unitsPerOne := by
    rw [← add_mul, ← hd, sub_add_cancel]
  refine ⟨c, hc, ?_⟩
  rcases Number.extent_add (Number.whole_int part) hlow hchosen hc with ⟨-, -, rfl⟩ | ⟨-, rfl⟩
  · rw [← hsum]
    exact add_le_add_left (Int.mul_le_mul_of_nonneg_right hpart (Int.natCast_nonneg _)) _
  · rw [ha, ← hb, ← hsum]
    exact rounded_mono (by exact_mod_cast add_le_add_left hround _)

/-- Both are kept then. -/
theorem between {a b : Int} (hlow : low.Whole a) (hhigh : high.Whole b) (ha : low.Exact)
    (hb : high.Exact) (hle : a ≤ b) (hfloat : ∀ m n, high = .int m → low ≠ .int n) :
    ∃ n, chosen.Whole n ∧ a ≤ n ∧ n ≤ b := by
  have hpos : (0 : ℤ) < unitsPerOne := by exact_mod_cast unitsPerOne_pos
  obtain ⟨n, hn⟩ := hchosen.whole hlow
  obtain ⟨c, hc, hfrom⟩ := hchosen.low_le hlow hhigh (Int.mul_le_mul_of_nonneg_right hle hpos.le)
  obtain ⟨c', hc', hto⟩ := hchosen.le_high hlow hhigh ha hb hle hfloat
  cases hn.symm.trans hc
  cases hn.symm.trans hc'
  exact ⟨n, hn, Int.le_of_mul_le_mul_right hfrom hpos, Int.le_of_mul_le_mul_right hto hpos⟩

end Finite

end SpreadTo

/-- Two bounds with integer values that arithmetic takes as they are: two integers, or two numbers
that conversion to floating-point numbers does not round. -/
def ExactBounds (low high : Number) (a b : Int) : Prop :=
  low = .int a ∧ high = .int b ∨ low.Whole a ∧ high.Whole b ∧ low.Exact ∧ high.Exact

/-- What becomes of two bounds in a number that is chosen between them. -/
structure KeepsBounds (low high chosen : Number) : Prop where
  /-- In order, the lower one is kept. -/
  lower : high.lt low = false → chosen.lt low = false
  /-- From an integer value on, an integer value is chosen. -/
  whole : ∀ m, low.Whole m → ∃ n, chosen.Whole n
  /-- In order and exact, both are kept. -/
  both : ∀ a b, ExactBounds low high a b → a ≤ b → ∃ n, chosen.Whole n ∧ a ≤ n ∧ n ≤ b
  /-- Out of order, the upper one is never kept, and the lower one only if it is chosen itself. -/
  disorder : ∀ a b, low = .int a → high = .int b → b < a → ∃ n, chosen = .int n ∧ b < n ∧ n ≤ a

theorem SpreadTo.keepsBounds {low high chosen : Number} {exponent : Nat}
    (hchosen : SpreadTo low high chosen) (hlow : low.FitsIn exponent)
    (hhigh : high.FitsIn exponent) (hexponent : exponent + 3 < 1024) :
    KeepsBounds low high chosen where
  lower hordered := by
    obtain ⟨l, hl⟩ := hlow.exists_extent
    obtain ⟨u, hu⟩ := hhigh.exists_extent
    rw [Number.lt, hl, hu, Extent.lt, decide_eq_false_iff_not, not_lt] at hordered
    obtain ⟨c, hc, hle⟩ := (hchosen.finite hlow hhigh hexponent).low_le hl hu hordered
    rw [Number.lt, hc, hl, Extent.lt, decide_eq_false_iff_not, not_lt]
    exact hle
  whole _ hwhole := (hchosen.finite hlow hhigh hexponent).whole hwhole
  both a b hexact hle := by
    by_cases hints : low = .int a ∧ high = .int b
    · obtain ⟨rfl, rfl⟩ := hints
      obtain ⟨n, rfl, hordered, -⟩ := hchosen.int
      exact ⟨n, Number.whole_int n, hordered hle⟩
    · obtain ⟨ha, hb, hlowExact, hhighExact⟩ := hexact.resolve_left hints
      refine (hchosen.finite hlow hhigh hexponent).between ha hb hlowExact hhighExact hle ?_
      rintro n m rfl rfl
      exact hints ⟨congrArg _ ha.eq_of_int, congrArg _ hb.eq_of_int⟩
  disorder a b ha hb hlt := by
    subst ha hb
    obtain ⟨n, heq, -, hdisorder⟩ := hchosen.int
    exact ⟨n, heq, hdisorder hlt⟩

/-- Between bounds of bounded magnitude a number is chosen without fail, with this regard to
them. -/
theorem ensures_spread_keepsBounds {lower upper : Json} {low high : Number} {exponent : Nat}
    (hlower : lower.asNumber = .ok low) (hupper : upper.asNumber = .ok high)
    (hlow : low.FitsIn exponent) (hhigh : high.FitsIn exponent) (hexponent : exponent + 3 < 1024) :
    (spread lower upper).Ensures (KeepsBounds low high) (fun _ => False) := by
  have hsucceeds := @spread_succeeds lower upper low high exponent (fun _ => False) hlower hupper
    hlow hhigh hexponent
  refine ((ensures_spreadTo lower upper).and hsucceeds).mono ?_ fun _ hbad => hbad.2
  rintro chosen ⟨⟨low', high', hlower', hupper', hchosen⟩, -⟩
  cases hlower.symm.trans hlower'
  cases hupper.symm.trans hupper'
  exact hchosen.keepsBounds hlow hhigh hexponent

/-! ## Schemas with bounds -/

/-- A schema of an array, with the bounds that it declares for the number of items. -/
structure DeclaresItems (fields : Fields) (minItems maxItems : Option Nat) : Prop where
  plain : Plain true fields
  type : fields.get "type" = .str "array"
  items : fields.get "items" ≠ .null
  minItems : fields.get "minItems" = (minItems.map fun n => Json.int n).getD .null
  maxItems : fields.get "maxItems" = (maxItems.map fun n => Json.int n).getD .null

/-- A schema of an integer, with the bounds that it declares for it. -/
structure DeclaresInteger (fields : Fields) (minimum maximum : Option Number) : Prop where
  plain : Plain true fields
  type : fields.get "type" = .str "integer"
  minimum : fields.get "minimum" = (minimum.map .number).getD .null
  maximum : fields.get "maximum" = (maximum.map .number).getD .null

/-- With an allowance left, a schema without precedents of its type is made as its type says. -/
theorem exampleWithin_of_plain {root : Json} {scope : Scope}
    (hscope : Scope.ofRoot root = .ok scope)
    {fields : Fields} {shape : Shape} (hplain : Plain true fields)
    (hshape : Shape.ofType fields = .ok shape) (allowance : Nat) :
    exampleWithin (allowance + 1) Config.standard (.obj fields) root =
      expand Config.standard (exampleAt Config.standard scope allowance 1) shape := by
  have hshapeIn : shapeIn scope (.obj fields) = .ok shape := shapeOf_of_plain hplain hshape
  rw [exampleWithin, hscope]
  change exampleAt Config.standard scope (allowance + 1) 0 (.obj fields) = _
  rw [exampleAt, hshapeIn]
  rfl

/-- What the expansion of a type ensures, whatever is made of the inner schemas, holds of the values
that are made of a schema without precedents. -/
theorem Ends.of_ensures {fields : Fields} {root value : Json} {draws : Draws} {position final : Nat}
    (hends : Ends Config.standard (.obj fields) root draws position (.value value final))
    (hunit : draws.InUnit) (hplain : Plain true fields) {shape : Shape}
    (hshape : Shape.ofType fields = .ok shape) {good : Json → Prop}
    (hensures : ∀ child, (expand Config.standard child shape).Ensures good (fun _ => True)) :
    good value := by
  obtain ⟨-, enough, hrun⟩ := hends
  have hrun := hrun (enough + 1) (Nat.le_succ enough)
  cases hscope : Scope.ofRoot root with
  | error cause =>
      rw [exampleWithin, hscope] at hrun
      cases hrun
  | ok scope =>
      rw [exampleWithin_of_plain hscope hplain hshape] at hrun
      have hend := hensures (exampleAt Config.standard scope enough 1) draws position hunit
      rw [hrun] at hend
      exact hend

/-- The length of such a list is chosen between the declared bounds, a missing one being the
standard one. -/
theorem DeclaresItems.ensures_spread {fields : Fields} {minItems maxItems : Option Nat}
    (hfields : DeclaresItems fields minItems maxItems) :
    (spread ((fields.get "minItems").orElse Config.standard.defaultMinItems)
      ((fields.get "maxItems").orElse Config.standard.defaultMaxItems)).Ensures
        (SpreadTo (.int (minItems.getD 1 : Nat)) (.int (maxItems.getD 5 : Nat)))
        (fun _ => True) := by
  have hlower : (fields.get "minItems").orElse Config.standard.defaultMinItems =
      .int (minItems.getD 1 : Nat) := by
    rw [hfields.minItems]
    cases minItems <;> rfl
  have hupper : (fields.get "maxItems").orElse Config.standard.defaultMaxItems =
      .int (maxItems.getD 5 : Nat) := by
    rw [hfields.maxItems]
    cases maxItems <;> rfl
  rw [hlower, hupper]
  refine (ensures_spreadTo _ _).mono ?_ fun _ => id
  rintro chosen ⟨low, high, hlow, hhigh, hchosen⟩
  cases hlow
  cases hhigh
  exact hchosen

/-- A list that is made of a schema with bounds for its length. Where the bounds are in order, a
missing one being the standard one, its length lies between them; where they are not, it lies beyond
the upper one. -/
theorem DeclaresItems.length_of_ends {fields : Fields} {minItems maxItems : Option Nat}
    (hfields : DeclaresItems fields minItems maxItems) {root value : Json} {draws : Draws}
    {position final : Nat} (hunit : draws.InUnit)
    (hends : Ends Config.standard (.obj fields) root draws position (.value value final)) :
    ∃ values, value = .arr values ∧
      (minItems.getD 1 ≤ maxItems.getD 5 →
        minItems.getD 1 ≤ values.length ∧ values.length ≤ maxItems.getD 5) ∧
      (maxItems.getD 5 < minItems.getD 1 →
        maxItems.getD 5 < values.length ∧ values.length ≤ minItems.getD 1) := by
  have hshape : Shape.ofType fields =
      .ok (.array (fields.get "items") (fields.get "minItems") (fields.get "maxItems")) := by
    simp [Shape.ofType, hfields.type]
  obtain ⟨count, values, hcount, rfl, hlength, -⟩ :=
    hends.of_ensures hunit hfields.plain hshape fun child =>
      ensures_expand_array hfields.items hfields.ensures_spread (fun _ _ _ _ => trivial)
        (ensures_true (child (fields.get "items")))
  obtain ⟨n, hn, hordered, hdisorder⟩ := hcount.int
  cases hn
  refine ⟨values, rfl, fun hle => ?_, fun hlt => ?_⟩
  · have := hordered (by omega)
    omega
  · have := hdisorder (by omega)
    omega

/-- Such an integer is chosen without fail, with regard to the declared bounds, a missing one being
the standard one. -/
theorem DeclaresInteger.ensures_spread {fields : Fields} {minimum maximum : Option Number}
    (hfields : DeclaresInteger fields minimum maximum)
    (hminimum : ∀ low ∈ minimum, low.AtMost greatestBound)
    (hmaximum : ∀ high ∈ maximum, high.AtMost greatestBound) :
    (spread ((fields.get "minimum").orElse Config.standard.defaultMinimum)
      ((fields.get "maximum").orElse Config.standard.defaultMaximum)).Ensures
        (KeepsBounds (minimum.getD (.int 1)) (maximum.getD (.int 100))) (fun _ => False) := by
  have hlower : ((fields.get "minimum").orElse Config.standard.defaultMinimum).asNumber =
      .ok (minimum.getD (.int 1)) := by
    rw [hfields.minimum]
    cases minimum <;> rfl
  have hupper : ((fields.get "maximum").orElse Config.standard.defaultMaximum).asNumber =
      .ok (maximum.getD (.int 100)) := by
    rw [hfields.maximum]
    cases maximum <;> rfl
  have hlow : (minimum.getD (.int 1)).FitsIn 1000 := by
    cases minimum with
    | none => exact @Number.FitsIn.mono (.int 1) 0 1000 (by simp [Number.FitsIn]) (by omega)
    | some low => exact (hminimum low rfl).fitsIn greatestBound_le
  have hhigh : (maximum.getD (.int 100)).FitsIn 1000 := by
    cases maximum with
    | none => exact @Number.FitsIn.mono (.int 100) 7 1000 (by simp [Number.FitsIn]) (by omega)
    | some high => exact (hmaximum high rfl).fitsIn greatestBound_le
  exact ensures_spread_keepsBounds hlower hupper hlow hhigh (by omega)

/-- An integer is made of a schema with bounds for it, with this regard to them. -/
theorem DeclaresInteger.exists_ends {fields : Fields} {minimum maximum : Option Number}
    (hfields : DeclaresInteger fields minimum maximum) {root : Json} {scope : Scope}
    (hscope : Scope.ofRoot root = .ok scope) {draws : Draws} (hunit : draws.InUnit)
    (position : Nat) (hminimum : ∀ low ∈ minimum, low.AtMost greatestBound)
    (hmaximum : ∀ high ∈ maximum, high.AtMost greatestBound) :
    ∃ chosen final, Ends Config.standard (.obj fields) root draws position
        (.value (.number chosen) final) ∧
      KeepsBounds (minimum.getD (.int 1)) (maximum.getD (.int 100)) chosen := by
  have hshape : Shape.ofType fields =
      .ok (.integer (fields.get "minimum") (fields.get "maximum")) := by
    simp [Shape.ofType, hfields.type]
  have hensures := hfields.ensures_spread hminimum hmaximum draws position hunit
  have hfinishes := finishes_congruence.spread
    ((fields.get "minimum").orElse Config.standard.defaultMinimum)
    ((fields.get "maximum").orElse Config.standard.defaultMaximum) draws position
  have hrun := congrFun₂ (exampleWithin_of_plain hscope hfields.plain hshape 0) draws position
  rw [expand, map_apply] at hrun
  cases hcase : spread ((fields.get "minimum").orElse Config.standard.defaultMinimum)
      ((fields.get "maximum").orElse Config.standard.defaultMaximum) draws position with
  | value chosen final =>
      rw [hcase] at hensures hrun
      exact ⟨chosen, final, ends_of_exampleWithin (by simp) hrun, hensures⟩
  | failure cause final =>
      rw [hcase] at hensures
      exact hensures.elim
  | unfinished => exact absurd hcase hfinishes

/-- The bounds that a schema declares for a list or an integer are kept where they are in order, a
missing one being the standard one: both of a list, both of an integer where they are integers that
arithmetic does not round, and the lower one of an integer in any case. Out of order they are
not. -/
theorem declared_bounds_kept_in_order {fields : Fields} {root : Json} {draws : Draws}
    (hunit : draws.InUnit) (position : Nat) :
    (∀ minItems maxItems value final, DeclaresItems fields minItems maxItems →
      Ends Config.standard (.obj fields) root draws position (.value value final) →
      ∃ values, value = .arr values ∧
        (minItems.getD 1 ≤ maxItems.getD 5 →
          minItems.getD 1 ≤ values.length ∧ values.length ≤ maxItems.getD 5) ∧
        (maxItems.getD 5 < minItems.getD 1 →
          maxItems.getD 5 < values.length ∧ values.length ≤ minItems.getD 1)) ∧
    ∀ minimum maximum scope, DeclaresInteger fields minimum maximum →
      Scope.ofRoot root = .ok scope →
      (∀ low ∈ minimum, low.AtMost greatestBound) →
      (∀ high ∈ maximum, high.AtMost greatestBound) →
      ∃ chosen final, Ends Config.standard (.obj fields) root draws position
          (.value (.number chosen) final) ∧
        KeepsBounds (minimum.getD (.int 1)) (maximum.getD (.int 100)) chosen :=
  ⟨fun _ _ _ _ hfields hends => hfields.length_of_ends hunit hends,
    fun _ _ _ hfields hscope hminimum hmaximum =>
      hfields.exists_ends hscope hunit position hminimum hmaximum⟩

namespace Sample

/-- A list of at least two values. -/
def pairs : Fields :=
  [("type", .str "array"), ("items", .obj []), ("minItems", .int 2)]

theorem pairs_declaresItems : DeclaresItems pairs (some 2) none where
  plain := ⟨fun _ => rfl, rfl, rfl⟩
  type := rfl
  items := by decide
  minItems := rfl
  maxItems := rfl

theorem ends_pairs : Ends Config.standard (.obj pairs) .null (Draws.constant .zero) 0
    (.value (.arr [.null, .null]) 1) :=
  @ends_of_exampleWithin _ _ _ _ _ 2 _ (by simp) (by decide +kernel)

def oneAndHalf : Double := .nearest false (Double.unitsPerOne / 2 * 3) 1

theorem oneAndHalf_atMost : (Number.float oneAndHalf).AtMost greatestBound := by
  have hfits : oneAndHalf.FitsIn 1 :=
    Double.fitsIn_nearest false one_pos (by omega) (by omega)
  obtain ⟨negative, rank, heq, hunits⟩ := hfits
  exact ⟨negative, rank, heq, hunits.trans (Nat.mul_le_mul_right _ (by decide +kernel))⟩

/-- An integer from one and a half on. -/
def fromFraction : Fields := [("type", .str "integer"), ("minimum", .float oneAndHalf)]

theorem fromFraction_declaresInteger :
    DeclaresInteger fromFraction (some (.float oneAndHalf)) none where
  plain := ⟨fun _ => rfl, rfl, rfl⟩
  type := rfl
  minimum := rfl
  maximum := rfl

end Sample

theorem declared_bounds_sample : (Draws.constant .zero).InUnit ∧
    (∃ values : List Json, Json.arr [.null, .null] = .arr values ∧ 2 ≤ values.length) ∧
    ∃ chosen final, Ends Config.standard (.obj Sample.fromFraction) .null (Draws.constant .zero) 0
        (.value (.number chosen) final) ∧
      chosen.lt (.float Sample.oneAndHalf) = false := by
  have hunit := Draws.inUnit_constant Double.zero_inUnit
  refine ⟨hunit, ?_, ?_⟩
  · obtain ⟨values, heq, hordered, -⟩ := (declared_bounds_kept_in_order hunit 0).1 _ _ _ _
      Sample.pairs_declaresItems Sample.ends_pairs
    exact ⟨values, heq, (hordered (by decide)).1⟩
  · have hscope : ∃ scope, Scope.ofRoot .null = .ok scope := ⟨_, rfl⟩
    obtain ⟨scope, hscope⟩ := hscope
    obtain ⟨chosen, final, hends, hkeeps⟩ := (declared_bounds_kept_in_order hunit 0).2 _ _ _
      Sample.fromFraction_declaresInteger hscope
      (fun _ hlow => Option.some.inj hlow ▸ Sample.oneAndHalf_atMost) (fun _ hhigh => nomatch hhigh)
    exact ⟨chosen, final, hends, hkeeps.lower (by decide +kernel)⟩

/-- A list that may hold nothing holds a value all the same, as the standard lower bound is one; and
an integer up to one and a half may be two. -/
theorem declared_bounds_missed :
    exampleWithin 2 Config.standard
        (.obj [("type", .str "array"), ("items", .obj []), ("maxItems", .int 0)]) .null
        (Draws.constant .zero) 0 = .value (.arr [.null]) 1 ∧
      exampleWithin 1 Config.standard
        (.obj [("type", .str "integer"), ("minimum", .int 1),
          ("maximum", .float Sample.oneAndHalf)]) .null
        (Draws.constant Double.threeQuarters) 0 = .value (.int 2) 1 ∧
      (Number.float Sample.oneAndHalf).lt (.int 2) = true := by
  refine ⟨?_, ?_, ?_⟩ <;> decide +kernel

end Exemplar
