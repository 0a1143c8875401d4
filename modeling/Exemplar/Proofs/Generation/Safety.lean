import Exemplar.Proofs.Decimal.Rounding
import Exemplar.Proofs.Generation.Allowance
import Exemplar.Proofs.Generation.Choice
import Exemplar.Proofs.Schema.WellFormed

/-!
# Well-formed schemas are safe

Under the standard configuration the only failures of a well-formed schema are
those of references that dangle. No choice runs out of its range: lists that
count are not empty, and sums, products and rounded points of bounded operands
have room, whichever way round the bounds are.
-/

namespace Exemplar

open Run

theorem shapeIn_fits {schema root : Json} (hschema : WellFormed schema)
    (hroot : WellFormedRoot root) {scope : Scope} (hscope : Scope.ofRoot root = .ok scope) :
    (attempt (shapeIn scope schema)).Ensures Shape.Fits (Dangling root) := by
  have hshape : ∀ {schema : Json}, WellFormed schema →
      (attempt ((Shape.ofSchema schema).mapError .fault)).Ensures Shape.Fits (Dangling root) := by
    intro schema hschema
    obtain ⟨shape, heq, hfits⟩ := exists_ofSchema_fits hschema
    rw [heq]
    exact ensures_pure hfits
  rw [shapeIn_eq]
  cases htarget : Node.reference? schema with
  | none => exact hshape hschema
  | some target =>
      -- only a text that is not empty is followed, and every identifier is looked up by one
      obtain ⟨hkeywords, -, -, -⟩ := hschema
      simp only [Node.reference?] at htarget
      split at htarget
      next hpresent =>
        obtain ⟨text, htext⟩ := hkeywords.reference (ne_null_of_truthy hpresent)
        cases htarget
        rw [htext]
        dsimp only
        rcases resolve_wellFormed hroot hscope text with ⟨definition, heq, hdefinition⟩ |
          ⟨cause, heq, hcause⟩
        · rw [heq]
          exact hshape hdefinition
        · rw [heq]
          exact ensures_fail hcause
      next => cases htarget

/-- A point between bounds of bounded magnitude can be rounded to the standard places. -/
theorem point_succeeds {lower upper : Json} {low high : Number} {bad : Failure → Prop}
    (hlower : lower.asNumber = .ok low) (hupper : upper.asNumber = .ok high)
    (hlow : low.FitsIn 84) (hhigh : high.FitsIn 84) :
    (point lower upper Config.standard.numberPrecision).Ensures (fun _ => True) bad := by
  apply ensures_draw.bind
  intro drawn hunit
  obtain ⟨width, hwidth, hfits⟩ := hhigh.sub hlow (by omega)
  obtain ⟨offset, hoffset, hfits⟩ := Number.FitsIn.scale hunit.fitsIn hfits (by omega)
  obtain ⟨sum, hsum, hfits⟩ :=
    Number.FitsIn.add (a := .float offset) hfits (hlow.mono (by omega)) (by omega)
  obtain ⟨chosen, hchosen, hfits⟩ := hfits.toDouble (by omega)
  obtain ⟨rounded, hrounded⟩ :=
    @Double.FitsIn.round chosen 86 2 28 hfits (by omega) rfl rfl (by decide)
  refine ensures_evaluate_ok (bind_eq_ok.mpr ⟨high, hupper, bind_eq_ok.mpr ⟨low, hlower,
    bind_eq_ok.mpr ⟨width, hwidth, bind_eq_ok.mpr ⟨offset, hoffset, bind_eq_ok.mpr ⟨sum, hsum,
      bind_eq_ok.mpr ⟨chosen, hchosen, bind_eq_ok.mpr ⟨2, rfl, hrounded⟩⟩⟩⟩⟩⟩⟩) trivial

/-! ## Bounds -/

/-- A bound of an integer or a number, given or standard, is of bounded magnitude. -/
theorem exists_number_of_orElse {value fallback : Json} {bound exponent : Nat} {n : Int}
    (hvalue : value ≠ .null → value.IsWithin bound) (hfallback : fallback = .int n)
    (hn : n.natAbs ≤ 2 ^ exponent) (hbound : bound ≤ 2 ^ exponent) :
    ∃ number, (value.orElse fallback).asNumber = .ok number ∧ number.FitsIn exponent := by
  subst hfallback
  cases value with
  | null => exact ⟨.int n, rfl, hn⟩
  | _ =>
      obtain ⟨number, heq, hnumber⟩ := hvalue (by simp)
      exact ⟨number, heq, hnumber.fitsIn hbound⟩

/-- A bound of a length, given or standard, is an integer of bounded magnitude. -/
theorem exists_int_of_orElse {value fallback : Json} {exponent : Nat} {n : Int}
    (hvalue : value ≠ .null → value.IsCount) (hfallback : fallback = .int n)
    (hn : n.natAbs ≤ 2 ^ exponent) (hbound : greatestBound ≤ 2 ^ exponent) :
    ∃ m, (value.orElse fallback).asNumber = .ok (.int m) ∧ (Number.int m).FitsIn exponent := by
  subst hfallback
  cases value with
  | null => exact ⟨n, rfl, hn⟩
  | _ =>
      obtain ⟨m, heq, hm⟩ := hvalue (by simp)
      exact ⟨m, asNumber_of_asInt heq, hm.trans hbound⟩

/-! ## Shapes -/

theorem ensures_expand_string {config : Config} {child : Json → Run Json} {bad : Failure → Prop}
    (pattern : Json)
    (hlength : ∀ cause, config.stringLength.asInt = .error cause → bad (.fault cause)) :
    (expand config child (.string pattern)).Ensures (fun _ => True) bad := by
  rw [expand]
  split
  · exact ensures_pure trivial
  · exact (ensures_word hlength).map fun _ _ => trivial

/-- A shape that fits is made without a failure of its own. -/
theorem expand_succeeds {child : Json → Run Json} {bad : Failure → Prop}
    (hchild : ∀ schema, WellFormed schema → (child schema).Ensures (fun _ => True) bad)
    {shape : Shape} (hfits : shape.Fits) :
    (expand Config.standard child shape).Ensures (fun _ => True) bad := by
  cases hfits with
  | anyOf hne hlength hvariants =>
      apply (pick_succeeds hne (hlength.trans greatestBound_le) (by omega)).bind
      exact fun variant hmem => hchild variant (hvariants variant hmem)
  | enumeration hne hlength =>
      refine (pick_succeeds hne (hlength.trans greatestBound_le) (by omega)).mono ?_ fun _ => id
      exact fun _ _ => trivial
  | @object properties required hproperties =>
      have hfields := @ensures_fieldsOnto Json Config.standard.optionalPropertyProbability required
        child (fun _ _ => True) bad Double.InUnit properties [] (fun _ hcause => nomatch hcause)
        fun property hmem => hchild property.2 (hproperties property hmem)
      exact hfields.map fun _ _ => trivial
  | @array items minItems maxItems hitems hminItems hmaxItems =>
      by_cases hnull : items = .null
      · rw [hnull]
        exact ensures_pure trivial
      · obtain ⟨low, hlower, hlow⟩ := exists_int_of_orElse hminItems
          (show Config.standard.defaultMinItems = .int 1 from rfl) Nat.one_le_two_pow
          greatestBound_le
        obtain ⟨high, hupper, hhigh⟩ := exists_int_of_orElse hmaxItems
          (show Config.standard.defaultMaxItems = .int 5 from rfl) (by decide +kernel)
          greatestBound_le
        refine (ensures_expand_array hnull (spread_succeeds hlower hupper hlow hhigh (by omega))
          (fun count hcount cause hcause => ?_) (hchild items (hitems hnull))).mono
            (fun _ _ => trivial) fun _ => id
        obtain ⟨n, rfl⟩ := hcount low rfl
        cases hcause
  | boolean => exact ensures_draw.bind fun _ _ => ensures_pure trivial
  | integer hminimum hmaximum =>
      obtain ⟨low, hlower, hlow⟩ := exists_number_of_orElse hminimum
        (show Config.standard.defaultMinimum = .int 1 from rfl) Nat.one_le_two_pow greatestBound_le
      obtain ⟨high, hupper, hhigh⟩ := exists_number_of_orElse hmaximum
        (show Config.standard.defaultMaximum = .int 100 from rfl) (by decide +kernel)
        greatestBound_le
      exact (spread_succeeds hlower hupper hlow hhigh (by omega)).map fun _ _ => trivial
  | number hminimum hmaximum =>
      obtain ⟨low, hlower, hlow⟩ := exists_number_of_orElse hminimum
        (show Config.standard.defaultMinimum = .int 1 from rfl) Nat.one_le_two_pow greatestPoint_le
      obtain ⟨high, hupper, hhigh⟩ := exists_number_of_orElse hmaximum
        (show Config.standard.defaultMaximum = .int 100 from rfl) (by decide +kernel)
        greatestPoint_le
      exact (point_succeeds hlower hupper hlow hhigh).map fun _ _ => trivial
  | string pattern =>
      exact ensures_expand_string pattern fun cause hcause => nomatch hcause
  | constant value => exact ensures_pure trivial

/-! ## Runs -/

theorem exampleAt_succeeds {root : Json} (hroot : WellFormedRoot root) {scope : Scope}
    (hscope : Scope.ofRoot root = .ok scope) (allowance depth : Nat) {schema : Json}
    (hschema : WellFormed schema) :
    (exampleAt Config.standard scope allowance depth schema).Ensures (fun _ => True)
      (Dangling root) := by
  induction allowance generalizing depth schema with
  | zero => exact ensures_unfinished
  | succ allowance ih =>
      have hdepth : (checkDepth Config.standard.maxDepth depth).Ensures (fun _ => True)
          (Dangling root) := ensures_pure trivial
      apply hdepth.bind
      intro _ _
      apply (shapeIn_fits hschema hroot hscope).bind
      intro shape hfits
      exact expand_succeeds (fun schema hschema => ih (depth + 1) hschema) hfits

/-- A run of a well-formed schema that ends, ends with a value or with a reference that dangles. -/
theorem wellFormed_value_or_dangling {schema root : Json} {draws : Draws} {position : Nat}
    {outcome : Outcome Json} (hschema : WellFormed schema) (hroot : WellFormedRoot root)
    (hunit : draws.InUnit) (hends : Ends Config.standard schema root draws position outcome) :
    (∃ value final, outcome = .value value final) ∨
      ∃ cause final, outcome = .failure cause final ∧ Dangling root cause := by
  obtain ⟨hended, enough, hrun⟩ := hends
  have heq := hrun enough (Nat.le_refl enough)
  obtain ⟨scope, hscope⟩ := exists_scope_ofRoot hroot
  have hsatisfies := exampleAt_succeeds hroot hscope enough 0 hschema draws position hunit
  unfold exampleWithin at heq
  rw [hscope] at heq
  change exampleAt Config.standard scope enough 0 schema draws position = outcome at heq
  rw [heq] at hsatisfies
  cases outcome with
  | value value final => exact Or.inl ⟨value, final, rfl⟩
  | failure cause final => exact Or.inr ⟨cause, final, rfl, hsatisfies⟩
  | unfinished => exact absurd rfl hended

namespace Sample

/-- The keywords of a number between bounds in the wrong order, as far apart as they may be. -/
def farPoint : Fields :=
  [("$id", .str "far"), ("type", .str "number"), ("minimum", .int greatestPoint),
    ("maximum", .int (-greatestPoint))]

/-- A root that defines it. -/
def farRoot : Json := .obj [("definitions", .obj [("point", .obj farPoint)])]

/-- What refers to it. -/
def toFar : Fields := [("$ref", .str "far")]

/-- The number of ten to the power 25. -/
def far : Double := .nearest false (Double.unitsPerOne * greatestPoint) 1

theorem farPoint_keywordsFit : KeywordsFit farPoint where
  reference hpresent := absurd rfl hpresent
  identifier _ := ⟨"far", rfl⟩
  olderIdentifier hpresent := absurd rfl hpresent
  variants hpresent := absurd rfl hpresent
  values hpresent := absurd rfl hpresent
  properties hpresent := absurd rfl hpresent
  required hpresent := absurd rfl hpresent
  minItems hpresent := absurd rfl hpresent
  maxItems hpresent := absurd rfl hpresent
  pattern hpresent := absurd rfl hpresent
  integers htype := absurd htype (by decide)
  numbers _ := ⟨fun _ => ⟨.int greatestPoint, rfl, le_refl greatestPoint⟩,
    fun _ => ⟨.int (-greatestPoint), rfl, by simp [Number.AtMost]⟩⟩

theorem farPoint_wellFormed : WellFormed (.obj farPoint) :=
  .object farPoint_keywordsFit (fun _ hvariants => nomatch hvariants)
    (fun _ hproperties => nomatch hproperties) (fun hpresent => absurd rfl hpresent)

theorem farRoot_wellFormed : WellFormedRoot farRoot := by
  intro fields heq _
  cases heq
  refine ⟨_, rfl, ?_⟩
  intro entry hmem
  rw [List.mem_singleton.mp hmem]
  exact farPoint_wellFormed

theorem toFar_keywordsFit : KeywordsFit toFar where
  reference _ := ⟨"far", rfl⟩
  identifier hpresent := absurd rfl hpresent
  olderIdentifier hpresent := absurd rfl hpresent
  variants hpresent := absurd rfl hpresent
  values hpresent := absurd rfl hpresent
  properties hpresent := absurd rfl hpresent
  required hpresent := absurd rfl hpresent
  minItems hpresent := absurd rfl hpresent
  maxItems hpresent := absurd rfl hpresent
  pattern hpresent := absurd rfl hpresent
  integers htype := absurd htype (by decide)
  numbers htype := absurd htype (by decide)

theorem toFar_wellFormed : WellFormed (.obj toFar) :=
  .object toFar_keywordsFit (fun _ hvariants => nomatch hvariants)
    (fun _ hproperties => nomatch hproperties) (fun hpresent => absurd rfl hpresent)

theorem ends_toFar :
    Ends Config.standard (.obj toFar) farRoot (Draws.constant .zero) 0 (.value (.float far) 1) :=
  @ends_of_exampleWithin _ _ _ _ _ 1 _ (by simp) (by decide +kernel)

end Sample

theorem wellFormed_sample :
    WellFormed (.obj Sample.toFar) ∧ WellFormedRoot Sample.farRoot ∧
      (Draws.constant .zero).InUnit ∧
      Ends Config.standard (.obj Sample.toFar) Sample.farRoot (Draws.constant .zero) 0
        (.value (.float Sample.far) 1) ∧
      ((∃ value final, Outcome.value (Json.float Sample.far) 1 = .value value final) ∨
        ∃ cause final, Outcome.value (Json.float Sample.far) 1 = .failure cause final ∧
          Dangling Sample.farRoot cause) :=
  have hunit := Draws.inUnit_constant Double.zero_inUnit
  ⟨Sample.toFar_wellFormed, Sample.farRoot_wellFormed, hunit, Sample.ends_toFar,
    wellFormed_value_or_dangling Sample.toFar_wellFormed Sample.farRoot_wellFormed hunit
      Sample.ends_toFar⟩

end Exemplar
