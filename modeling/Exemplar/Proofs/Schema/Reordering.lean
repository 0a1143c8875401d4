import Exemplar.Proofs.Schema.Equivalence

/-!
# Reordered properties

Two schemas differ in the order of properties alone if they agree in the known keywords,
but for the schemas inside them, which differ in the same way again, and for the order in
which objects declare their properties. The properties may be permuted at any number of
positions, within definitions too.
-/

namespace Exemplar

/-! ## The relation -/

/-- A property that two objects declare: its name, and its schema on either side. -/
structure PropertyPair where
  name : Str
  before : Json
  after : Json

namespace PropertyPair

/-- The property as the first object declares it. -/
def first (pair : PropertyPair) : Str × Json := (pair.name, pair.before)

/-- The property as the second object declares it. -/
def second (pair : PropertyPair) : Str × Json := (pair.name, pair.after)

end PropertyPair

/-- Two objects that declare the same properties in some order each, with related schemas, or the
same value that is no object. -/
inductive PropertiesReordered (related : Json → Json → Prop) : Json → Json → Prop
  | declared {pairs pairs' : List PropertyPair} (horder : pairs.Perm pairs')
      (hschemas : ∀ pair ∈ pairs, related pair.before pair.after) :
      PropertiesReordered related (.obj (pairs.map PropertyPair.first))
        (.obj (pairs'.map PropertyPair.second))
  | same {value : Json} (hother : ∀ properties, value ≠ .obj properties) :
      PropertiesReordered related value value

/-- No items on either side, or related ones. -/
inductive ItemsAlike (related : Json → Json → Prop) : Json → Json → Prop
  | absent : ItemsAlike related .null .null
  | present {items items' : Json} (hpresent : items ≠ .null) (hpresent' : items' ≠ .null)
      (hitems : related items items') : ItemsAlike related items items'

/-- Two schemas that differ in the order of properties alone, at any number of positions. -/
inductive Reordered : Json → Json → Prop
  | remark {schema : Json} (hother : ∀ fields, schema ≠ .obj fields) : Reordered schema schema
  | object {fields fields' : Fields}
      (hplain : ∀ name ∈ .plain "required" :: plainKeywords, fields.get name = fields'.get name)
      (hvariants : VariantsAlike Reordered (fields.get "anyOf") (fields'.get "anyOf"))
      (hproperties : PropertiesReordered Reordered (fields.get "properties")
        (fields'.get "properties"))
      (hitems : ItemsAlike Reordered (fields.get "items") (fields'.get "items")) :
      Reordered (.obj fields) (.obj fields')

/-- Two roots with the same definitions, up to the order of properties inside them. -/
abbrev ReorderedRoots : Json → Json → Prop := CorrespondingRoots Reordered

/-! ## Permuting at a position -/

section Local

variable {related : Json → Json → Prop}

/-- Properties in the same order, as pairs. -/
theorem exists_pairs {properties properties' : List (Str × Json)}
    (hproperties : List.Forall₂
      (fun property property' => property.1 = property'.1 ∧ related property.2 property'.2)
      properties properties') :
    ∃ pairs : List PropertyPair, properties = pairs.map PropertyPair.first ∧
      properties' = pairs.map PropertyPair.second ∧
      ∀ pair ∈ pairs, related pair.before pair.after := by
  induction hproperties with
  | nil => exact ⟨[], rfl, rfl, by simp⟩
  | @cons property property' rest rest' hfirst _ ih =>
      obtain ⟨pairs, rfl, rfl, hschemas⟩ := ih
      obtain ⟨name, schema⟩ := property
      obtain ⟨name', schema'⟩ := property'
      obtain ⟨rfl, hschema⟩ := hfirst
      exact ⟨⟨name, schema, schema'⟩ :: pairs,
        rfl, rfl, List.forall_mem_cons.mpr ⟨hschema, hschemas⟩⟩

theorem propertiesReordered_of_forall₂ {properties properties' : List (Str × Json)}
    (hproperties : List.Forall₂
      (fun property property' => property.1 = property'.1 ∧ related property.2 property'.2)
      properties properties') :
    PropertiesReordered related (.obj properties) (.obj properties') := by
  obtain ⟨pairs, rfl, rfl, hschemas⟩ := exists_pairs hproperties
  exact .declared (List.Perm.refl pairs) hschemas

/-- Permuted properties with the schemas that they had. -/
theorem propertiesReordered_of_perm {properties properties' : List (Str × Json)}
    (hrefl : ∀ property ∈ properties, related property.2 property.2)
    (horder : properties.Perm properties') :
    PropertiesReordered related (.obj properties) (.obj properties') := by
  let pair (property : Str × Json) : PropertyPair := ⟨property.1, property.2, property.2⟩
  have hfirst (listed : List (Str × Json)) : (listed.map pair).map PropertyPair.first = listed := by
    rw [List.map_map]
    exact List.map_id listed
  have hsecond (listed : List (Str × Json)) :
      (listed.map pair).map PropertyPair.second = listed := by
    rw [List.map_map]
    exact List.map_id listed
  rw [← hfirst properties, ← hsecond properties']
  refine .declared (horder.map pair) fun declared hmem => ?_
  obtain ⟨property, hproperty, rfl⟩ := List.mem_map.mp hmem
  exact hrefl property hproperty

theorem PropertiesReordered.refl {value : Json}
    (hrefl : ∀ properties, value = .obj properties →
      ∀ property ∈ properties, related property.2 property.2) :
    PropertiesReordered related value value := by
  cases value with
  | obj properties => exact propertiesReordered_of_perm (hrefl properties rfl) (List.Perm.refl _)
  | _ => exact .same (by simp)

theorem VariantsAlike.refl {value : Json}
    (hrefl : ∀ variants, value = .arr variants → ∀ variant ∈ variants, related variant variant) :
    VariantsAlike related value value := by
  cases value with
  | arr variants => exact .listed (List.forall₂_same.mpr (hrefl variants rfl))
  | _ => exact .same (by simp)

theorem ItemsAlike.refl {value : Json} (hrefl : value ≠ .null → related value value) :
    ItemsAlike related value value := by
  by_cases hvalue : value = .null
  · rw [hvalue]
    exact .absent
  · exact .present hvalue hvalue (hrefl hvalue)

end Local

namespace Reordered

theorem refl (schema : Json) : Reordered schema schema := by
  induction schema using Position.innerInduction with
  | other schema hother => exact .remark hother
  | object fields ih =>
      refine .object (fun _ _ => rfl) (.refl fun variants hvariants variant hmem => ?_)
        (.refl fun properties hproperties property hmem => ?_) (.refl fun hitems => ?_)
      · exact ih variant (Position.Step.inner?_of_variant hvariants hmem)
      · exact ih property.2
          (Position.Step.inner?_of_property hproperties (List.mem_map_of_mem hmem))
      · exact ih _ ⟨.items, Position.Step.inner?_items hitems⟩

/-- A schema that is reordered in one of the keywords that hold schemas. -/
theorem set {fields : Fields} {name : Str} {value : Json}
    (hname : name ∉ .plain "required" :: plainKeywords)
    (hvariants : name = "anyOf" → VariantsAlike Reordered (fields.get name) value)
    (hproperties : name = "properties" → PropertiesReordered Reordered (fields.get name) value)
    (hitems : name = "items" → ItemsAlike Reordered (fields.get name) value) :
    Reordered (.obj fields) (.obj (fields.set name value)) := by
  refine .object ?_ ?_ ?_ ?_
  · intro other hother
    rw [Fields.get_set, if_neg]
    rintro rfl
    exact hname hother
  all_goals
    rw [Fields.get_set]
    split
  next heq => exact heq ▸ hvariants heq.symm
  next => exact .refl fun _ _ variant _ => .refl variant
  next heq => exact heq ▸ hproperties heq.symm
  next => exact .refl fun _ _ property _ => .refl property.2
  next heq => exact heq ▸ hitems heq.symm
  next => exact .refl fun _ => .refl _

/-- A schema whose properties are permuted. -/
theorem of_perm {fields : Fields} {properties properties' : List (Str × Json)}
    (hproperties : fields.get "properties" = .obj properties)
    (horder : properties.Perm properties') :
    Reordered (.obj fields) (.obj (fields.set "properties" (.obj properties'))) := by
  refine .set (by decide) (absurd · (by decide)) (fun _ => ?_) (absurd · (by decide))
  rw [hproperties]
  exact propertiesReordered_of_perm (fun property _ => .refl property.2) horder

theorem ne_null {schema schema' : Json} (hreordered : Reordered schema schema')
    (hpresent : schema ≠ .null) : schema' ≠ .null := by
  cases hreordered with
  | remark _ => exact hpresent
  | object => exact nofun

/-- A schema that is reordered where a step leads. -/
theorem put {fields : Fields} {step : Position.Step} {schema schema' : Json}
    (hinner : step.inner? fields = some schema) (hreordered : Reordered schema schema') :
    Reordered (.obj fields) (.obj (step.put fields schema')) := by
  cases step with
  | property place =>
      rw [Position.Step.inner?] at hinner
      split at hinner
      next properties hproperties =>
        simp only [Position.Step.put, hproperties]
        refine .set (by decide) (absurd · (by decide)) (fun _ => ?_) (absurd · (by decide))
        rw [hproperties]
        exact propertiesReordered_of_forall₂ (forall₂_modify Reordered.refl hinner hreordered)
      next => cases hinner
  | items =>
      rw [Position.Step.inner?] at hinner
      split at hinner
      next => cases hinner
      next hpresent =>
        cases hinner
        refine .set (by decide) (absurd · (by decide)) (absurd · (by decide)) fun _ => ?_
        exact .present hpresent (hreordered.ne_null hpresent) hreordered
  | variant place =>
      rw [Position.Step.inner?] at hinner
      split at hinner
      next variants hvariants =>
        simp only [Position.Step.put, hvariants]
        refine .set (by decide) (fun _ => ?_) (absurd · (by decide)) (absurd · (by decide))
        rw [hvariants]
        exact .listed (forall₂_set Reordered.refl hinner hreordered)
      next => cases hinner

/-- A schema that is reordered at a position is reordered as a whole. -/
theorem putAt {position : Position} {schema inner inner' : Json}
    (hat : schema.at? position = some inner) (hreordered : Reordered inner inner') :
    Reordered schema (schema.putAt inner' position) := by
  induction position generalizing schema with
  | nil =>
      cases hat
      exact hreordered
  | cons step rest ih =>
      cases schema with
      | obj fields =>
          obtain ⟨middle, hmiddle, hat⟩ := Option.bind_eq_some_iff.mp hat
          rw [Json.putAt]
          simp only [hmiddle]
          exact put hmiddle (ih hat)
      | _ => cases hat

end Reordered

/-- A root is reordered trivially. -/
theorem ReorderedRoots.refl (root : Json) : ReorderedRoots root root := by
  unfold ReorderedRoots CorrespondingRoots
  cases Definition.ofRoot? root with
  | none => exact .none
  | some definitions =>
      exact .some (List.forall₂_same.mpr fun definition _ => ⟨rfl, .refl (.obj definition.schema)⟩)

/-! ## Shapes -/

/-- Two shapes differ at most in the schemas inside them, which are related, and in the order of
properties. -/
inductive Shape.Reordered (related : Json → Json → Prop) : Shape → Shape → Prop
  | anyOf {variants variants' : List Json} (hvariants : List.Forall₂ related variants variants') :
      Shape.Reordered related (.anyOf variants) (.anyOf variants')
  | object {pairs pairs' : List PropertyPair} {required : List Json} (horder : pairs.Perm pairs')
      (hschemas : ∀ pair ∈ pairs, related pair.before pair.after) :
      Shape.Reordered related (.object (.obj (pairs.map PropertyPair.first)) required)
        (.object (.obj (pairs'.map PropertyPair.second)) required)
  | array {items items' minItems maxItems : Json} (hpresent : items ≠ .null)
      (hpresent' : items' ≠ .null) (hitems : related items items') :
      Shape.Reordered related (.array items minItems maxItems) (.array items' minItems maxItems)
  | closed {shape : Shape} (hnone : shape.inner = []) : Shape.Reordered related shape shape

theorem PropertiesReordered.shape {related : Json → Json → Prop} {properties properties' : Json}
    (hproperties : PropertiesReordered related properties properties') (required : List Json) :
    Shape.Reordered related
      (.object (if properties.truthy then properties else .obj []) required)
      (.object (if properties'.truthy then properties' else .obj []) required) := by
  cases hproperties with
  | declared horder hschemas =>
      rw [listed_properties, listed_properties]
      exact .object horder hschemas
  | same hother =>
      apply Shape.Reordered.closed
      split
      next =>
        cases properties with
        | obj declared => exact absurd rfl (hother declared)
        | _ => rfl
      next => rfl

theorem ItemsAlike.shape {related : Json → Json → Prop} {items items' : Json}
    (hitems : ItemsAlike related items items') (minItems maxItems : Json) :
    Shape.Reordered related (.array items minItems maxItems) (.array items' minItems maxItems) := by
  cases hitems with
  | absent => exact .closed rfl
  | present hpresent hpresent' hitems => exact .array hpresent hpresent' hitems

namespace Reordered

variable {schema schema' : Json} (hreordered : Reordered schema schema')

include hreordered

/-- Reordered schemas whose own references are ignored have reordered shapes. -/
theorem ofSchema :
    FailAlike (Shape.Reordered Reordered) (Shape.ofSchema schema) (Shape.ofSchema schema') := by
  cases hreordered with
  | remark hother =>
      rw [ofSchema_remark hother]
      exact .ok (.closed rfl)
  | @object fields fields' hplain hvariants hproperties hitems =>
      have halike : KeywordsAlike (Shape.Reordered Reordered) fields fields' :=
        { plain := fun name hname => hplain name (List.mem_cons_of_mem _ hname)
          truthy := hvariants.truthy
          anyOf := (hvariants.elements fun text => .refl (.str text)).imp fun _ _ => .anyOf
          object := by
            rw [← hplain "required" List.mem_cons_self]
            cases (if (fields.get "required").truthy then (fields.get "required").elements
              else .ok []) with
            | ok required => exact .ok (hproperties.shape required)
            | error cause => exact .error cause
          array := hitems.shape
          closed := fun _ => .closed }
      exact halike.ofSchema

theorem reference? : Node.reference? schema = Node.reference? schema' := by
  cases hreordered with
  | remark _ => rfl
  | object hplain _ _ _ =>
      simp only [Node.reference?]
      rw [hplain "$ref" (by decide)]

end Reordered

end Exemplar
