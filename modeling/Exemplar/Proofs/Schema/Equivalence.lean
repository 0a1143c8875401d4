import Exemplar.Proofs.Schema.Lookup
import Exemplar.Proofs.Schema.Position

/-!
# Equivalent schemas

Two schemas are equivalent if they agree in the keywords that are known, as far as
these are looked at: schemas inside them need only be equivalent, and how
requirements are listed does not count. Equivalent schemas have shapes that are
alike, and equivalent roots resolve every reference to equivalent definitions.
-/

namespace Exemplar

/-- The known keywords that hold no schemas and no requirements. -/
def plainKeywords : List Str :=
  ["$ref", "enum", "type", "minItems", "maxItems", "minimum", "maximum", "pattern", "default"]

/-- The same requirements: two lists that name the same properties, or the same value. -/
inductive SameRequirements : Json → Json → Prop
  | listed {required required' : List Json} (hrequired : Shape.RequireAlike required required') :
      SameRequirements (.arr required) (.arr required')
  | same (value : Json) : SameRequirements value value

mutual

/-- Two schemas without keywords, or with keywords that agree; an absent keyword counts as null. -/
inductive Equivalent : Json → Json → Prop
  | remark {schema schema' : Json} (hother : ∀ fields, schema ≠ .obj fields)
      (hother' : ∀ fields, schema' ≠ .obj fields) : Equivalent schema schema'
  | object {fields fields' : Fields}
      (hplain : ∀ name ∈ plainKeywords, fields.get name = fields'.get name)
      (hrequired : SameRequirements (fields.get "required") (fields'.get "required"))
      (hvariants : EquivalentVariants (fields.get "anyOf") (fields'.get "anyOf"))
      (hproperties : EquivalentProperties (fields.get "properties") (fields'.get "properties"))
      (hitems : EquivalentItems (fields.get "items") (fields'.get "items")) :
      Equivalent (.obj fields) (.obj fields')

/-- Two lists of equivalent alternatives, or the same value that is no list. -/
inductive EquivalentVariants : Json → Json → Prop
  | listed {variants variants' : List Json}
      (hvariants : List.Forall₂ Equivalent variants variants') :
      EquivalentVariants (.arr variants) (.arr variants')
  | same {value : Json} (hother : ∀ variants, value ≠ .arr variants) :
      EquivalentVariants value value

/-- Two objects with the same names in the same order and with equivalent properties, or the same
value that is no object. -/
inductive EquivalentProperties : Json → Json → Prop
  | declared {properties properties' : Fields} (hnames : properties.names = properties'.names)
      (hschemas : List.Forall₂ Equivalent (properties.map (·.2)) (properties'.map (·.2))) :
      EquivalentProperties (.obj properties) (.obj properties')
  | same {value : Json} (hother : ∀ properties, value ≠ .obj properties) :
      EquivalentProperties value value

/-- No items on either side, or equivalent ones. -/
inductive EquivalentItems : Json → Json → Prop
  | absent : EquivalentItems .null .null
  | present {items items' : Json} (hpresent : items ≠ .null) (hpresent' : items' ≠ .null)
      (hitems : Equivalent items items') : EquivalentItems items items'

end

/-- A schema is equivalent to itself. -/
theorem Equivalent.refl (schema : Json) : Equivalent schema schema := by
  induction schema using Position.innerInduction with
  | other schema hother => exact .remark hother hother
  | object fields ih =>
      refine .object (fun _ _ => rfl) (.same _) ?_ ?_ ?_
      · cases hvariants : Fields.get fields "anyOf" with
        | arr variants =>
            refine .listed (List.forall₂_same.mpr fun variant hmem => ?_)
            exact ih variant (Position.Step.inner?_of_variant hvariants hmem)
        | _ => exact .same (by simp)
      · cases hproperties : Fields.get fields "properties" with
        | obj properties =>
            refine .declared rfl (List.forall₂_same.mpr fun schema hmem => ?_)
            exact ih schema (Position.Step.inner?_of_property hproperties hmem)
        | _ => exact .same (by simp)
      · by_cases hitems : Fields.get fields "items" = .null
        · rw [hitems]
          exact .absent
        · exact .present hitems hitems (ih _ ⟨.items, Position.Step.inner?_items hitems⟩)

/-! ## Shapes of schemas with like keywords -/

/-- Keywords that are the same but for the schemas in them, which make shapes that are alike in some
sense. -/
structure KeywordsAlike (alike : Shape → Shape → Prop) (fields fields' : Fields) : Prop where
  plain : ∀ name ∈ plainKeywords, fields.get name = fields'.get name
  truthy : (fields.get "anyOf").truthy = (fields'.get "anyOf").truthy
  anyOf : FailAlike (fun variants variants' => alike (.anyOf variants) (.anyOf variants'))
    (fields.get "anyOf").elements (fields'.get "anyOf").elements
  object : FailAlike
    (fun required required' => alike
      (.object (if (fields.get "properties").truthy then fields.get "properties" else .obj [])
        required)
      (.object (if (fields'.get "properties").truthy then fields'.get "properties" else .obj [])
        required'))
    (if (fields.get "required").truthy then (fields.get "required").elements else .ok [])
    (if (fields'.get "required").truthy then (fields'.get "required").elements else .ok [])
  array : ∀ minItems maxItems, alike (.array (fields.get "items") minItems maxItems)
    (.array (fields'.get "items") minItems maxItems)
  closed : ∀ shape : Shape, shape.inner = [] → alike shape shape

namespace KeywordsAlike

variable {alike : Shape → Shape → Prop} {fields fields' : Fields}
  (halike : KeywordsAlike alike fields fields')

include halike

/-- The shapes that the type selects are alike. -/
theorem ofType : FailAlike alike (Shape.ofType fields) (Shape.ofType fields') := by
  have hsame (name : Str) (hname : name ∈ plainKeywords) := (halike.plain name hname).symm
  have hclosed (shape : Shape) (hnone : shape.inner = []) :
      FailAlike alike (.ok shape : Except Fault Shape) (.ok shape) :=
    .ok (halike.closed shape hnone)
  unfold Shape.ofType
  dsimp only
  rw [hsame "type" (by decide), hsame "minItems" (by decide), hsame "maxItems" (by decide),
    hsame "minimum" (by decide), hsame "maximum" (by decide), hsame "pattern" (by decide),
    hsame "default" (by decide)]
  split
  next => exact halike.object.map
  split
  next => exact .ok (halike.array _ _)
  -- the shapes of the other types have no schemas inside them
  split
  next => exact hclosed _ rfl
  split
  next => exact hclosed _ rfl
  split
  next => exact hclosed _ rfl
  split
  next => exact hclosed _ rfl
  next => exact hclosed _ rfl

/-- The shapes of schemas whose own references are ignored are alike. -/
theorem ofSchema :
    FailAlike alike (Shape.ofSchema (.obj fields)) (Shape.ofSchema (.obj fields')) := by
  unfold Shape.ofSchema
  dsimp only
  rw [← halike.truthy, ← halike.plain "enum" (by decide)]
  split
  next => exact halike.anyOf.map
  split
  next =>
    cases (fields.get "enum").elements with
    | ok values => exact .ok (halike.closed _ rfl)
    | error cause => exact .error cause
  next => exact halike.ofType

end KeywordsAlike

/-- Two lists of related alternatives, or the same value that is no list. -/
inductive VariantsAlike (related : Json → Json → Prop) : Json → Json → Prop
  | listed {variants variants' : List Json} (hvariants : List.Forall₂ related variants variants') :
      VariantsAlike related (.arr variants) (.arr variants')
  | same {value : Json} (hother : ∀ variants, value ≠ .arr variants) :
      VariantsAlike related value value

/-- Elements of what is no list are texts. -/
theorem exists_str_of_mem_elements {value : Json} (hother : ∀ items, value ≠ .arr items)
    {elements : List Json} (helements : value.elements = .ok elements) {element : Json}
    (hmem : element ∈ elements) : ∃ text, element = .str text := by
  cases value with
  | arr items => exact absurd rfl (hother items)
  | str text =>
      cases helements
      obtain ⟨c, -, rfl⟩ := List.mem_map.mp hmem
      exact ⟨_, rfl⟩
  | obj fields =>
      cases helements
      obtain ⟨field, -, rfl⟩ := List.mem_map.mp hmem
      exact ⟨_, rfl⟩
  | _ => cases helements

namespace VariantsAlike

variable {related : Json → Json → Prop} {variants variants' : Json}
  (hvariants : VariantsAlike related variants variants')

include hvariants

theorem truthy : variants.truthy = variants'.truthy := by
  cases hvariants with
  | listed hlisted => cases hlisted <;> rfl
  | same _ => rfl

theorem elements (htext : ∀ text, related (.str text) (.str text)) :
    FailAlike (List.Forall₂ related) variants.elements variants'.elements := by
  cases hvariants with
  | listed hlisted => exact .ok hlisted
  | same hother =>
      cases helements : variants.elements with
      | ok elements =>
          refine .ok (List.forall₂_same.mpr fun element hmem => ?_)
          obtain ⟨text, rfl⟩ := exists_str_of_mem_elements hother helements hmem
          exact htext text
      | error cause => exact .error cause

end VariantsAlike

/-- A schema that is no object asks for null. -/
theorem ofSchema_remark {schema : Json} (hother : ∀ fields, schema ≠ .obj fields) :
    Shape.ofSchema schema = .ok (.constant .null) := by
  cases schema with
  | obj fields => exact absurd rfl (hother fields)
  | _ => rfl

theorem reference?_remark {schema : Json} (hother : ∀ fields, schema ≠ .obj fields) :
    Node.reference? schema = none := by
  cases schema with
  | obj fields => exact absurd rfl (hother fields)
  | _ => rfl

/-! ## Shapes of equivalent schemas -/

theorem equivalent_str (text : Str) : Equivalent (.str text) (.str text) :=
  .remark (by simp) (by simp)

theorem forall₂_properties {related : Json → Json → Prop} {properties properties' : Fields}
    (hnames : properties.names = properties'.names)
    (hschemas : List.Forall₂ related (properties.map (·.2)) (properties'.map (·.2))) :
    List.Forall₂
      (fun property property' => property.1 = property'.1 ∧ related property.2 property'.2)
      properties properties' := by
  induction properties generalizing properties' with
  | nil =>
      cases properties' with
      | nil => exact .nil
      | cons property' rest' => cases hnames
  | cons property rest ih =>
      cases properties' with
      | nil => cases hnames
      | cons property' rest' =>
          obtain ⟨hname, hnames⟩ := List.cons.inj hnames
          obtain ⟨hschema, hschemas⟩ := List.forall₂_cons.mp hschemas
          exact .cons ⟨hname, hschema⟩ (ih hnames hschemas)

theorem alike_of_properties {properties properties' : Json}
    (hproperties : EquivalentProperties properties properties') {required required' : List Json}
    (hrequired : Shape.RequireAlike required required') :
    Shape.Alike Equivalent
      (.object (if properties.truthy then properties else .obj []) required)
      (.object (if properties'.truthy then properties' else .obj []) required') := by
  cases hproperties with
  | declared hnames hschemas =>
      rw [listed_properties, listed_properties]
      exact .object hrequired (forall₂_properties hnames hschemas)
  | same hother =>
      split
      next => exact .undeclared hother
      next => exact .object hrequired .nil

/-- Requirements that are listed make the shapes of objects alike if their properties are. -/
theorem alike_of_requirements {properties properties' required required' : Json}
    (hproperties : EquivalentProperties properties properties')
    (hrequired : SameRequirements required required') :
    FailAlike
      (fun listed listed' => Shape.Alike Equivalent
        (.object (if properties.truthy then properties else .obj []) listed)
        (.object (if properties'.truthy then properties' else .obj []) listed'))
      (if required.truthy then required.elements else .ok [])
      (if required'.truthy then required'.elements else .ok []) := by
  cases hrequired with
  | @listed listed listed' hlisted =>
      have helements (items : List Json) :
          (if (Json.arr items).truthy then (Json.arr items).elements else .ok []) =
            Except.ok items := by
        cases items <;> rfl
      rw [helements, helements]
      exact .ok (alike_of_properties hproperties hlisted)
  | same value =>
      cases (if required.truthy then required.elements else .ok []) with
      | ok elements => exact .ok (alike_of_properties hproperties fun _ => Iff.rfl)
      | error cause => exact .error cause

theorem EquivalentVariants.alike {variants variants' : Json}
    (hvariants : EquivalentVariants variants variants') :
    VariantsAlike Equivalent variants variants' := by
  cases hvariants with
  | listed hlisted => exact .listed hlisted
  | same hother => exact .same hother

theorem EquivalentItems.alike {items items' : Json} (hitems : EquivalentItems items items')
    (minItems maxItems : Json) :
    Shape.Alike Equivalent (.array items minItems maxItems) (.array items' minItems maxItems) := by
  cases hitems with
  | absent => exact .closed rfl
  | present hpresent hpresent' hitems => exact .array hpresent hpresent' hitems

/-- Equivalent schemas whose own references are ignored have shapes that are alike. -/
theorem Equivalent.ofSchema {schema schema' : Json} (hequivalent : Equivalent schema schema') :
    FailAlike (Shape.Alike Equivalent) (Shape.ofSchema schema) (Shape.ofSchema schema') := by
  cases hequivalent with
  | remark hother hother' =>
      rw [ofSchema_remark hother, ofSchema_remark hother']
      exact .ok (.closed rfl)
  | @object fields fields' hplain hrequired hvariants hproperties hitems =>
      have halike : KeywordsAlike (Shape.Alike Equivalent) fields fields' :=
        { plain := hplain
          truthy := hvariants.alike.truthy
          anyOf := (hvariants.alike.elements equivalent_str).imp fun _ _ => .anyOf
          object := alike_of_requirements hproperties hrequired
          array := hitems.alike
          closed := fun _ hnone => .closed hnone }
      exact halike.ofSchema

theorem Equivalent.reference? {schema schema' : Json} (hequivalent : Equivalent schema schema') :
    Node.reference? schema = Node.reference? schema' := by
  cases hequivalent with
  | remark hother hother' => rw [reference?_remark hother, reference?_remark hother']
  | object hplain _ _ _ _ =>
      simp only [Node.reference?]
      rw [hplain "$ref" (by decide)]

/-! ## Roots with like definitions -/

/-- Two definitions with the same identifier, as far as it can be looked up, and with related
schemas. The names under which they stand do not count. -/
structure Definition.Corresponds (related : Json → Json → Prop)
    (definition definition' : Definition) :
    Prop where
  identifier : definition.identifier.key? = definition'.identifier.key?
  schema : related (.obj definition.schema) (.obj definition'.schema)

/-- Two roots without definitions, or with corresponding definitions in the same order. -/
def CorrespondingRoots (related : Json → Json → Prop) (root root' : Json) : Prop :=
  Option.Rel (List.Forall₂ (Definition.Corresponds related)) (Definition.ofRoot? root)
    (Definition.ofRoot? root')

section Corresponding

variable {related : Json → Json → Prop} {definitions definitions' : List Definition}
  (hdefinitions : List.Forall₂ (Definition.Corresponds related) definitions definitions')

include hdefinitions

theorem identifiable_of_forall₂ :
    (∀ definition ∈ definitions, definition.identifier.key?.isSome) ↔
      ∀ definition ∈ definitions', definition.identifier.key?.isSome := by
  induction hdefinitions with
  | nil => exact Iff.rfl
  | cons hfirst _ ih => rw [List.forall_mem_cons, List.forall_mem_cons, hfirst.identifier, ih]

theorem scan?_corresponding (key : Json.Key) :
    Option.Rel (fun schema schema' => related (.obj schema) (.obj schema'))
      (Definition.scan? definitions key) (Definition.scan? definitions' key) := by
  induction hdefinitions with
  | nil => exact .none
  | @cons definition definition' _ _ hfirst _ ih =>
      have hcarries : definition.carries key = definition'.carries key := by
        rw [Definition.carries_eq, Definition.carries_eq, hfirst.identifier]
      rw [Definition.scan?_cons, Definition.scan?_cons, hcarries]
      split
      next => exact .some hfirst.schema
      next => exact ih

end Corresponding

namespace CorrespondingRoots

variable {related : Json → Json → Prop} {root root' : Json}
  (hroots : CorrespondingRoots related root root')

include hroots

theorem identifiable_iff : Definition.Identifiable root ↔ Definition.Identifiable root' := by
  unfold CorrespondingRoots at hroots
  unfold Definition.Identifiable
  generalize Definition.ofRoot? root = found at hroots
  generalize Definition.ofRoot? root' = found' at hroots
  cases hroots with
  | none => exact Iff.rfl
  | some hdefinitions =>
      simp only [Option.some.injEq, forall_eq']
      exact identifiable_of_forall₂ hdefinitions

/-- The scopes of corresponding roots fail alike on a reference, or give related definitions. -/
theorem resolve {scope scope' : Scope} (hscope : Scope.ofRoot root = .ok scope)
    (hscope' : Scope.ofRoot root' = .ok scope') (reference : Json) :
    FailAlike related (scope.resolve reference) (scope'.resolve reference) := by
  rw [Scope.resolve_ofRoot hscope, Scope.resolve_ofRoot hscope']
  unfold CorrespondingRoots at hroots
  generalize Definition.ofRoot? root = found at hroots
  generalize Definition.ofRoot? root' = found' at hroots
  cases hroots with
  | none => exact .error _
  | @some definitions definitions' hdefinitions =>
      cases reference.asKey with
      | error cause => exact .error _
      | ok key =>
          have hscan := scan?_corresponding hdefinitions key
          dsimp only
          generalize Definition.scan? definitions key = found at hscan
          generalize Definition.scan? definitions' key = found' at hscan
          cases hscan with
          | none => exact .error _
          | some hschema => exact .ok hschema

end CorrespondingRoots

/-- Two roots without definitions, or with equivalent definitions in the same order. -/
abbrev EquivalentRoots : Json → Json → Prop := CorrespondingRoots Equivalent

end Exemplar
