import Exemplar.Proofs.Generation.Bisimulation

/-!
# Positions in a schema

A position leads from a schema to a schema inside it, through the properties of
objects, the items of arrays and listed alternatives. Another schema can be put at
a position; what else the schema asks for stays the same on every level on the
way.
-/

namespace Exemplar

namespace Fields

theorem get_set (fields : Fields) (name : Str) (value : Json) (other : Str) :
    (set fields name value).get other = if other = name then value else fields.get other := by
  unfold get
  rw [get?_set]
  split <;> rfl

/-- The fields but those of a name. -/
def without (fields : Fields) (name : Str) : Fields := fields.filter (·.1 != name)

theorem get_cons (field : Str × Json) (rest : Fields) (name : Str) :
    get (field :: rest) name = if field.1 = name then field.2 else rest.get name := by
  unfold get get?
  rw [List.find?_cons]
  by_cases heq : field.1 = name
  · simp [heq]
  · rw [beq_false_of_ne heq, if_neg heq]

theorem get_without (fields : Fields) (name other : Str) :
    (fields.without name).get other = if other = name then .null else fields.get other := by
  unfold without
  induction fields with
  | nil =>
      split
      · rfl
      · rfl
  | cons field rest ih =>
      rw [List.filter_cons, get_cons]
      by_cases hname : field.1 = name
      · rw [if_neg (by simpa using hname), ih]
        by_cases hother : other = name
        · rw [if_pos hother, if_pos hother]
        · rw [if_neg hother, if_neg hother, if_neg (hname ▸ Ne.symm hother)]
      · rw [if_pos (by simpa using hname), get_cons, ih]
        by_cases hother : other = name
        · rw [if_pos hother, if_pos hother, if_neg (hother ▸ hname)]
        · rw [if_neg hother, if_neg hother]

theorem sizeOf_get_lt (fields : Fields) (name : Str) :
    sizeOf (fields.get name) < sizeOf (Json.obj fields) := by
  rw [Json.obj.sizeOf_spec]
  induction fields with
  | nil => simp [get, get?]
  | cons field rest ih =>
      obtain ⟨first, value⟩ := field
      rw [get_cons, List.cons.sizeOf_spec, Prod.mk.sizeOf_spec]
      dsimp only
      split <;> omega

end Fields

/-! ## Steps -/

/-- A step from a schema to a schema inside it. Places count from zero in the order of
declaration. -/
inductive Position.Step where
  | property (place : Nat)
  | items
  | variant (place : Nat)
deriving DecidableEq

/-- The steps to a schema inside another one, the outermost first. -/
abbrev Position := List Position.Step

namespace Position

/-- The schema that a step leads to within the keywords of a schema. -/
def Step.inner? (fields : Fields) : Step → Option Json
  | .property place =>
      match fields.get "properties" with
      | .obj properties => properties[place]?.map (·.2)
      | _ => none
  | .items =>
      match fields.get "items" with
      | .null => none
      | schema => some schema
  | .variant place =>
      match fields.get "anyOf" with
      | .arr variants => variants[place]?
      | _ => none

theorem Step.inner?_of_variant {fields : Fields} {variants : List Json} {variant : Json}
    (hvariants : fields.get "anyOf" = .arr variants) (hmem : variant ∈ variants) :
    ∃ step : Step, step.inner? fields = some variant := by
  obtain ⟨place, hplace⟩ := List.mem_iff_getElem?.mp hmem
  exact ⟨.variant place, by rw [inner?, hvariants]; exact hplace⟩

theorem Step.inner?_of_property {fields properties : Fields} {schema : Json}
    (hproperties : fields.get "properties" = .obj properties)
    (hmem : schema ∈ properties.map (·.2)) :
    ∃ step : Step, step.inner? fields = some schema := by
  obtain ⟨property, hlisted, rfl⟩ := List.mem_map.mp hmem
  obtain ⟨place, hplace⟩ := List.mem_iff_getElem?.mp hlisted
  exact ⟨.property place, by simp only [inner?, hproperties, hplace, Option.map_some]⟩

theorem Step.inner?_items {fields : Fields} (hitems : fields.get "items" ≠ .null) :
    Step.items.inner? fields = some (fields.get "items") := by
  rw [inner?]
  split
  next hnull => exact absurd hnull hitems
  next => rfl

/-- A step leads to a smaller schema. -/
theorem Step.sizeOf_inner?_lt {fields : Fields} {step : Step} {schema : Json}
    (hinner : step.inner? fields = some schema) : sizeOf schema < sizeOf (Json.obj fields) := by
  cases step with
  | property place =>
      rw [inner?] at hinner
      split at hinner
      next properties hproperties =>
        have hwhole := fields.sizeOf_get_lt "properties"
        obtain ⟨⟨name, value⟩, hplace, rfl⟩ := Option.map_eq_some_iff.mp hinner
        have hpart := List.sizeOf_lt_of_mem (List.mem_of_getElem? hplace)
        rw [hproperties, Json.obj.sizeOf_spec] at hwhole
        rw [Prod.mk.sizeOf_spec] at hpart
        dsimp only
        omega
      next => cases hinner
  | items =>
      rw [inner?] at hinner
      split at hinner
      next => cases hinner
      next =>
        cases hinner
        exact fields.sizeOf_get_lt "items"
  | variant place =>
      rw [inner?] at hinner
      split at hinner
      next variants hvariants =>
        have hwhole := fields.sizeOf_get_lt "anyOf"
        have hpart := List.sizeOf_lt_of_mem (List.mem_of_getElem? hinner)
        rw [hvariants, Json.arr.sizeOf_spec] at hwhole
        omega
      next => cases hinner

/-- What holds of a schema if it holds of the schemas inside it holds of every schema. -/
theorem innerInduction {motive : Json → Prop}
    (other : ∀ schema, (∀ fields, schema ≠ .obj fields) → motive schema)
    (object : ∀ fields : Fields,
      (∀ inner, (∃ step : Step, step.inner? fields = some inner) → motive inner) →
        motive (.obj fields))
    (schema : Json) : motive schema := by
  induction hsize : sizeOf schema using Nat.strongRecOn generalizing schema with
  | ind size ih =>
      cases schema with
      | obj fields =>
          refine object fields fun inner ⟨step, hstep⟩ => ?_
          exact ih _ (hsize ▸ Step.sizeOf_inner?_lt hstep) inner rfl
      | _ => exact other _ (by simp)

/-- The keywords of a schema with another schema where a step leads. -/
def Step.put (fields : Fields) (schema : Json) : Step → Fields
  | .property place =>
      match fields.get "properties" with
      | .obj properties =>
          fields.set "properties"
            (.obj (properties.modify place fun property => (property.1, schema)))
      | _ => fields
  | .items => fields.set "items" schema
  | .variant place =>
      match fields.get "anyOf" with
      | .arr variants => fields.set "anyOf" (.arr (variants.set place schema))
      | _ => fields

end Position

namespace Json

/-- The schema at a position. -/
def at? (schema : Json) : Position → Option Json
  | [] => some schema
  | step :: rest =>
      match schema with
      | obj fields => (step.inner? fields).bind fun inner => inner.at? rest
      | _ => none

/-- The schema with another one put at a position. -/
def putAt (schema other : Json) : Position → Json
  | [] => other
  | step :: rest =>
      match schema with
      | obj fields =>
          match step.inner? fields with
          | some inner => obj (step.put fields (inner.putAt other rest))
          | none => schema
      | _ => schema

end Json

/-- No schema at any position has a reference that counts. -/
def ReferenceFree (schema : Json) : Prop :=
  ∀ position inner, schema.at? position = some inner → Node.reference? inner = none

/-! ## Shapes along a step -/

namespace Position.Step

theorem get_put_of_ne (step : Step) (fields : Fields) (schema : Json) {name : Str}
    (hproperties : name ≠ "properties") (hitems : name ≠ "items") (hvariants : name ≠ "anyOf") :
    (step.put fields schema).get name = fields.get name := by
  cases step with
  | property place =>
      rw [put]
      split
      · rw [Fields.get_set, if_neg hproperties]
      · rfl
  | items => rw [put, Fields.get_set, if_neg hitems]
  | variant place =>
      rw [put]
      split
      · rw [Fields.get_set, if_neg hvariants]
      · rfl

theorem reference?_put (step : Step) (fields : Fields) (schema : Json) :
    Node.reference? (.obj (step.put fields schema)) = Node.reference? (.obj fields) := by
  have hkept : (step.put fields schema).get "$ref" = fields.get "$ref" :=
    step.get_put_of_ne fields schema (by decide) (by decide) (by decide)
  simp only [Node.reference?, hkept]

end Position.Step

/-- Listed properties are taken as they are, even if there are none. -/
theorem listed_properties (properties : Fields) :
    (if (Json.obj properties).truthy then Json.obj properties else .obj []) = .obj properties := by
  cases properties <;> rfl

section Related

variable {related : Json → Json → Prop} (hrefl : ∀ schema, related schema schema)

include hrefl

theorem forall₂_set {variants : List Json} {place : Nat} {schema schema' : Json}
    (hplace : variants[place]? = some schema) (hschema : related schema schema') :
    List.Forall₂ related variants (variants.set place schema') := by
  induction variants generalizing place with
  | nil => cases hplace
  | cons first rest ih =>
      cases place with
      | zero =>
          cases hplace
          exact .cons hschema (List.forall₂_same.mpr fun variant _ => hrefl variant)
      | succ place => exact .cons (hrefl first) (ih hplace)

theorem forall₂_modify {properties : List (Str × Json)} {place : Nat} {schema schema' : Json}
    (hplace : properties[place]?.map (·.2) = some schema) (hschema : related schema schema') :
    List.Forall₂
      (fun property property' => property.1 = property'.1 ∧ related property.2 property'.2)
      properties (properties.modify place fun property => (property.1, schema')) := by
  induction properties generalizing place with
  | nil => cases hplace
  | cons first rest ih =>
      cases place with
      | zero =>
          cases hplace
          exact .cons ⟨rfl, hschema⟩
            (List.forall₂_same.mpr fun property _ => ⟨rfl, hrefl property.2⟩)
      | succ place => exact .cons ⟨rfl, hrefl first.2⟩ (ih hplace)

theorem levelAlike_refl (result : Except Fault Shape) : LevelAlike related result result :=
  levelAlike_self fun _ _ schema _ => hrefl schema

theorem levelAlike_ofType_properties {fields : Fields} {properties properties' : List (Str × Json)}
    (heq : fields.get "properties" = .obj properties)
    (hproperties : List.Forall₂
      (fun property property' => property.1 = property'.1 ∧ related property.2 property'.2)
      properties properties') :
    LevelAlike related (Shape.ofType fields)
      (Shape.ofType (fields.set "properties" (.obj properties'))) := by
  simp only [Shape.ofType, Fields.get_set, Str.plain.injEq, String.reduceEq, if_false, if_true, heq,
    listed_properties]
  by_cases htype : fields.get "type" = .str "object"
  · rw [if_pos htype, if_pos htype]
    cases (if (fields.get "required").truthy then (fields.get "required").elements else .ok []) with
    | ok required => exact .object (fun _ => Iff.rfl) hproperties
    | error cause => exact rfl
  · rw [if_neg htype, if_neg htype]
    exact levelAlike_refl hrefl _

theorem levelAlike_ofType_items {fields : Fields} {items' : Json}
    (hpresent : fields.get "items" ≠ .null) (hpresent' : items' ≠ .null)
    (hitems : related (fields.get "items") items') :
    LevelAlike related (Shape.ofType fields) (Shape.ofType (fields.set "items" items')) := by
  simp only [Shape.ofType, Fields.get_set, Str.plain.injEq, String.reduceEq, if_false,
    if_true]
  by_cases hobject : fields.get "type" = .str "object"
  · rw [if_pos hobject, if_pos hobject]
    exact levelAlike_refl hrefl _
  · rw [if_neg hobject, if_neg hobject]
    by_cases harray : fields.get "type" = .str "array"
    · rw [if_pos harray, if_pos harray]
      exact .array hpresent hpresent' hitems
    · rw [if_neg harray, if_neg harray]
      exact levelAlike_refl hrefl _

/-- Another schema put where a step leads changes the shape in that schema alone. -/
theorem levelAlike_ofSchema_put (step : Position.Step) {fields : Fields} {schema schema' : Json}
    (hinner : step.inner? fields = some schema) (hpresent : schema' ≠ .null)
    (hschema : related schema schema') :
    LevelAlike related (Shape.ofSchema (.obj fields))
      (Shape.ofSchema (.obj (step.put fields schema'))) := by
  cases step with
  | property place =>
      rw [Position.Step.inner?] at hinner
      split at hinner
      next properties hproperties =>
        have hlist := forall₂_modify hrefl hinner hschema
        simp only [Shape.ofSchema, Position.Step.put, hproperties, Fields.get_set,
          Str.plain.injEq, String.reduceEq,
          if_false]
        split
        · exact levelAlike_refl hrefl _
        split
        · exact levelAlike_refl hrefl _
        · exact levelAlike_ofType_properties hrefl hproperties hlist
      next => cases hinner
  | items =>
      rw [Position.Step.inner?] at hinner
      split at hinner
      next => cases hinner
      next items hitems =>
        cases hinner
        simp only [Shape.ofSchema, Position.Step.put, Fields.get_set, Str.plain.injEq,
          String.reduceEq, if_false]
        split
        · exact levelAlike_refl hrefl _
        split
        · exact levelAlike_refl hrefl _
        · exact levelAlike_ofType_items hrefl hitems hpresent hschema
  | variant place =>
      rw [Position.Step.inner?] at hinner
      split at hinner
      next variants hvariants =>
        have hlist := forall₂_set hrefl hinner hschema
        have htruthy : ∀ variants : List Json, 0 < variants.length →
            (Json.arr variants).truthy = true := by
          intro variants hlength
          cases variants with
          | nil => exact absurd hlength (Nat.lt_irrefl 0)
          | cons first rest => rfl
        have hlength : 0 < variants.length :=
          Nat.zero_lt_of_lt (List.getElem?_eq_some_iff.mp hinner).1
        simp only [Shape.ofSchema, Position.Step.put, hvariants, Fields.get_set, if_true]
        rw [if_pos (htruthy variants hlength), if_pos (htruthy _ (by rwa [List.length_set]))]
        exact .anyOf hlist
      next => cases hinner

end Related

/-! ## Schemas without references -/

/-- What stands inside the shape of a schema stands one step inside the schema, or is a text that
was taken for a list of alternatives. -/
theorem inner?_of_mem_inner {fields : Fields} {shape : Shape} {schema : Json}
    (hshape : Shape.ofSchema (.obj fields) = .ok shape) (hmem : schema ∈ shape.inner) :
    (∃ step, Position.Step.inner? fields step = some schema) ∨ ∃ text, schema = .str text := by
  unfold Shape.ofSchema at hshape
  dsimp only at hshape
  split at hshape
  next =>
    obtain ⟨variants, hvariants, rfl⟩ := map_eq_ok.mp hshape
    cases hlist : fields.get "anyOf" with
    | arr listed =>
        rw [hlist] at hvariants
        cases hvariants
        exact Or.inl (Position.Step.inner?_of_variant hlist hmem)
    | str text =>
        rw [hlist] at hvariants
        cases hvariants
        obtain ⟨c, -, rfl⟩ := List.mem_map.mp hmem
        exact Or.inr ⟨_, rfl⟩
    | obj listed =>
        rw [hlist] at hvariants
        cases hvariants
        obtain ⟨field, -, rfl⟩ := List.mem_map.mp hmem
        exact Or.inr ⟨_, rfl⟩
    | _ => simp [hlist, Json.elements] at hvariants
  next =>
  split at hshape
  next =>
    obtain ⟨values, -, rfl⟩ := map_eq_ok.mp hshape
    cases hmem
  next =>
  unfold Shape.ofType at hshape
  dsimp only at hshape
  split at hshape
  next =>
    obtain ⟨required, -, rfl⟩ := map_eq_ok.mp hshape
    cases hproperties : fields.get "properties" with
    | obj properties =>
        rw [hproperties] at hmem
        have hproperty : schema ∈ properties.map (·.2) := by
          cases properties with
          | nil => cases hmem
          | cons first rest => exact hmem
        exact Or.inl (Position.Step.inner?_of_property hproperties hproperty)
    | _ =>
        rw [hproperties] at hmem
        split at hmem <;> cases hmem
  next =>
  split at hshape
  next =>
    cases hshape
    by_cases hitems : fields.get "items" = .null
    · rw [hitems] at hmem
      cases hmem
    · rw [Shape.inner_array hitems, List.mem_singleton] at hmem
      exact Or.inl ⟨.items, hmem ▸ Position.Step.inner?_items hitems⟩
  next =>
    -- the shapes of the other types have no schemas inside them
    split at hshape
    · cases hshape
      cases hmem
    split at hshape
    · cases hshape
      cases hmem
    split at hshape
    · cases hshape
      cases hmem
    split at hshape
    · cases hshape
      cases hmem
    · cases hshape
      cases hmem

theorem referenceFree_of_not_obj {schema : Json} (hother : ∀ fields, schema ≠ .obj fields) :
    ReferenceFree schema := by
  intro position inner hat
  cases position with
  | nil =>
      cases hat
      cases schema with
      | obj fields => exact absurd rfl (hother fields)
      | _ => rfl
  | cons step rest =>
      cases schema with
      | obj fields => exact absurd rfl (hother fields)
      | _ => cases hat

theorem ReferenceFree.inner {schema inner : Json} {shape : Shape} (hfree : ReferenceFree schema)
    (hshape : Shape.ofSchema schema = .ok shape) (hmem : inner ∈ shape.inner) :
    ReferenceFree inner := by
  cases schema with
  | obj fields =>
      rcases inner?_of_mem_inner hshape hmem with ⟨step, hstep⟩ | ⟨text, rfl⟩
      · intro position deeper hat
        refine hfree (step :: position) deeper ?_
        rw [Json.at?, hstep]
        exact hat
      · exact referenceFree_of_not_obj (by simp)
  | _ =>
      cases hshape
      cases hmem

end Exemplar
