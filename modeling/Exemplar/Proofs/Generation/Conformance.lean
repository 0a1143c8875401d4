import Exemplar.Proofs.Generation.Choice
import Exemplar.Proofs.Schema.Lookup

/-!
# Conformance

What values a schema admits is told by rules on its keywords alone, without a
run: a reference admits what its definition admits with its own reference
ignored, alternatives admit what one of them admits, a list of values admits
these, and everything else is a matter of the type. Every value that a run ends
with conforms to its schema.
-/

namespace Exemplar

open Run

/-- A value that counts as present, or else a fallback. -/
def Json.presentOr (value fallback : Json) : Json := if value.truthy then value else fallback

/-- The definition that a reference names in a root schema: the first that carries it. -/
def Names (root reference : Json) (definition : Fields) : Prop :=
  ∃ definitions key, Definition.ofRoot? root = some definitions ∧
    reference.key? = some key ∧ Definition.scan? definitions key = some definition

/-- Between two bounds wherever these are integers in order. -/
def Between (lower upper : Json) (n : Int) : Prop :=
  ∀ low high : Int, lower.asInt = .ok low → upper.asInt = .ok high → low ≤ high →
    low ≤ n ∧ n ≤ high

/-- No keyword takes precedence over the type. A reference does only where it is followed. -/
structure Plain (follows : Bool) (fields : Fields) : Prop where
  reference : follows = true → (fields.get "$ref").truthy = false
  variants : (fields.get "anyOf").truthy = false
  values : (fields.get "enum").truthy = false

/-- The types that have rules of their own. -/
def typeNames : List Json :=
  [.str "object", .str "array", .str "boolean", .str "integer", .str "number", .str "string"]

/-- A schema admits a value in the scope of a root schema. `follows` tells whether a reference of
the schema itself counts. -/
inductive Conforms (config : Config) (root : Json) : (follows : Bool) → (schema value : Json) → Prop
  | remark {follows : Bool} {schema : Json} (hother : ∀ fields, schema ≠ .obj fields) :
      Conforms config root follows schema .null
  | reference {fields definition : Fields} {value : Json}
      (hpresent : (fields.get "$ref").truthy = true)
      (hnames : Names root (fields.get "$ref") definition)
      (hvalue : Conforms config root false (.obj definition) value) :
      Conforms config root true (.obj fields) value
  | variant {follows : Bool} {fields : Fields} {variants : List Json} {variant value : Json}
      (hreference : follows = true → (fields.get "$ref").truthy = false)
      (hpresent : (fields.get "anyOf").truthy = true)
      (hvariants : (fields.get "anyOf").elements = .ok variants) (hmem : variant ∈ variants)
      (hvalue : Conforms config root true variant value) :
      Conforms config root follows (.obj fields) value
  | listed {follows : Bool} {fields : Fields} {values : List Json} {value : Json}
      (hreference : follows = true → (fields.get "$ref").truthy = false)
      (hvariants : (fields.get "anyOf").truthy = false)
      (hpresent : (fields.get "enum").truthy = true)
      (hvalues : (fields.get "enum").elements = .ok values) (hmem : value ∈ values) :
      Conforms config root follows (.obj fields) value
  | object {follows : Bool} {fields declared : Fields} {required : List Json}
      {members : List (Member Json)} (hplain : Plain follows fields)
      (htype : fields.get "type" = .str "object")
      (hproperties : (fields.get "properties").presentOr (.obj []) = .obj declared)
      (hrequired : ((fields.get "required").presentOr (.arr [])).elements = .ok required)
      (hselected : SelectedFrom declared required members)
      (hvalues : ∀ member ∈ members, Conforms config root true member.schema member.value) :
      Conforms config root follows (.obj fields) (.obj (members.map Member.field))
  | emptyArray {follows : Bool} {fields : Fields} (hplain : Plain follows fields)
      (htype : fields.get "type" = .str "array") (hitems : fields.get "items" = .null) :
      Conforms config root follows (.obj fields) (.arr [])
  | array {follows : Bool} {fields : Fields} {count : Int} {values : List Json}
      (hplain : Plain follows fields) (htype : fields.get "type" = .str "array")
      (hitems : fields.get "items" ≠ .null)
      (hcount : Between ((fields.get "minItems").orElse config.defaultMinItems)
        ((fields.get "maxItems").orElse config.defaultMaxItems) count)
      (hlength : values.length = count.toNat)
      (hvalues : ∀ value ∈ values, Conforms config root true (fields.get "items") value) :
      Conforms config root follows (.obj fields) (.arr values)
  | boolean {follows : Bool} {fields : Fields} {value : Bool} (hplain : Plain follows fields)
      (htype : fields.get "type" = .str "boolean") :
      Conforms config root follows (.obj fields) (.bool value)
  | integer {follows : Bool} {fields : Fields} {chosen : Number} (hplain : Plain follows fields)
      (htype : fields.get "type" = .str "integer")
      (hchosen : ∀ low high : Int,
        ((fields.get "minimum").orElse config.defaultMinimum).asInt = .ok low →
        ((fields.get "maximum").orElse config.defaultMaximum).asInt = .ok high → low ≤ high →
        ∃ n, chosen = .int n ∧ low ≤ n ∧ n ≤ high) :
      Conforms config root follows (.obj fields) (.number chosen)
  | number {follows : Bool} {fields : Fields} {amount rounded : Double} {places : Int}
      (hplain : Plain follows fields) (htype : fields.get "type" = .str "number")
      (hplaces : config.numberPrecision.asInt = .ok places)
      (hrounded : amount.round places = .ok rounded) :
      Conforms config root follows (.obj fields) (.float rounded)
  | placeholder {follows : Bool} {fields : Fields} (hplain : Plain follows fields)
      (htype : fields.get "type" = .str "string")
      (hpattern : (fields.get "pattern").truthy = true) :
      Conforms config root follows (.obj fields) config.patternPlaceholder
  | text {follows : Bool} {fields : Fields} {count : Int} {text : String}
      (hplain : Plain follows fields) (htype : fields.get "type" = .str "string")
      (hpattern : (fields.get "pattern").truthy = false)
      (hcount : config.stringLength.asInt = .ok count) (hlength : text.length = count.toNat)
      (hletters : ∀ c ∈ text.toList, c.isAlphanum = true) :
      Conforms config root follows (.obj fields) (.str text)
  | constant {follows : Bool} {fields : Fields} (hplain : Plain follows fields)
      (htype : fields.get "type" ∉ typeNames) :
      Conforms config root follows (.obj fields) (fields.get "default")

theorem isAlphanum_of_mem_alphabet : ∀ c ∈ alphabet, c.isAlphanum = true := by
  have hall : alphabet.all Char.isAlphanum = true := by decide +kernel
  exact List.all_eq_true.mp hall

section Soundness

variable {config : Config} {root : Json} {child : Json → Run Json}
  (hchild : ∀ schema, (child schema).Ensures (Conforms config root true schema) (fun _ => True))

include hchild

theorem expand_object_conforms {follows : Bool} {fields : Fields} {required : List Json}
    (hplain : Plain follows fields) (htype : fields.get "type" = .str "object")
    (hrequired : ((fields.get "required").presentOr (.arr [])).elements = .ok required) :
    (expand config child
      (.object ((fields.get "properties").presentOr (.obj [])) required)).Ensures
        (Conforms config root follows (.obj fields)) (fun _ => True) := by
  cases hproperties : (fields.get "properties").presentOr (.obj []) with
  | obj declared =>
      refine (ensures_fieldsOnto declared [] (fun _ _ => trivial)
        (fun property _ => hchild property.2)).map ?_
      rintro made ⟨members, hselected, rfl, hvalues⟩
      exact .object hplain htype hproperties hrequired hselected hvalues
  | _ => exact ensures_fail trivial

theorem expand_array_conforms {follows : Bool} {fields : Fields} (hplain : Plain follows fields)
    (htype : fields.get "type" = .str "array") :
    (expand config child
      (.array (fields.get "items") (fields.get "minItems") (fields.get "maxItems"))).Ensures
        (Conforms config root follows (.obj fields)) (fun _ => True) := by
  by_cases hitems : fields.get "items" = .null
  · rw [hitems]
    exact ensures_pure (.emptyArray hplain htype hitems)
  · refine (ensures_expand_array hitems (ensures_spread _ _) (fun _ _ _ _ => trivial)
      (hchild _)).mono ?_ fun _ => id
    rintro value ⟨count, values, hcount, rfl, hlength, hvalues⟩
    refine .array hplain htype hitems (fun low high hlow hhigh hle => ?_) hlength hvalues
    obtain ⟨n, heq, hbounds⟩ := hcount low high hlow hhigh hle
    cases heq
    exact hbounds

omit hchild in
theorem expand_string_conforms {follows : Bool} {fields : Fields} (hplain : Plain follows fields)
    (htype : fields.get "type" = .str "string") :
    (expand config child (.string (fields.get "pattern"))).Ensures
      (Conforms config root follows (.obj fields)) (fun _ => True) := by
  rw [expand]
  split
  next hpattern => exact ensures_pure (.placeholder hplain htype hpattern)
  next hpattern =>
    refine (ensures_word fun _ _ => trivial).map ?_
    rintro text ⟨count, hcount, hlength, hletters⟩
    exact .text hplain htype (Bool.eq_false_iff.mpr hpattern) hcount hlength
      fun c hc => isAlphanum_of_mem_alphabet c (hletters c hc)

/-- The values of the shape that the type selects conform. -/
theorem expand_ofType_conforms {follows : Bool} {fields : Fields} {shape : Shape}
    (hplain : Plain follows fields) (hshape : Shape.ofType fields = .ok shape) :
    (expand config child shape).Ensures (Conforms config root follows (.obj fields))
      (fun _ => True) := by
  unfold Shape.ofType at hshape
  dsimp only at hshape
  split at hshape
  next htype =>
    obtain ⟨required, hrequired, rfl⟩ := map_eq_ok.mp hshape
    apply expand_object_conforms hchild hplain htype
    unfold Json.presentOr
    split
    next hpresent => rwa [if_pos hpresent] at hrequired
    next habsent => rwa [if_neg habsent] at hrequired
  next hobject =>
  split at hshape
  next htype =>
    cases hshape
    exact expand_array_conforms hchild hplain htype
  next harray =>
  split at hshape
  next htype =>
    cases hshape
    exact ensures_draw.bind fun _ _ => ensures_pure (.boolean hplain htype)
  next hboolean =>
  split at hshape
  next htype =>
    cases hshape
    exact (ensures_spread _ _).map fun chosen hchosen => .integer hplain htype hchosen
  next hinteger =>
  split at hshape
  next htype =>
    cases hshape
    apply (ensures_point _ _ _).map
    rintro rounded ⟨amount, places, hplaces, hrounded⟩
    exact .number hplain htype hplaces hrounded
  next hnumber =>
  split at hshape
  next htype =>
    cases hshape
    exact expand_string_conforms hplain htype
  next hstring =>
    cases hshape
    refine ensures_pure (.constant hplain ?_)
    simp [typeNames, hobject, harray, hboolean, hinteger, hnumber, hstring]

/-- The values of a shape conform to the schema that it is the shape of. -/
theorem expand_conforms {follows : Bool} {schema : Json} {shape : Shape}
    (hreference : ∀ fields, schema = .obj fields → follows = true →
      (Fields.get fields "$ref").truthy = false)
    (hshape : Shape.ofSchema schema = .ok shape) :
    (expand config child shape).Ensures (Conforms config root follows schema)
      (fun _ => True) := by
  cases schema with
  | obj fields =>
      have hreference := hreference fields rfl
      unfold Shape.ofSchema at hshape
      dsimp only at hshape
      split at hshape
      next hpresent =>
        obtain ⟨variants, hvariants, rfl⟩ := map_eq_ok.mp hshape
        refine (ensures_pick variants).bind fun variant hmem => (hchild variant).mono ?_ fun _ => id
        exact fun value hvalue => .variant hreference hpresent hvariants hmem hvalue
      next hvariants =>
      split at hshape
      next hpresent =>
        obtain ⟨values, hvalues, rfl⟩ := map_eq_ok.mp hshape
        refine (ensures_pick values).mono (fun value hmem => ?_) fun _ => id
        exact .listed hreference (Bool.eq_false_iff.mpr hvariants) hpresent hvalues hmem
      next hvalues =>
        exact expand_ofType_conforms hchild
          ⟨hreference, Bool.eq_false_iff.mpr hvariants, Bool.eq_false_iff.mpr hvalues⟩ hshape
  | _ =>
      cases hshape
      exact ensures_pure (.remark (by simp))

end Soundness

theorem reference?_eq_some {fields : Fields} {target : Json}
    (htarget : Node.reference? (.obj fields) = some target) :
    (fields.get "$ref").truthy = true ∧ fields.get "$ref" = target := by
  simp only [Node.reference?] at htarget
  split at htarget
  next hpresent => exact ⟨hpresent, Option.some.inj htarget⟩
  next => cases htarget

theorem reference?_eq_none {fields : Fields} (hnone : Node.reference? (.obj fields) = none) :
    (fields.get "$ref").truthy = false := by
  simp only [Node.reference?] at hnone
  split at hnone
  next => cases hnone
  next habsent => exact Bool.eq_false_iff.mpr habsent

/-- What the scope of a root resolves a reference to is the definition that it names. -/
theorem names_of_resolve {root reference definition : Json} {scope : Scope}
    (hscope : Scope.ofRoot root = .ok scope) (hresolve : scope.resolve reference = .ok definition) :
    ∃ fields, definition = .obj fields ∧ Names root reference fields := by
  rw [Scope.resolve_ofRoot hscope] at hresolve
  cases hdefinitions : Definition.ofRoot? root with
  | none => simp [hdefinitions] at hresolve
  | some definitions =>
      cases hkey : reference.asKey with
      | error cause => simp [hdefinitions, hkey] at hresolve
      | ok key =>
          cases hscan : Definition.scan? definitions key with
          | none => simp [hdefinitions, hkey, hscan] at hresolve
          | some fields =>
              simp only [hdefinitions, hkey, hscan, Except.ok.injEq] at hresolve
              exact ⟨fields, hresolve.symm, definitions, key, hdefinitions, asKey_eq_ok.mp hkey,
                hscan⟩

/-- The definition that a reference names is what the scope of the root resolves it to. -/
theorem Names.resolve {root reference : Json} {definition : Fields} {scope : Scope}
    (hnames : Names root reference definition) (hscope : Scope.ofRoot root = .ok scope) :
    scope.resolve reference = .ok (.obj definition) := by
  obtain ⟨definitions, key, hdefinitions, hkey, hscan⟩ := hnames
  rw [Scope.resolve_ofRoot hscope]
  simp only [hdefinitions, asKey_eq_ok.mpr hkey, hscan]

/-- Every value that a run of any allowance ends with at any depth conforms to the schema. -/
theorem exampleAt_conforms (config : Config) {root : Json} {scope : Scope}
    (hscope : Scope.ofRoot root = .ok scope) (allowance depth : Nat) (schema : Json) :
    (exampleAt config scope allowance depth schema).Ensures (Conforms config root true schema)
      (fun _ => True) := by
  -- on the allowance: a reference leads back into the root, to no smaller schema
  induction allowance generalizing depth schema with
  | zero => exact ensures_unfinished
  | succ allowance ih =>
      apply (ensures_true (checkDepth config.maxDepth depth)).bind
      intro _ _
      have hshape : (attempt (shapeIn scope schema)).Ensures
          (fun shape => shapeIn scope schema = .ok shape) (fun _ => True) :=
        ensures_attempt (fun _ heq => heq) fun _ _ => trivial
      apply hshape.bind
      intro shape hshape
      rw [shapeIn_eq] at hshape
      -- with a reference the definition's own keywords decide, all but its reference
      cases htarget : Node.reference? schema with
      | none =>
          rw [htarget] at hshape
          refine expand_conforms (ih (depth + 1)) (fun fields hfields _ => ?_)
            (mapError_eq_ok.mp hshape)
          exact reference?_eq_none (hfields ▸ htarget)
      | some target =>
          rw [htarget] at hshape
          obtain ⟨definition, hresolve, hshape⟩ := bind_eq_ok.mp hshape
          obtain ⟨fields, rfl, hnames⟩ := names_of_resolve hscope hresolve
          have hvalues :
              (expand config (exampleAt config scope allowance (depth + 1)) shape).Ensures
              (Conforms config root false (.obj fields)) (fun _ => True) :=
            expand_conforms (ih (depth + 1))
              (fun _ _ hfollows => absurd hfollows Bool.false_ne_true)
              (mapError_eq_ok.mp hshape)
          refine hvalues.mono (fun value hvalue => ?_) fun _ => id
          cases schema with
          | obj referring =>
              obtain ⟨hpresent, rfl⟩ := reference?_eq_some htarget
              exact .reference hpresent hnames hvalue
          | _ => simp [Node.reference?] at htarget

/-- Every value that is made of a schema conforms to it, whatever the draws. -/
theorem conforms_of_value {allowance : Nat} {config : Config} {schema root value : Json}
    {draws : Draws} {position final : Nat} (hunit : draws.InUnit)
    (hvalue : exampleWithin allowance config schema root draws position = .value value final) :
    Conforms config root true schema value := by
  unfold exampleWithin at hvalue
  rw [bind_apply] at hvalue
  cases hscope : Scope.ofRoot root with
  | error cause =>
      rw [hscope] at hvalue
      cases hvalue
  | ok scope =>
      rw [hscope] at hvalue
      change exampleAt config scope allowance 0 schema draws position = _ at hvalue
      have hend := exampleAt_conforms config hscope allowance 0 schema draws position hunit
      rw [hvalue] at hend
      exact hend

namespace Sample

/-- An object with a referring property and an array. -/
def schema : Json :=
  .obj
    [("type", .str "object"), ("required", .arr [.str "size"]),
      ("properties", .obj
        [("size", .obj [("$ref", .str "size")]),
          ("parts", .obj [("type", .str "array"), ("minItems", .int 2),
            ("items", .obj [("type", .str "integer")])])])]

/-- A root with one definition, which refers to itself. -/
def root : Json :=
  .obj
    [("definitions", .obj
      [("size", .obj
        [("$id", .str "size"), ("$ref", .str "size"),
          ("anyOf", .arr
            [.obj [("type", .str "boolean")],
              .obj [("type", .str "integer"), ("minimum", .int 3), ("maximum", .int 7)]])])])]

/-- Three quarters. -/
def threeQuarters : Double := .nearest false (Double.unitsPerOne / 4 * 3) 1

/-- The example that draws of three quarters make. -/
def value : Json := .obj [("size", .int 6), ("parts", .arr (List.replicate 5 (.int 76)))]

theorem threeQuarters_inUnit : threeQuarters.InUnit :=
  ⟨Double.unitsPerOne / 4 * 3, by decide +kernel, by decide +kernel, by decide +kernel⟩

set_option maxRecDepth 10000 in
theorem exampleWithin_five :
    exampleWithin 5 Config.standard schema root (Draws.constant threeQuarters) 0 =
      .value value 9 := by
  decide +kernel

end Sample

theorem conforms_sample : (Draws.constant Sample.threeQuarters).InUnit ∧
    Conforms Config.standard Sample.root true Sample.schema Sample.value :=
  have hunit := Draws.inUnit_constant Sample.threeQuarters_inUnit
  ⟨hunit, conforms_of_value hunit Sample.exampleWithin_five⟩

end Exemplar
