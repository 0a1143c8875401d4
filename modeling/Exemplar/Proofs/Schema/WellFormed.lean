import Exemplar.Proofs.Double.Magnitude
import Exemplar.Proofs.Schema.Lookup
import Exemplar.Schema.Shape

/-!
# Well-formed schemas

In a well-formed schema every keyword that is present has the type it is
documented with, at every depth. Each level of such a schema has a shape that is
fit to be made, and a reference of it either leads to a well-formed definition
or dangles.
-/

namespace Exemplar

/-- The greatest magnitude of a bound on lengths and integers. No list is longer. -/
def greatestBound : Nat := 10 ^ 300

/-- The greatest magnitude of a bound on numbers that are rounded. -/
def greatestPoint : Nat := 10 ^ 25

theorem greatestBound_le : greatestBound ≤ 2 ^ 1000 := by decide +kernel

theorem greatestPoint_le : greatestPoint ≤ 2 ^ 84 := by decide +kernel

/-- Finite, with a magnitude of at most a bound. -/
def Number.AtMost (bound : Nat) : Number → Prop
  | int value => value.natAbs ≤ bound
  | float value => ∃ negative rank, value = .finite negative rank ∧
      Double.unitsOfRank rank ≤ bound * Double.unitsPerOne

theorem Number.AtMost.fitsIn {number : Number} {bound exponent : Nat}
    (hnumber : number.AtMost bound) (hle : bound ≤ 2 ^ exponent) : number.FitsIn exponent := by
  cases number with
  | int value => exact hnumber.trans hle
  | float value =>
      obtain ⟨negative, rank, rfl, hunits⟩ := hnumber
      exact ⟨negative, rank, rfl, hunits.trans (Nat.mul_le_mul_right _ hle)⟩

/-! ## Keywords -/

namespace Json

/-- A text. -/
def IsText (value : Json) : Prop := ∃ text, value = .str text

/-- A list that can be counted. -/
def IsList (value : Json) : Prop := ∃ items, value = .arr items ∧ items.length ≤ greatestBound

/-- A list of texts. -/
def IsTextList (value : Json) : Prop := ∃ texts : List Str, value = .arr (texts.map .str)

/-- An object. -/
def IsObject (value : Json) : Prop := ∃ fields, value = .obj fields

/-- An integer of bounded magnitude. -/
def IsCount (value : Json) : Prop := ∃ n, value.asInt = .ok n ∧ n.natAbs ≤ greatestBound

/-- A finite number of bounded magnitude. -/
def IsWithin (bound : Nat) (value : Json) : Prop :=
  ∃ number, value.asNumber = .ok number ∧ number.AtMost bound

end Json

/-- A keyword is absent or has a value of a kind; null counts as absent. -/
def Fields.Fits (fields : Fields) (name : Str) (kind : Json → Prop) : Prop :=
  fields.get name ≠ .null → kind (fields.get name)

/-- Every keyword that is present has its documented type. -/
structure KeywordsFit (fields : Fields) : Prop where
  reference : fields.Fits "$ref" Json.IsText
  identifier : fields.Fits "$id" Json.IsText
  olderIdentifier : fields.Fits "id" Json.IsText
  variants : fields.Fits "anyOf" Json.IsList
  values : fields.Fits "enum" Json.IsList
  properties : fields.Fits "properties" Json.IsObject
  required : fields.Fits "required" Json.IsTextList
  minItems : fields.Fits "minItems" Json.IsCount
  maxItems : fields.Fits "maxItems" Json.IsCount
  pattern : fields.Fits "pattern" Json.IsText
  integers : fields.get "type" = .str "integer" →
    fields.Fits "minimum" (Json.IsWithin greatestBound) ∧
      fields.Fits "maximum" (Json.IsWithin greatestBound)
  numbers : fields.get "type" = .str "number" →
    fields.Fits "minimum" (Json.IsWithin greatestPoint) ∧
      fields.Fits "maximum" (Json.IsWithin greatestPoint)

/-- An object whose keywords have their documented types, as have those of the schemas inside. -/
inductive WellFormed : Json → Prop
  | object {fields : Fields} (hkeywords : KeywordsFit fields)
      (hvariants : ∀ variants, fields.get "anyOf" = .arr variants →
        ∀ variant ∈ variants, WellFormed variant)
      (hproperties : ∀ properties, fields.get "properties" = .obj properties →
        ∀ property ∈ properties, WellFormed property.2)
      (hitems : fields.get "items" ≠ .null → WellFormed (fields.get "items")) :
      WellFormed (.obj fields)

/-- The definitions of a root are well-formed if there are any. -/
def WellFormedRoot (root : Json) : Prop :=
  ∀ fields, root = .obj fields → Fields.Fits fields "definitions" fun definitions =>
    ∃ entries, definitions = .obj entries ∧ ∀ entry ∈ entries, WellFormed entry.2

theorem ne_null_of_truthy {value : Json} (hpresent : value.truthy = true) : value ≠ .null := by
  rintro rfl
  cases hpresent

/-! ## Shapes -/

/-- A shape that can be made wherever the schemas inside it can. -/
inductive Shape.Fits : Shape → Prop
  | anyOf {variants : List Json} (hne : variants ≠ []) (hlength : variants.length ≤ greatestBound)
      (hvariants : ∀ variant ∈ variants, WellFormed variant) : Fits (.anyOf variants)
  | enumeration {values : List Json} (hne : values ≠ []) (hlength : values.length ≤ greatestBound) :
      Fits (.enumeration values)
  | object {properties : Fields} {required : List Json}
      (hproperties : ∀ property ∈ properties, WellFormed property.2) :
      Fits (.object (.obj properties) required)
  | array {items minItems maxItems : Json} (hitems : items ≠ .null → WellFormed items)
      (hminItems : minItems ≠ .null → minItems.IsCount)
      (hmaxItems : maxItems ≠ .null → maxItems.IsCount) : Fits (.array items minItems maxItems)
  | boolean : Fits .boolean
  | integer {minimum maximum : Json} (hminimum : minimum ≠ .null → minimum.IsWithin greatestBound)
      (hmaximum : maximum ≠ .null → maximum.IsWithin greatestBound) :
      Fits (.integer minimum maximum)
  | number {minimum maximum : Json} (hminimum : minimum ≠ .null → minimum.IsWithin greatestPoint)
      (hmaximum : maximum ≠ .null → maximum.IsWithin greatestPoint) :
      Fits (.number minimum maximum)
  | string (pattern : Json) : Fits (.string pattern)
  | constant (value : Json) : Fits (.constant value)

theorem exists_list_of_truthy {value : Json} (hvalue : value ≠ .null → value.IsList)
    (hpresent : value.truthy = true) :
    ∃ items, value = .arr items ∧ items ≠ [] ∧ items.length ≤ greatestBound := by
  obtain ⟨items, rfl, hlength⟩ := hvalue (ne_null_of_truthy hpresent)
  refine ⟨items, rfl, ?_, hlength⟩
  rintro rfl
  cases hpresent

theorem exists_object_fits {fields : Fields} (hkeywords : KeywordsFit fields)
    (hproperties : ∀ properties, fields.get "properties" = .obj properties →
      ∀ property ∈ properties, WellFormed property.2) :
    ∃ shape, (if (fields.get "required").truthy then (fields.get "required").elements
        else .ok []).map (Shape.object (if (fields.get "properties").truthy then
          fields.get "properties" else .obj [])) = .ok shape ∧ shape.Fits := by
  have hrequired : ∃ required, (if (fields.get "required").truthy then
      (fields.get "required").elements else .ok []) = Except.ok required := by
    split
    next hpresent =>
      obtain ⟨texts, htexts⟩ := hkeywords.required (ne_null_of_truthy hpresent)
      exact ⟨_, by rw [htexts]; rfl⟩
    next => exact ⟨[], rfl⟩
  obtain ⟨required, hrequired⟩ := hrequired
  rw [hrequired]
  split
  next hpresent =>
    obtain ⟨properties, heq⟩ := hkeywords.properties (ne_null_of_truthy hpresent)
    rw [heq]
    exact ⟨_, rfl, .object (hproperties properties heq)⟩
  next => exact ⟨_, rfl, .object (by simp)⟩

/-- The type of a well-formed schema selects a shape that fits. -/
theorem exists_ofType_fits {fields : Fields} (hschema : WellFormed (.obj fields)) :
    ∃ shape, Shape.ofType fields = .ok shape ∧ shape.Fits := by
  obtain ⟨hkeywords, -, hproperties, hitems⟩ := hschema
  unfold Shape.ofType
  dsimp only
  split
  next => exact exists_object_fits hkeywords hproperties
  split
  next => exact ⟨_, rfl, .array hitems hkeywords.minItems hkeywords.maxItems⟩
  split
  next => exact ⟨_, rfl, .boolean⟩
  split
  next htype =>
    obtain ⟨hminimum, hmaximum⟩ := hkeywords.integers htype
    exact ⟨_, rfl, .integer hminimum hmaximum⟩
  split
  next htype =>
    obtain ⟨hminimum, hmaximum⟩ := hkeywords.numbers htype
    exact ⟨_, rfl, .number hminimum hmaximum⟩
  split
  next => exact ⟨_, rfl, .string _⟩
  next => exact ⟨_, rfl, .constant _⟩

/-- A well-formed schema whose own reference is ignored has a shape that fits. -/
theorem exists_ofSchema_fits {schema : Json} (hschema : WellFormed schema) :
    ∃ shape, Shape.ofSchema schema = .ok shape ∧ shape.Fits := by
  have hwhole := hschema
  obtain ⟨hkeywords, hvariants, -, -⟩ := hschema
  unfold Shape.ofSchema
  dsimp only
  split
  next hpresent =>
    obtain ⟨variants, heq, hne, hlength⟩ := exists_list_of_truthy hkeywords.variants hpresent
    rw [heq]
    exact ⟨_, rfl, .anyOf hne hlength (hvariants variants heq)⟩
  split
  next hpresent =>
    obtain ⟨values, heq, hne, hlength⟩ := exists_list_of_truthy hkeywords.values hpresent
    rw [heq]
    exact ⟨_, rfl, .enumeration hne hlength⟩
  next => exact exists_ofType_fits hwhole

/-! ## References -/

/-- A failure of a reference that leads nowhere: the root has no definitions, or none of them
carries the identifier. -/
inductive Dangling (root : Json) : Failure → Prop
  | noDefinitions (hnone : Definition.ofRoot? root = none) : Dangling root .noDefinitions
  | unresolved {reference : Json} {definitions : List Definition}
      (hdefinitions : Definition.ofRoot? root = some definitions)
      (hnone : ∀ definition ∈ definitions, definition.identifier ≠ reference) :
      Dangling root (.unresolved reference)

theorem key?_identifierOf_isSome {fields : Fields} (hkeywords : KeywordsFit fields) :
    (Definition.identifierOf fields).key?.isSome := by
  unfold Definition.identifierOf
  dsimp only
  split
  next hpresent =>
    obtain ⟨text, heq⟩ := hkeywords.identifier (ne_null_of_truthy hpresent)
    rw [heq]
    rfl
  next =>
    by_cases hnull : fields.get "id" = .null
    · rw [hnull]
      rfl
    · obtain ⟨text, heq⟩ := hkeywords.olderIdentifier hnull
      rw [heq]
      rfl

theorem wellFormed_of_mem_ofRoot? {root : Json} (hroot : WellFormedRoot root)
    {definitions : List Definition} (hdefinitions : Definition.ofRoot? root = some definitions)
    {definition : Definition} (hmem : definition ∈ definitions) :
    WellFormed (.obj definition.schema) ∧
      definition.identifier = Definition.identifierOf definition.schema := by
  cases root with
  | obj fields =>
      have hentries := hroot fields rfl
      unfold Definition.ofRoot? at hdefinitions
      unfold Fields.Fits at hentries
      dsimp only at hdefinitions
      cases hvalue : Fields.get fields "definitions" with
      | null => simp [hvalue] at hdefinitions
      | obj entries =>
          rw [hvalue] at hdefinitions hentries
          cases hdefinitions
          obtain ⟨entries', heq, hwellFormed⟩ := hentries (by simp)
          cases heq
          obtain ⟨⟨name, schema⟩, hentry, hmade⟩ := List.mem_filterMap.mp hmem
          have hschema := hwellFormed _ hentry
          cases schema with
          | obj schema =>
              cases hmade
              exact ⟨hschema, rfl⟩
          | _ => cases hmade
      | _ =>
          rw [hvalue] at hdefinitions
          cases hdefinitions
          cases hmem
  | _ => cases hdefinitions

/-- The scope of a well-formed root exists. -/
theorem exists_scope_ofRoot {root : Json} (hroot : WellFormedRoot root) :
    ∃ scope, Scope.ofRoot root = .ok scope := by
  unfold Scope.ofRoot
  cases hdefinitions : Definition.ofRoot? root with
  | none => exact ⟨_, rfl⟩
  | some definitions =>
      have hscalar : ∀ definition ∈ definitions, definition.identifier.key?.isSome := by
        intro definition hmem
        obtain ⟨⟨hkeywords, -, -, -⟩, heq⟩ := wellFormed_of_mem_ofRoot? hroot hdefinitions hmem
        rw [heq]
        exact key?_identifierOf_isSome hkeywords
      obtain ⟨entries, hentries⟩ := Scope.exists_foldlM hscalar []
      exact ⟨_, by dsimp only; rw [Scope.ofDefinitions, hentries]; rfl⟩

theorem exists_of_scan? {definitions : List Definition} {key : Json.Key} {fields : Fields}
    (hscan : Definition.scan? definitions key = some fields) :
    ∃ definition ∈ definitions, definition.schema = fields := by
  unfold Definition.scan? at hscan
  obtain ⟨definition, hfound, rfl⟩ := Option.map_eq_some_iff.mp hscan
  exact ⟨definition, List.mem_of_find?_eq_some hfound, rfl⟩

theorem identifier_ne_of_scan? {definitions : List Definition} {text : Str}
    (hscan : Definition.scan? definitions (.text text) = none) :
    ∀ definition ∈ definitions, definition.identifier ≠ .str text := by
  intro definition hmem hidentifier
  unfold Definition.scan? at hscan
  rw [Option.map_eq_none_iff, List.find?_eq_none] at hscan
  apply hscan definition hmem
  simp [Definition.carries, hidentifier, Json.key?]

/-- A text refers to a well-formed definition or dangles. -/
theorem resolve_wellFormed {root : Json} (hroot : WellFormedRoot root) {scope : Scope}
    (hscope : Scope.ofRoot root = .ok scope) (text : Str) :
    (∃ definition, scope.resolve (.str text) = .ok definition ∧ WellFormed definition) ∨
      ∃ cause, scope.resolve (.str text) = .error cause ∧ Dangling root cause := by
  rw [Scope.resolve_ofRoot hscope]
  cases hdefinitions : Definition.ofRoot? root with
  | none => exact Or.inr ⟨_, rfl, .noDefinitions hdefinitions⟩
  | some definitions =>
      have hkey : (Json.str text).asKey = .ok (.text text) := rfl
      dsimp only
      rw [hkey]
      cases hscan : Definition.scan? definitions (.text text) with
      | some fields =>
          obtain ⟨definition, hmem, rfl⟩ := exists_of_scan? hscan
          exact Or.inl ⟨_, by dsimp only; rw [hscan],
            (wellFormed_of_mem_ofRoot? hroot hdefinitions hmem).1⟩
      | none =>
          exact Or.inr ⟨_, by dsimp only; rw [hscan],
            .unresolved hdefinitions (identifier_ne_of_scan? hscan)⟩

end Exemplar
