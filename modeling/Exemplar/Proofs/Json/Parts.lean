import Exemplar.Proofs.Double.Order
import Exemplar.Proofs.Schema.Equivalence

/-!
# Parts of a value

A value has itself as a part, and the parts of its items or of the values of its
fields. Numbers and objects are the parts that generation takes something from, so
that it is enough to say of these two kinds where they are stated.
-/

namespace Exemplar

/-- A field that can be looked up is one of the fields; an absent one counts as null. -/
theorem Fields.get_cases (fields : Fields) (name : Str) :
    fields.get name = .null ∨ ∃ field ∈ fields, field.2 = fields.get name := by
  unfold get get?
  cases hfound : fields.find? (·.1 == name) with
  | none => exact .inl rfl
  | some field => exact .inr ⟨field, List.mem_of_find?_eq_some hfound, rfl⟩

namespace Json

/-- A value that stands somewhere in another one, or is the other one. -/
inductive PartOf (part : Json) : Json → Prop
  | self : PartOf part part
  | item {value : Json} {items : List Json} (hmem : value ∈ items) (hpart : PartOf part value) :
      PartOf part (.arr items)
  | field {field : Str × Json} {fields : Fields} (hmem : field ∈ fields)
      (hpart : PartOf part field.2) : PartOf part (.obj fields)

theorem PartOf.trans {inner part value : Json} (hinner : PartOf inner part)
    (hpart : PartOf part value) : PartOf inner value := by
  induction hpart with
  | self => exact hinner
  | item hmem _ ih => exact .item hmem ih
  | field hmem _ ih => exact .field hmem ih

/-- Every number in a value is an integer or a finite floating-point number. -/
def Finite (value : Json) : Prop := ∀ number, PartOf (.number number) value → number.Finite

theorem finite_number {number : Number} : (Json.number number).Finite ↔ number.Finite := by
  constructor
  · exact fun hfinite => hfinite number .self
  · intro hfinite number' hpart
    cases hpart
    exact hfinite

theorem finite_obj {fields : Fields} : (obj fields).Finite ↔ ∀ field ∈ fields, field.2.Finite := by
  constructor
  · exact fun hfinite field hmem number hpart => hfinite number (.field hmem hpart)
  · intro hfinite number hpart
    cases hpart with
    | field hmem hpart => exact hfinite _ hmem number hpart

theorem Finite.get {fields : Fields} (hfields : (obj fields).Finite) (name : Str) :
    (fields.get name).Finite := by
  rcases fields.get_cases name with hnull | ⟨field, hmem, heq⟩
  · rw [hnull]
    exact nofun
  · rw [← heq]
    exact finite_obj.mp hfields field hmem

/-- What a finite value counts as is finite, and so is an integer in the place of null. -/
theorem Finite.of_asNumber {value : Json} (hvalue : value.Finite) (fallback : Int) {number : Number}
    (hnumber : (value.orElse (.int fallback)).asNumber = .ok number) : number.Finite := by
  cases value with
  | null =>
      cases hnumber
      exact ⟨_, rfl⟩
  | bool truth =>
      cases hnumber
      exact ⟨_, rfl⟩
  | number amount =>
      cases hnumber
      exact finite_number.mp hvalue
  | _ => cases hnumber

/-- Every number and every object in a value is stated somewhere. -/
structure Within (stated : Json → Prop) (value : Json) : Prop where
  numbers : ∀ number, PartOf (.number number) value → stated (.number number)
  objects : ∀ fields, PartOf (.obj fields) value → stated (.obj fields)

variable {stated : Json → Prop}

theorem within_null : Within stated .null := ⟨nofun, nofun⟩

theorem within_str (text : Str) : Within stated (.str text) := ⟨nofun, nofun⟩

namespace Within

theorem item {items : List Json} (hitems : Within stated (.arr items)) {value : Json}
    (hmem : value ∈ items) : Within stated value where
  numbers _ hpart := hitems.numbers _ (.item hmem hpart)
  objects _ hpart := hitems.objects _ (.item hmem hpart)

theorem field {fields : Fields} (hfields : Within stated (.obj fields)) {field : Str × Json}
    (hmem : field ∈ fields) : Within stated field.2 where
  numbers _ hpart := hfields.numbers _ (.field hmem hpart)
  objects _ hpart := hfields.objects _ (.field hmem hpart)

theorem get {fields : Fields} (hfields : Within stated (.obj fields)) (name : Str) :
    Within stated (fields.get name) := by
  rcases fields.get_cases name with hnull | ⟨field, hmem, heq⟩
  · rw [hnull]
    exact within_null
  · rw [← heq]
    exact hfields.field hmem

theorem elements {value : Json} (hvalue : Within stated value) {elements : List Json}
    (helements : value.elements = .ok elements) {element : Json} (hmem : element ∈ elements) :
    Within stated element := by
  by_cases hlisted : ∃ items, value = .arr items
  · obtain ⟨items, rfl⟩ := hlisted
    cases helements
    exact hvalue.item hmem
  · obtain ⟨text, rfl⟩ :=
      exists_str_of_mem_elements (fun items heq => hlisted ⟨items, heq⟩) helements hmem
    exact within_str text

end Within

end Json

end Exemplar
