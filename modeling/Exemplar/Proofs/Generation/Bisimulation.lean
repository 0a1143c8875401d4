import Exemplar.Generation.Example
import Exemplar.Proofs.Schema.Lookup
import Mathlib.Data.List.Forall2

/-!
# Schemas that are run alike

Two schemas, each in a scope of its own, give the same run if their shapes differ
only in the schemas inside them, and those are related in the same way again. A
relation with this property is a bisimulation; the depth and the allowance at
which a schema is met do not enter into it.
-/

namespace Exemplar

open Run

namespace Shape

/-- The schemas inside a shape. -/
def inner : Shape → List Json
  | anyOf variants => variants
  | object (.obj properties) _ => properties.map (·.2)
  | array .null _ _ => []
  | array items _ _ => [items]
  | _ => []

/-- Two lists require the same properties. What is no text requires none. -/
def RequireAlike (required required' : List Json) : Prop :=
  ∀ name : Str, .str name ∈ required ↔ .str name ∈ required'

/-- Two shapes differ at most in the schemas inside them, which are related, and in how they list
what they require. -/
inductive Alike (related : Json → Json → Prop) : Shape → Shape → Prop
  | anyOf {variants variants' : List Json} (hvariants : List.Forall₂ related variants variants') :
      Alike related (.anyOf variants) (.anyOf variants')
  | object {properties properties' : List (Str × Json)} {required required' : List Json}
      (hrequired : RequireAlike required required')
      (hproperties : List.Forall₂
        (fun property property' => property.1 = property'.1 ∧ related property.2 property'.2)
        properties properties') :
      Alike related (.object (.obj properties) required) (.object (.obj properties') required')
  | undeclared {properties : Json} {required required' : List Json}
      (hother : ∀ declared, properties ≠ .obj declared) :
      Alike related (.object properties required) (.object properties required')
  | array {items items' minItems maxItems : Json} (hpresent : items ≠ .null)
      (hpresent' : items' ≠ .null) (hitems : related items items') :
      Alike related (.array items minItems maxItems) (.array items' minItems maxItems)
  | closed {shape : Shape} (hnone : shape.inner = []) : Alike related shape shape

theorem inner_array {items : Json} (hitems : items ≠ .null) (minItems maxItems : Json) :
    (array items minItems maxItems).inner = [items] := by
  cases items with
  | null => exact absurd rfl hitems
  | _ => rfl

/-- A shape is like itself if the schemas inside it are related to themselves. -/
theorem alike_self {related : Json → Json → Prop} {shape : Shape}
    (hinner : ∀ schema ∈ shape.inner, related schema schema) : Alike related shape shape := by
  cases shape with
  | anyOf variants => exact .anyOf (List.forall₂_same.mpr hinner)
  | object properties required =>
      cases properties with
      | obj properties =>
          refine .object (fun _ => Iff.rfl) (List.forall₂_same.mpr fun property hmem => ⟨rfl, ?_⟩)
          exact hinner property.2 (List.mem_map_of_mem hmem)
      | _ => exact .closed rfl
  | array items minItems maxItems =>
      by_cases hitems : items = .null
      · subst hitems
        exact .closed rfl
      · rw [inner_array hitems] at hinner
        exact .array hitems hitems (hinner items (List.mem_singleton_self items))
  | _ => exact .closed rfl

end Shape

/-! ## Runs of like shapes -/

theorem elementAt_map {α β : Type} (f : α → β) (elements : List α) (index : Int) :
    elementAt (elements.map f) index = (elementAt elements index).map f := by
  unfold elementAt
  rw [List.length_map]
  dsimp only
  generalize (if index < 0 then index + elements.length else index) = place
  split
  next => rfl
  next =>
    rw [List.getElem?_map]
    cases elements[place.toNat]? <;> rfl

theorem map_evaluate {α β : Type} (f : α → β) (result : Except Fault α) :
    f <$> evaluate result = evaluate (result.map f) := by
  cases result <;> rfl

theorem map_pick {α β : Type} (f : α → β) (elements : List α) :
    f <$> pick elements = pick (elements.map f) := by
  simp only [pick, map_bind, map_evaluate, List.length_map]
  congr 1
  funext drawn
  cases partOf drawn (.int elements.length) with
  | ok part => exact congrArg evaluate (elementAt_map f elements part).symm
  | error cause => rfl

section Runs

variable {child child' : Json → Run Json} {related : Json → Json → Prop}

theorem pick_bind_eq
    (hchild : ∀ schema schema', related schema schema' → child schema = child' schema')
    {variants variants' : List Json} (hvariants : List.Forall₂ related variants variants') :
    pick variants >>= child = pick variants' >>= child' := by
  have hmap : variants.map child = variants'.map child' := by
    induction hvariants with
    | nil => rfl
    | cons hfirst _ ih => rw [List.map_cons, List.map_cons, hchild _ _ hfirst, ih]
  have hjoin : ∀ (elements : List Json) (next : Json → Run Json),
      pick elements >>= next = pick (elements.map next) >>= id := by
    intro elements next
    rw [← map_pick, bind_map_left]
    rfl
  rw [hjoin, hmap, ← hjoin]

theorem includes_eq {required required' : List Json}
    (hrequired : Shape.RequireAlike required required') (threshold : Json) (name : Str) :
    includes threshold required name = includes threshold required' name := by
  have hcontains : required.contains (.str name) = required'.contains (.str name) := by
    rw [Bool.eq_iff_iff, List.contains_iff_mem, List.contains_iff_mem]
    exact hrequired name
  rw [includes, includes, hcontains]

theorem fieldsOnto_eq
    (hchild : ∀ schema schema', related schema schema' → child schema = child' schema')
    (threshold : Json) {required required' : List Json}
    (hrequired : Shape.RequireAlike required required')
    {properties properties' : List (Str × Json)} (hproperties : List.Forall₂
      (fun property property' => property.1 = property'.1 ∧ related property.2 property'.2)
      properties properties') (made : List (Str × Json)) :
    fieldsOnto threshold required child properties made =
      fieldsOnto threshold required' child' properties' made := by
  induction hproperties generalizing made with
  | nil => rfl
  | @cons property property' rest rest' hfirst _ ih =>
      obtain ⟨name, schema⟩ := property
      obtain ⟨name', schema'⟩ := property'
      obtain ⟨rfl, hschema⟩ := hfirst
      simp only [fieldsOnto, includes_eq hrequired, hchild _ _ hschema, ih]

/-- Like shapes are run alike if related schemas inside them are. -/
theorem expand_eq_of_alike (config : Config)
    (hchild : ∀ schema schema', related schema schema' → child schema = child' schema')
    {shape shape' : Shape} (halike : shape.Alike related shape') :
    expand config child shape = expand config child' shape' := by
  cases halike with
  | anyOf hvariants => exact pick_bind_eq hchild hvariants
  | object hrequired hproperties =>
      exact congrArg (Json.obj <$> ·) (fieldsOnto_eq hchild _ hrequired hproperties [])
  | @undeclared properties _ _ hother =>
      cases properties with
      | obj declared => exact absurd rfl (hother declared)
      | _ => rfl
  | array hpresent hpresent' hitems =>
      rw [expand_array config child hpresent, expand_array config child' hpresent',
        hchild _ _ hitems]
  | closed hnone =>
      cases shape with
      | anyOf variants =>
          have hnil : variants = [] := hnone
          rw [hnil]
          exact pick_bind_eq hchild .nil
      | object properties required =>
          cases properties with
          | obj properties =>
              have hnil : properties = [] := List.map_eq_nil_iff.mp hnone
              rw [hnil]
              rfl
          | _ => rfl
      | array items minItems maxItems =>
          by_cases hitems : items = .null
          · rw [hitems]
            rfl
          · rw [Shape.inner_array hitems] at hnone
            cases hnone
      | _ => rfl

end Runs

/-! ## Bisimulations -/

/-- Schemas with the same reference have like shapes in scopes that resolve references alike. -/
theorem FailAlike.shapeIn {related : Json → Json → Prop} {alike : Shape → Shape → Prop}
    {scope scope' : Scope}
    (hlevel : ∀ schema schema', related schema schema' →
      FailAlike alike (Shape.ofSchema schema) (Shape.ofSchema schema'))
    (hresolve : ∀ reference, FailAlike related (scope.resolve reference) (scope'.resolve reference))
    {schema schema' : Json} (hschema : related schema schema')
    (hreference : Node.reference? schema = Node.reference? schema') :
    FailAlike alike (shapeIn scope schema) (shapeIn scope' schema') := by
  rw [shapeIn_eq, shapeIn_eq, ← hreference]
  cases Node.reference? schema with
  | none => exact (hlevel _ _ hschema).mapError _
  | some target =>
      exact (hresolve target).bind fun _ _ hdefinition => (hlevel _ _ hdefinition).mapError _

/-- Two schemas have the same fault, or shapes that are alike. -/
def LevelAlike {ε : Type} (related : Json → Json → Prop) : Except ε Shape → Except ε Shape → Prop
  | .ok shape, .ok shape' => shape.Alike related shape'
  | .error cause, .error cause' => cause = cause'
  | _, _ => False

theorem levelAlike_iff {ε : Type} {related : Json → Json → Prop} {result result' : Except ε Shape} :
    LevelAlike related result result' ↔ FailAlike (Shape.Alike related) result result' := by
  constructor
  · intro halike
    cases result with
    | ok shape =>
        cases result' with
        | ok shape' => exact .ok halike
        | error cause => exact halike.elim
    | error cause =>
        cases result' with
        | ok shape' => exact halike.elim
        | error cause' =>
            obtain rfl : cause = cause' := halike
            exact .error cause
  · rintro (hrelated | cause)
    · exact hrelated
    · exact rfl

theorem levelAlike_self {ε : Type} {related : Json → Json → Prop} {result : Except ε Shape}
    (hinner : ∀ shape, result = .ok shape → ∀ schema ∈ shape.inner, related schema schema) :
    LevelAlike related result result := by
  cases result with
  | ok shape => exact Shape.alike_self (hinner shape rfl)
  | error cause => exact rfl

theorem LevelAlike.mapError {ε ε' : Type} {related : Json → Json → Prop}
    {result result' : Except ε Shape} (halike : LevelAlike related result result') (f : ε → ε') :
    LevelAlike related (result.mapError f) (result'.mapError f) :=
  levelAlike_iff.mpr ((levelAlike_iff.mp halike).mapError f)

/-- Related schemas have like shapes, each in its scope. -/
def Bisimulation (scope scope' : Scope) (related : Json → Json → Prop) : Prop :=
  ∀ schema schema', related schema schema' →
    LevelAlike related (shapeIn scope schema) (shapeIn scope' schema')

/-- Related schemas give the same run at every depth and under every allowance. -/
theorem Bisimulation.exampleAt_eq {scope scope' : Scope} {related : Json → Json → Prop}
    (hrelated : Bisimulation scope scope' related) (config : Config) (allowance depth : Nat)
    {schema schema' : Json} (hschema : related schema schema') :
    exampleAt config scope allowance depth schema =
      exampleAt config scope' allowance depth schema' := by
  induction allowance generalizing depth schema schema' with
  | zero => rfl
  | succ allowance ih =>
      have hshape := levelAlike_iff.mp (hrelated schema schema' hschema)
      rw [exampleAt, exampleAt]
      congr 1
      funext _
      generalize shapeIn scope schema = result at hshape
      generalize shapeIn scope' schema' = result' at hshape
      cases hshape with
      | ok halike =>
          exact expand_eq_of_alike config (fun _ _ hinner => ih (depth + 1) hinner) halike
      | error cause => rfl

end Exemplar
