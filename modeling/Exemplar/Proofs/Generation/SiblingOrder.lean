import Exemplar.Proofs.Generation.Agreement
import Exemplar.Proofs.Schema.Reordering

/-!
# The order of siblings

On constant draws, a property that is declared at another place among its siblings is made
from the same draws, and so it is made or left out as before and its value is the same.
Reordered schemas therefore give values that differ in the order of fields alone, at
every level and through references too.
-/

namespace Exemplar

open Run

/-! ## Rearranged values -/

/-- What two reordered shapes give if their values differ in the order of fields alone: the same
alternative, the fields of the same properties in the order of either side, as many items, or else
the same value. How values of the schemas inside differ is a parameter. -/
inductive Shape.Rearranged (values : (schema schema' value value' : Json) → Prop) :
    Shape → Shape → Json → Json → Prop
  | anyOf {variants variants' : List Json} {variant variant' value value' : Json}
      (hvariant : (variant, variant') ∈ variants.zip variants')
      (hvalue : values variant variant' value value') :
      Shape.Rearranged values (.anyOf variants) (.anyOf variants') value value'
  | object {pairs pairs' : List PropertyPair} {required : List Json}
      {made : PropertyPair → Option (Json × Json)} (horder : pairs.Perm pairs')
      (hmade : ∀ pair ∈ pairs, ∀ both, made pair = some both →
        values pair.before pair.after both.1 both.2) :
      Shape.Rearranged values (.object (.obj (pairs.map PropertyPair.first)) required)
        (.object (.obj (pairs'.map PropertyPair.second)) required)
        (.obj (pairs.filterMap fun pair => (made pair).map fun both => (pair.name, both.1)))
        (.obj (pairs'.filterMap fun pair => (made pair).map fun both => (pair.name, both.2)))
  | array {items items' minItems maxItems : Json} {made made' : List Json}
      (hlength : made.length = made'.length)
      (hmade : ∀ both ∈ made.zip made', values items items' both.1 both.2) :
      Shape.Rearranged values (.array items minItems maxItems) (.array items' minItems maxItems)
        (.arr made) (.arr made')
  | closed {shape : Shape} {value : Json} (hnone : shape.inner = []) :
      Shape.Rearranged values shape shape value value

/-- Values of two schemas that differ in the order of fields alone, as the schemas do in the order
of properties; each schema is taken in its scope. -/
inductive Rearranged (scope scope' : Scope) : (schema schema' value value' : Json) → Prop
  | level {schema schema' value value' : Json} {shape shape' : Shape}
      (hshape : shapeIn scope schema = .ok shape) (hshape' : shapeIn scope' schema' = .ok shape')
      (hvalue : Shape.Rearranged (Rearranged scope scope') shape shape' value value') :
      Rearranged scope scope' schema schema' value value'

/-! ## Runs of reordered schemas -/

section Runs

variable {drawn : Double} {related : Json → Json → Prop}
  {values : (schema schema' value value' : Json) → Prop} {child child' : Json → Run Json}

theorem visit_follows (hsteady : ∀ schema, (child schema).Follows (child schema)) (threshold : Json)
    (required : List Json) (property : Str × Json) :
    (visit threshold required child property).Follows
      (visit threshold required child property) := by
  apply follows_congruence.bind (follows_congruence.includes threshold required property.1)
  intro kept
  cases kept with
  | false => exact follows_congruence.pure none
  | true => exact follows_congruence.map _ (hsteady property.2)

/-- A property is made on both sides or on neither. -/
theorem agree_visit {pair : PropertyPair}
    (hpair : (child pair.before).Agree drawn (values pair.before pair.after) (child' pair.after))
    (threshold : Json) (required : List Json) :
    (visit threshold required child pair.first).Agree drawn
      (fun field field' => ∃ made : Option (Json × Json),
        field = made.map (fun both => (pair.name, both.1)) ∧
          field' = made.map (fun both => (pair.name, both.2)) ∧
          ∀ both, made = some both → values pair.before pair.after both.1 both.2)
      (visit threshold required child' pair.second) := by
  refine (agree_refl (includes threshold required pair.name)).bind ?_
  rintro kept _ rfl
  cases kept with
  | false => exact agree_pure ⟨none, rfl, rfl, nofun⟩
  | true =>
      refine Run.Agree.map (hpair.imp fun value value' hvalue => ?_)
      refine ⟨some (value, value'), rfl, rfl, ?_⟩
      rintro _ ⟨⟩
      exact hvalue

section Reordered

variable (hsteady : ∀ schema, (child schema).Follows (child schema))
  (hsteady' : ∀ schema, (child' schema).Follows (child' schema))
  (hchild : ∀ schema schema', related schema schema' →
    (child schema).Agree drawn (values schema schema') (child' schema'))

include hsteady hsteady' hchild

/-- Objects whose properties are permuted have the same fields in the order of either side. -/
theorem agree_object (config : Config) (required : List Json) {pairs pairs' : List PropertyPair}
    (horder : pairs.Perm pairs') (hschemas : ∀ pair ∈ pairs, related pair.before pair.after) :
    let shape := Shape.object (.obj (pairs.map PropertyPair.first)) required
    let shape' := Shape.object (.obj (pairs'.map PropertyPair.second)) required
    (expand config child shape).Agree drawn (Shape.Rearranged values shape shape')
      (expand config child' shape') := by
  dsimp only
  rw [expand, expand, fieldsOnto_eq_mapM, fieldsOnto_eq_mapM, List.mapM_map, List.mapM_map]
  have hvisits := agree_mapM_perm
    (fun pair : PropertyPair =>
      visit_follows hsteady config.optionalPropertyProbability required pair.first)
    (fun pair : PropertyPair =>
      visit_follows hsteady' config.optionalPropertyProbability required pair.second)
    horder (fun pair hmem => agree_visit (hchild _ _ (hschemas pair hmem)) _ required)
  refine Run.Agree.map (Run.Agree.map (hvisits.imp ?_))
  rintro _ _ ⟨field, field', rfl, rfl, hmade⟩
  choose! made hfield hfield' hvalues using hmade
  have hfields : (pairs.map field).reduceOption =
      pairs.filterMap fun pair => (made pair).map fun both => (pair.name, both.1) := by
    rw [List.reduceOption, List.filterMap_map]
    exact List.filterMap_congr hfield
  have hfields' : (pairs'.map field').reduceOption =
      pairs'.filterMap fun pair => (made pair).map fun both => (pair.name, both.2) := by
    rw [List.reduceOption, List.filterMap_map]
    exact List.filterMap_congr fun pair hmem => hfield' pair (horder.mem_iff.mpr hmem)
  rw [List.reverse_nil, List.nil_append, List.nil_append, hfields, hfields']
  exact .object horder hvalues

/-- Reordered shapes give values that differ in the order of fields alone, after as many draws, if
the schemas inside them do. -/
theorem agree_expand (config : Config) {shape shape' : Shape}
    (hshape : shape.Reordered related shape') :
    (expand config child shape).Agree drawn (Shape.Rearranged values shape shape')
      (expand config child' shape') := by
  cases hshape with
  | anyOf hvariants =>
      obtain ⟨hlength, hrelated⟩ := List.forall₂_iff_zip.mp hvariants
      refine (agree_pick hlength).bind fun variant variant' hmem => ?_
      exact (hchild _ _ (hrelated hmem)).imp fun _ _ => .anyOf hmem
  | object horder hschemas => exact agree_object hsteady hsteady' hchild config _ horder hschemas
  | array hpresent hpresent' hitems =>
      rw [expand_array config child hpresent, expand_array config child' hpresent']
      refine (agree_refl (spread _ _)).bind ?_
      rintro count _ rfl
      refine (agree_refl (evaluate _)).bind ?_
      rintro length _ rfl
      refine Run.Agree.map (((hchild _ _ hitems).times _).imp fun made made' hmade => ?_)
      obtain ⟨hlength, hvalues⟩ := List.forall₂_iff_zip.mp hmade
      exact .array hlength fun _ => hvalues
  | closed hnone =>
      have hsame : expand config child shape = expand config child' shape :=
        @expand_eq_of_alike child child' (fun _ _ => False) config
          (fun _ _ => False.elim) shape shape
          (.closed hnone)
      rw [hsame]
      refine (agree_refl (expand config child' shape)).imp ?_
      rintro value _ rfl
      exact .closed hnone

end Reordered

end Runs

/-- Within reordered roots, reordered schemas give values that differ in the order of fields alone,
or neither of them gives a value. -/
theorem agree_exampleAt (config : Config) (drawn : Double) {root root' : Json}
    (hroots : ReorderedRoots root root') {scope scope' : Scope}
    (hscope : Scope.ofRoot root = .ok scope) (hscope' : Scope.ofRoot root' = .ok scope')
    (allowance depth : Nat) {schema schema' : Json} (hschema : Reordered schema schema') :
    (exampleAt config scope allowance depth schema).Agree drawn
      (Rearranged scope scope' schema schema')
      (exampleAt config scope' allowance depth schema') := by
  induction allowance generalizing depth schema schema' with
  | zero => exact agree_unfinished
  | succ allowance ih =>
      have hlevel := FailAlike.shapeIn (fun _ _ => Reordered.ofSchema)
        (hroots.resolve hscope hscope') hschema hschema.reference?
      rw [exampleAt, exampleAt]
      refine (agree_refl (checkDepth config.maxDepth depth)).bind fun _ _ _ => ?_
      -- both levels fail, or their shapes are those of which the value is told
      generalize hshape : shapeIn scope schema = level at hlevel ⊢
      generalize hshape' : shapeIn scope' schema' = level' at hlevel ⊢
      cases hlevel with
      | ok hreordered =>
          have hagree := agree_expand (exampleAt_follows config scope allowance (depth + 1))
            (exampleAt_follows config scope' allowance (depth + 1))
            (fun _ _ hinner => ih (depth + 1) hinner) config hreordered
          exact hagree.imp fun _ _ => .level hshape hshape'
      | error cause => exact agree_fail cause cause

theorem agree_exampleWithin (allowance : Nat) (config : Config) (drawn : Double)
    {schema schema' root root' : Json} (hschema : Reordered schema schema')
    (hroots : ReorderedRoots root root') :
    (exampleWithin allowance config schema root).Agree drawn
      (fun value value' => ∃ scope scope', Scope.ofRoot root = .ok scope ∧
        Scope.ofRoot root' = .ok scope' ∧ Rearranged scope scope' schema schema' value value')
      (exampleWithin allowance config schema' root') := by
  refine (agree_evaluate (Scope.ofRoot_alike hroots.identifiable_iff)).bind ?_
  rintro scope scope' ⟨hscope, hscope'⟩
  exact (agree_exampleAt config drawn hroots hscope hscope' allowance 0 hschema).imp
    fun _ _ hvalue => ⟨scope, scope', hscope, hscope', hvalue⟩

/-- On constant draws neither the place in an array nor the order of properties counts. All items of
an array that is made are equal; and a schema and a root whose properties are permuted, at any
number of positions, give a value if and only if the original ones do, after the same draws, and
one that differs in the order of the fields of these properties alone. -/
theorem constant_draws_ignore_order (config : Config) (schema root : Json) (drawn : Double) :
    (∀ position value final,
      Ends config schema root (Draws.constant drawn) position (.value value final) →
        ∃ allowance sketch,
          sketchWithin allowance config schema root (Draws.constant drawn) position =
              .value sketch final ∧
            sketch.value = value ∧ sketch.Uniform) ∧
    ∀ schema' root', Reordered schema schema' → ReorderedRoots root root' → ∀ position,
      ((∃ value final,
          Ends config schema root (Draws.constant drawn) position (.value value final)) ↔
        ∃ value final,
          Ends config schema' root' (Draws.constant drawn) position (.value value final)) ∧
      ∀ value final value' final',
        Ends config schema root (Draws.constant drawn) position (.value value final) →
          Ends config schema' root' (Draws.constant drawn) position (.value value' final') →
            final' = final ∧ ∃ scope scope', Scope.ofRoot root = .ok scope ∧
              Scope.ofRoot root' = .ok scope' ∧
              Rearranged scope scope' schema schema' value value' := by
  refine ⟨fun _ _ _ hends => hends.uniform, ?_⟩
  intro schema' root' hschema hroots position
  have hagree (allowance : Nat) :=
    agree_exampleWithin allowance config drawn hschema hroots position
  refine ⟨⟨?_, ?_⟩, ?_⟩
  · rintro ⟨value, final, -, enough, hrun⟩
    obtain ⟨value', hrun', -⟩ := (hagree enough).forth (hrun enough le_rfl)
    exact ⟨value', final, ends_of_exampleWithin nofun hrun'⟩
  · rintro ⟨value', final, -, enough, hrun'⟩
    obtain ⟨value, hrun, -⟩ := (hagree enough).back (hrun' enough le_rfl)
    exact ⟨value, final, ends_of_exampleWithin nofun hrun⟩
  · rintro value final value' final' ⟨-, enough, hrun⟩ hends'
    obtain ⟨made, hrun', hrearranged⟩ := (hagree enough).forth (hrun enough le_rfl)
    have hmade : Ends config schema' root' (Draws.constant drawn) position (.value made final) :=
      ends_of_exampleWithin nofun hrun'
    cases hends'.unique hmade
    exact ⟨rfl, hrearranged⟩

namespace Sample

/-- A root that defines points, with their coordinates in an order. -/
def pointRoot (coordinates : Fields) : Json :=
  .obj
    [("definitions", .obj
      [("p", .obj
        [("$id", .str "point"), ("type", .str "object"), ("required", .arr [.str "x"]),
          ("properties", .obj coordinates)])])]

def x : Str × Json := ("x", .obj [("type", .str "integer")])

def y : Str × Json := ("y", .obj [("type", .str "boolean")])

/-- A route with its properties in an order. -/
def route (properties : Fields) : Json :=
  .obj [("type", .str "object"), ("properties", .obj properties)]

def origin : Str × Json := ("origin", .obj [("$ref", .str "point")])

def legs : Str × Json :=
  ("legs", .obj [("type", .str "integer"), ("minimum", .int 3), ("maximum", .int 7)])

/-- Two routes. -/
def routes (properties : Fields) : Json :=
  .obj [("type", .str "array"), ("minItems", .int 2), ("maxItems", .int 2),
    ("items", route properties)]

theorem reordered_routes : Reordered (routes [origin, legs]) (routes [legs, origin]) := by
  have hroute : Reordered (route [origin, legs]) (route [legs, origin]) :=
    Reordered.of_perm rfl (List.Perm.swap legs origin [])
  have hat : (routes [origin, legs]).at? [.items] = some (route [origin, legs]) := rfl
  exact hroute.putAt hat

theorem reorderedRoots_points : ReorderedRoots (pointRoot [x, y]) (pointRoot [y, x]) := by
  refine .some (.cons ⟨rfl, ?_⟩ .nil)
  exact Reordered.of_perm rfl (List.Perm.swap y x [])

/-- A route from a point. -/
def madeRoute : Json :=
  .obj [("origin", .obj [("x", .int 76), ("y", .bool false)]), ("legs", .int 6)]

set_option maxRecDepth 10000 in
theorem ends_routes : Ends Config.standard (routes [origin, legs]) (pointRoot [x, y])
    (Draws.constant threeQuarters) 0 (.value (.arr [madeRoute, madeRoute]) 13) :=
  @ends_of_exampleWithin _ _ _ _ 0 4 _ (by simp) (by decide +kernel)

end Sample

/-- Two equal routes, and as many draws for routes and points whose properties are swapped. -/
theorem constant_draws_sample :
    Reordered (Sample.routes [Sample.origin, Sample.legs])
        (Sample.routes [Sample.legs, Sample.origin]) ∧
      ReorderedRoots (Sample.pointRoot [Sample.x, Sample.y])
        (Sample.pointRoot [Sample.y, Sample.x]) ∧
      (∃ sketch : Sketch, sketch.value = .arr [Sample.madeRoute, Sample.madeRoute] ∧
        sketch.Uniform) ∧
      ∃ value scope scope', Ends Config.standard (Sample.routes [Sample.legs, Sample.origin])
          (Sample.pointRoot [Sample.y, Sample.x]) (Draws.constant Sample.threeQuarters) 0
          (.value value 13) ∧
        Rearranged scope scope' (Sample.routes [Sample.origin, Sample.legs])
          (Sample.routes [Sample.legs, Sample.origin])
          (.arr [Sample.madeRoute, Sample.madeRoute]) value := by
  obtain ⟨huniform, hordered⟩ := constant_draws_ignore_order Config.standard
    (Sample.routes [Sample.origin, Sample.legs]) (Sample.pointRoot [Sample.x, Sample.y])
    Sample.threeQuarters
  obtain ⟨-, sketch, -, hsketch⟩ := huniform _ _ _ Sample.ends_routes
  obtain ⟨hiff, hsame⟩ := hordered _ _ Sample.reordered_routes Sample.reorderedRoots_points 0
  obtain ⟨value, final, hends⟩ := hiff.mp ⟨_, _, Sample.ends_routes⟩
  obtain ⟨rfl, scope, scope', -, -, hvalue⟩ := hsame _ _ _ _ Sample.ends_routes hends
  exact ⟨Sample.reordered_routes, Sample.reorderedRoots_points, ⟨sketch, hsketch⟩, value, scope,
    scope', hends, hvalue⟩

end Exemplar
