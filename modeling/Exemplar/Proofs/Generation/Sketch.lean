import Exemplar.Proofs.Generation.Choice

/-!
# Sketches

A sketch of an example tells the arrays and objects that were made for it from
the values that were copied out of the schema or the configuration. Sketches are
made by the same choices as examples, and a sketch without its marks is the
example.
-/

namespace Exemplar

open Run

/-- An example in which what was copied is marked. -/
inductive Sketch where
  | copied (value : Json)
  | arr (items : List Sketch)
  | obj (fields : List (Str × Sketch))

namespace Sketch

mutual

/-- The example that a sketch is of. -/
def value : Sketch → Json
  | copied value => value
  | arr items => .arr (valueItems items)
  | obj fields => .obj (valueFields fields)

/-- The examples that sketches are of. -/
def valueItems : List Sketch → List Json
  | [] => []
  | item :: rest => value item :: valueItems rest

/-- The fields that sketches of fields are of. -/
def valueFields : List (Str × Sketch) → List (Str × Json)
  | [] => []
  | (name, sketch) :: rest => (name, value sketch) :: valueFields rest

end

theorem valueItems_eq_map (items : List Sketch) : valueItems items = items.map value := by
  induction items with
  | nil => rfl
  | cons item rest ih => rw [valueItems, ih, List.map_cons]

theorem valueFields_eq_map (fields : List (Str × Sketch)) :
    valueFields fields = fields.map fun field => (field.1, field.2.value) := by
  induction fields with
  | nil => rfl
  | cons field rest ih => rw [valueFields, ih, List.map_cons]

/-- At most so many arrays and objects that were made stand inside one another. -/
inductive NestsWithin : Nat → Sketch → Prop
  | copied {levels : Nat} (value : Json) : NestsWithin levels (.copied value)
  | arr {levels : Nat} {items : List Sketch} (hitems : ∀ item ∈ items, NestsWithin levels item) :
      NestsWithin (levels + 1) (.arr items)
  | obj {levels : Nat} {fields : List (Str × Sketch)}
      (hfields : ∀ field ∈ fields, NestsWithin levels field.2) :
      NestsWithin (levels + 1) (.obj fields)

theorem NestsWithin.mono {levels levels' : Nat} {sketch : Sketch}
    (hsketch : sketch.NestsWithin levels) (hle : levels ≤ levels') :
    sketch.NestsWithin levels' := by
  induction hsketch generalizing levels' with
  | copied value => exact .copied value
  | arr _ ih =>
      obtain ⟨less, rfl⟩ := Nat.exists_eq_add_of_lt hle
      exact .arr fun item hmem => ih item hmem (by omega)
  | obj _ ih =>
      obtain ⟨less, rfl⟩ := Nat.exists_eq_add_of_lt hle
      exact .obj fun field hmem => ih field hmem (by omega)

end Sketch

/-- Makes the sketch of a shape; `child` makes the sketches of the schemas inside it. -/
def sketchShape (config : Config) (child : Json → Run Sketch) : Shape → Run Sketch
  | .anyOf variants => pick variants >>= child
  | .object (.obj properties) required =>
      .obj <$> fieldsOnto config.optionalPropertyProbability required child properties []
  | .array items minItems maxItems =>
      if items = .null then pure (.arr [])
      else do
        let count ← spread (minItems.orElse config.defaultMinItems)
          (maxItems.orElse config.defaultMaxItems)
        let length ← evaluate (Json.number count).asInt
        .arr <$> (child items).times length.toNat
  -- no other shape has schemas inside it
  | shape => .copied <$> expand config (fun _ => unfinished) shape

/-- Makes the sketch of an example of a schema at a nesting depth. -/
def sketchAt (config : Config) (scope : Scope) : Nat → Nat → Json → Run Sketch
  | 0, _, _ => unfinished
  | allowance + 1, depth, schema => do
      checkDepth config.maxDepth depth
      let shape ← attempt (shapeIn scope schema)
      sketchShape config (sketchAt config scope allowance (depth + 1)) shape

/-- Makes the sketch of an example with an allowance of nested schemas. -/
def sketchWithin (allowance : Nat) (config : Config) (schema root : Json) : Run Sketch := do
  let scope ← evaluate (Scope.ofRoot root)
  sketchAt config scope allowance 0 schema

/-! ## Sketches are of examples -/

theorem map_repeatOnto {α β : Type} (f : α → β) (run : Run α) (count : Nat) (made : List α) :
    List.map f <$> repeatOnto run count made = repeatOnto (f <$> run) count (made.map f) := by
  induction count generalizing made with
  | zero => simp [repeatOnto]
  | succ count ih =>
      simp only [repeatOnto, map_bind, bind_map_left]
      congr 1
      funext result
      exact ih (result :: made)

theorem map_times {α β : Type} (f : α → β) (run : Run α) (count : Nat) :
    List.map f <$> run.times count = (f <$> run).times count :=
  map_repeatOnto f run count []

theorem map_fieldsOnto {α β : Type} (f : α → β) (threshold : Json) (required : List Json)
    (child : Json → Run α) (properties : List (Str × Json)) (made : List (Str × α)) :
    List.map (fun field => (field.1, f field.2)) <$>
        fieldsOnto threshold required child properties made =
      fieldsOnto threshold required (fun schema => f <$> child schema) properties
        (made.map fun field => (field.1, f field.2)) := by
  induction properties generalizing made with
  | nil => simp [fieldsOnto]
  | cons property rest ih =>
      obtain ⟨name, schema⟩ := property
      simp only [fieldsOnto, map_bind, bind_map_left]
      congr 1
      funext kept
      cases kept with
      | false => exact ih made
      | true =>
          simp only [if_true, map_bind]
          congr 1
          funext value
          exact ih ((name, value) :: made)

/-- The sketches of a shape are of its examples if those inside it are. -/
theorem value_sketchShape (config : Config) (child : Json → Run Sketch) (shape : Shape) :
    Sketch.value <$> sketchShape config child shape =
      expand config (fun schema => Sketch.value <$> child schema) shape := by
  have hcopied : ∀ run : Run Json, Sketch.value <$> Sketch.copied <$> run = run := by
    intro run
    rw [← comp_map]
    exact id_map run
  cases shape with
  | anyOf variants => exact map_bind _ _ _
  | object properties required =>
      cases properties with
      | obj properties =>
          have hfields := map_fieldsOnto Sketch.value config.optionalPropertyProbability required
            child properties []
          rw [List.map_nil] at hfields
          simp only [sketchShape, expand, ← hfields, ← comp_map]
          congr 1
          funext fields
          exact congrArg Json.obj (Sketch.valueFields_eq_map fields)
      | _ => exact hcopied _
  | array items minItems maxItems =>
      by_cases hitems : items = .null
      · subst hitems
        rfl
      · rw [expand_array config _ hitems, sketchShape, if_neg hitems]
        simp only [map_bind, ← map_times, ← comp_map]
        congr 2
        funext count
        congr 1
        funext length
        congr 1
        funext values
        exact congrArg Json.arr (Sketch.valueItems_eq_map values)
  | _ => exact hcopied _

theorem value_sketchAt (config : Config) (scope : Scope) (allowance depth : Nat) (schema : Json) :
    Sketch.value <$> sketchAt config scope allowance depth schema =
      exampleAt config scope allowance depth schema := by
  induction allowance generalizing depth schema with
  | zero => rfl
  | succ allowance ih =>
      simp only [sketchAt, exampleAt, map_bind, value_sketchShape, ih]

/-- A sketch without its marks is the example. -/
theorem value_sketchWithin (allowance : Nat) (config : Config) (schema root : Json) :
    Sketch.value <$> sketchWithin allowance config schema root =
      exampleWithin allowance config schema root := by
  simp only [sketchWithin, exampleWithin, map_bind, value_sketchAt]

/-! ## Levels -/

/-- What a shape is sketched as is copied, or is made of sketches of the schemas inside it. -/
theorem sketchShape_ensures {config : Config} {child : Json → Run Sketch} {supply : Double → Prop}
    {inner : Json → Sketch → Prop} {good : Sketch → Prop}
    (hchild : ∀ schema, (child schema).Ensures (inner schema) (fun _ => True) supply)
    (hcopied : ∀ value, good (.copied value))
    (hvariant : ∀ schema sketch, inner schema sketch → good sketch)
    (harr : ∀ schema items, (∀ item ∈ items, inner schema item) → good (.arr items))
    (hobj : ∀ fields, (∀ field ∈ fields, ∃ schema, inner schema field.2) → good (.obj fields))
    (shape : Shape) : (sketchShape config child shape).Ensures good (fun _ => True) supply := by
  have hcopies : ∀ run : Run Json, (Sketch.copied <$> run).Ensures good (fun _ => True) supply :=
    fun run => (ensures_true run).map fun value _ => hcopied value
  cases shape with
  | anyOf variants =>
      refine (ensures_pick variants).bind fun variant _ => ?_
      exact (hchild variant).mono (hvariant variant) fun _ => id
  | object properties required =>
      cases properties with
      | obj properties =>
          have hfields :=
            @ensures_fieldsOnto Sketch config.optionalPropertyProbability required child
            inner (fun _ => True) supply properties []
            (fun _ _ => trivial) (fun property _ => hchild property.2)
          apply hfields.map
          rintro made ⟨members, -, rfl, hvalues⟩
          refine hobj _ ?_
          intro field hmem
          rw [List.reverse_nil, List.nil_append] at hmem
          obtain ⟨member, hmember, rfl⟩ := List.mem_map.mp hmem
          exact ⟨member.schema, hvalues member hmember⟩
      | _ => exact hcopies _
  | array items minItems maxItems =>
      rw [sketchShape]
      split
      · exact ensures_pure (harr items [] (by simp))
      · refine (ensures_true (spread _ _)).bind fun count _ => ?_
        apply (ensures_true (evaluate (Json.number count).asInt)).bind
        intro length _
        exact ((hchild items).times _).map fun values hvalues => harr items values hvalues.2
  | _ => exact hcopies _

/-- What nests within a number of levels inside a shape nests within one more as a whole. -/
theorem sketchShape_nests {config : Config} {child : Json → Run Sketch} {levels : Nat}
    {supply : Double → Prop}
    (hchild : ∀ schema, (child schema).Ensures (Sketch.NestsWithin levels) (fun _ => True) supply)
    (shape : Shape) :
    (sketchShape config child shape).Ensures (Sketch.NestsWithin (levels + 1)) (fun _ => True)
      supply := by
  refine sketchShape_ensures hchild .copied ?_ ?_ ?_ shape
  · exact fun _ _ hsketch => hsketch.mono (Nat.le_succ levels)
  · exact fun _ _ hitems => .arr hitems
  · intro fields hfields
    refine .obj fun field hmem => ?_
    obtain ⟨-, hfield⟩ := hfields field hmem
    exact hfield

end Exemplar
