import Exemplar.Proofs.Generation.Allowance
import Exemplar.Proofs.Generation.Conformance
import Exemplar.Proofs.Schema.Position
import Mathlib.Logic.Relation

/-!
# Inlining references

A reference stands for the definition that it names, without the definition's own
reference. Putting the definition in the place of the reference, at any position
of a schema, changes no run; and a schema in which no reference is left needs no
definitions at all.
-/

namespace Exemplar

open Run

/-- A reference at a position of a schema is replaced by the definition that it names. -/
inductive Inlines (root schema : Json) : Json → Prop
  | at {position : Position} {fields definition : Fields}
      (hat : schema.at? position = some (.obj fields))
      (hpresent : (fields.get "$ref").truthy = true)
      (hnames : Names root (fields.get "$ref") definition) :
      Inlines root schema (schema.putAt (.obj (definition.without "$ref")) position)

/-! ## One replacement -/

/-- No shape depends on the schema's own reference. -/
theorem ofSchema_without_reference (fields : Fields) :
    Shape.ofSchema (.obj (fields.without "$ref")) = Shape.ofSchema (.obj fields) := by
  simp only [Shape.ofSchema, Shape.ofType, Fields.get_without, Str.plain.injEq, String.reduceEq,
    if_false]

theorem shapeIn_without_reference (scope : Scope) (definition : Fields) :
    shapeIn scope (.obj (definition.without "$ref")) =
      (Shape.ofSchema (.obj definition)).mapError .fault := by
  have hnone : Node.reference? (.obj (definition.without "$ref")) = none := by
    simp only [Node.reference?, Fields.get_without, if_true]
    rfl
  rw [shapeIn_eq, hnone, ofSchema_without_reference]

/-- A reference has the shape of the definition that it names. -/
theorem shapeIn_reference {scope : Scope} {fields definition : Fields}
    (hpresent : (fields.get "$ref").truthy = true)
    (hresolve : scope.resolve (fields.get "$ref") = .ok (.obj definition)) :
    shapeIn scope (.obj fields) = (Shape.ofSchema (.obj definition)).mapError .fault := by
  have htarget : Node.reference? (.obj fields) = some (fields.get "$ref") := if_pos hpresent
  rw [shapeIn_eq, htarget]
  dsimp only
  rw [hresolve]
  rfl

/-- A schema beside itself, or beside what it becomes by an object of the same shape in the place of
a schema inside it. -/
inductive Reshaped (scope : Scope) : Json → Json → Prop
  | refl (schema : Json) : Reshaped scope schema schema
  | put {schema inner : Json} {position : Position} {fields : Fields}
      (hat : schema.at? position = some inner)
      (hshape : shapeIn scope inner = shapeIn scope (.obj fields)) :
      Reshaped scope schema (schema.putAt (.obj fields) position)

theorem putAt_ne_null {schema inner : Json} {position : Position} (fields : Fields)
    (hat : schema.at? position = some inner) : schema.putAt (.obj fields) position ≠ .null := by
  cases position with
  | nil => simp [Json.putAt]
  | cons step rest =>
      cases schema with
      | obj keywords =>
          rw [Json.putAt]
          split <;> simp
      | _ => cases hat

theorem bisimulation_reshaped (scope : Scope) : Bisimulation scope scope (Reshaped scope) := by
  have hrefl : ∀ result : Except Failure Shape, LevelAlike (Reshaped scope) result result :=
    fun _ => levelAlike_self fun _ _ schema _ => .refl schema
  intro schema schema' hreshaped
  cases hreshaped with
  | refl => exact hrefl _
  | @put inner position fields hat hshape =>
      cases position with
      | nil =>
          cases hat
          rw [Json.putAt, hshape]
          exact hrefl _
      | cons step rest =>
          -- a level above the position keeps its keywords but for one schema inside it
          cases schema with
          | obj keywords =>
              rw [Json.at?, Option.bind_eq_some_iff] at hat
              obtain ⟨middle, hstep, hat⟩ := hat
              rw [Json.putAt, hstep]
              dsimp only
              rw [shapeIn_eq, shapeIn_eq, step.reference?_put]
              cases Node.reference? (.obj keywords) with
              | some target => exact hrefl _
              | none =>
                  exact (levelAlike_ofSchema_put Reshaped.refl step hstep (putAt_ne_null fields hat)
                    (.put hat hshape)).mapError _
          | _ => cases hat

/-- A replaced reference does not show in the run at any depth. -/
theorem Inlines.exampleAt_eq {root schema schema' : Json} {scope : Scope}
    (hscope : Scope.ofRoot root = .ok scope) (hinlines : Inlines root schema schema')
    (config : Config) (allowance depth : Nat) :
    exampleAt config scope allowance depth schema =
      exampleAt config scope allowance depth schema' := by
  obtain ⟨hat, hpresent, hnames⟩ := hinlines
  apply (bisimulation_reshaped scope).exampleAt_eq
  refine .put hat ?_
  rw [shapeIn_reference hpresent (hnames.resolve hscope), shapeIn_without_reference]

/-! ## No references left -/

theorem bisimulation_referenceFree (scope scope' : Scope) :
    Bisimulation scope scope' fun schema schema' => schema = schema' ∧ ReferenceFree schema := by
  rintro schema _ ⟨rfl, hfree⟩
  have hnone : Node.reference? schema = none := hfree [] schema rfl
  rw [shapeIn_eq, shapeIn_eq, hnone]
  refine levelAlike_self fun shape hshape inner hmem => ⟨rfl, ?_⟩
  exact hfree.inner (mapError_eq_ok.mp hshape) hmem

/-- A schema without references is run alike in all scopes. -/
theorem ReferenceFree.exampleAt_eq {schema : Json} (hfree : ReferenceFree schema)
    (scope scope' : Scope) (config : Config) (allowance depth : Nat) :
    exampleAt config scope allowance depth schema =
      exampleAt config scope' allowance depth schema :=
  (bisimulation_referenceFree scope scope').exampleAt_eq config allowance depth ⟨rfl, hfree⟩

/-! ## The guarantee -/

/-- Replacing a reference at any position by the definition that it names changes no run, neither
its outcome nor its draws. Once replacing has come to an end and no reference is left, the run needs
no root schema. -/
theorem inlining_preserves_runs {root : Json} {scope : Scope}
    (hscope : Scope.ofRoot root = .ok scope) (config : Config) (allowance : Nat) :
    (∀ schema schema', Inlines root schema schema' →
      exampleWithin allowance config schema' root = exampleWithin allowance config schema root) ∧
    (∀ schema schema', Relation.ReflTransGen (Inlines root) schema schema' →
      ReferenceFree schema' →
        exampleWithin allowance config schema root =
          exampleWithin allowance config schema' (.obj [])) := by
  have hone : ∀ schema schema', Inlines root schema schema' →
      exampleWithin allowance config schema' root = exampleWithin allowance config schema root := by
    intro schema schema' hinlines
    rw [exampleWithin_of_scope hscope, exampleWithin_of_scope hscope]
    exact (hinlines.exampleAt_eq hscope config allowance 0).symm
  have hmany : ∀ schema schema', Relation.ReflTransGen (Inlines root) schema schema' →
      exampleWithin allowance config schema' root = exampleWithin allowance config schema root := by
    intro schema schema' hsteps
    induction hsteps with
    | refl => rfl
    | tail _ hlast ih => exact (hone _ _ hlast).trans ih
  refine ⟨hone, ?_⟩
  intro schema schema' hsteps hfree
  have hempty : Scope.ofRoot (.obj []) = .ok .absent := rfl
  rw [← hmany schema schema' hsteps, exampleWithin_of_scope hscope, exampleWithin_of_scope hempty]
  exact hfree.exampleAt_eq scope .absent config allowance 0

namespace Sample

/-- A definition that refers to itself and to another one. -/
def entry : Fields :=
  [("$id", .str "entry"), ("$ref", .str "entry"), ("type", .str "object"),
    ("required", .arr [.str "flag"]),
    ("properties", .obj [("flag", .obj [("$ref", .str "flag")])])]

def flag : Fields := [("id", .str "flag"), ("type", .str "boolean")]

def entryRoot : Json := .obj [("definitions", .obj [("a", .obj entry), ("b", .obj flag)])]

/-- A list of entries. -/
def entries : Json := .obj [("type", .str "array"), ("items", .obj [("$ref", .str "entry")])]

/-- A list of entries after the entries are inlined. -/
def entriesOnce : Json :=
  entries.putAt (.obj (entry.without "$ref")) [.items]

/-- A list of entries after the flags within the entries are inlined as well. -/
def entriesTwice : Json :=
  entriesOnce.putAt (.obj (flag.without "$ref")) [.items, .property 0]

theorem inlines_entries : Inlines entryRoot entries entriesOnce :=
  @Inlines.at entryRoot entries [.items] [("$ref", .str "entry")] entry rfl rfl
    ⟨_, .text "entry", rfl, rfl, rfl⟩

theorem inlines_entriesOnce : Inlines entryRoot entriesOnce entriesTwice :=
  @Inlines.at entryRoot entriesOnce [.items, .property 0] [("$ref", .str "flag")] flag rfl rfl
    ⟨_, .text "flag", rfl, rfl, rfl⟩

/-- Without a reference of its own and in the schemas one step inside it, a schema has none. -/
theorem referenceFree_of_steps {fields : Fields} (hnone : Node.reference? (.obj fields) = none)
    (hinner : ∀ step inner, Position.Step.inner? fields step = some inner → ReferenceFree inner) :
    ReferenceFree (.obj fields) := by
  intro position inner hat
  cases position with
  | nil =>
      cases hat
      exact hnone
  | cons step rest =>
      rw [Json.at?, Option.bind_eq_some_iff] at hat
      obtain ⟨middle, hstep, hat⟩ := hat
      exact hinner step middle hstep rest inner hat

theorem referenceFree_flag : ReferenceFree (.obj (flag.without "$ref")) := by
  refine referenceFree_of_steps rfl ?_
  rintro (place | _ | place) inner hstep <;> cases hstep

theorem referenceFree_entriesTwice : ReferenceFree entriesTwice := by
  refine referenceFree_of_steps rfl ?_
  rintro (place | _ | place) inner hstep
  · cases hstep
  · cases hstep
    refine referenceFree_of_steps rfl ?_
    rintro (place | _ | place) inner hstep
    · cases place with
      | zero =>
          cases hstep
          exact referenceFree_flag
      | succ place => cases hstep
    · cases hstep
    · cases hstep
  · cases hstep

end Sample

theorem inlining_sample :
    (∃ scope, Scope.ofRoot Sample.entryRoot = .ok scope) ∧
    Inlines Sample.entryRoot Sample.entries Sample.entriesOnce ∧
    Inlines Sample.entryRoot Sample.entriesOnce Sample.entriesTwice ∧
    ReferenceFree Sample.entriesTwice ∧
    exampleWithin 3 { Config.standard with maxDepth := .int 2 } Sample.entriesOnce
        Sample.entryRoot =
      exampleWithin 3 { Config.standard with maxDepth := .int 2 } Sample.entries
        Sample.entryRoot ∧
    exampleWithin 3 { Config.standard with maxDepth := .int 2 } Sample.entriesTwice (.obj [])
      (Draws.constant .zero) 0 = .value (.arr [.obj [("flag", .bool true)]]) 2 := by
  have hpreserves := @inlining_preserves_runs Sample.entryRoot _ rfl
    { Config.standard with maxDepth := .int 2 } 3
  refine ⟨⟨_, rfl⟩, Sample.inlines_entries, Sample.inlines_entriesOnce,
    Sample.referenceFree_entriesTwice, hpreserves.1 _ _ Sample.inlines_entries, ?_⟩
  rw [← hpreserves.2 Sample.entries Sample.entriesTwice
    ((Relation.ReflTransGen.single Sample.inlines_entries).tail Sample.inlines_entriesOnce)
    Sample.referenceFree_entriesTwice]
  decide +kernel

end Exemplar
