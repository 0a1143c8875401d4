import Exemplar.Proofs.Generation.Conformance
import Exemplar.Proofs.Generation.DepthLimit
import Exemplar.Proofs.Schema.Position

/-!
# Runs that end by themselves

Without a limit on nesting a run can go on for ever only by references that lead
round in a circle. Where the references inside the definitions lead to definitions
of smaller rank, one allowance is enough for a schema, whatever the draws. A
definition's own reference does not count, as it is never followed.
-/

namespace Exemplar

open Run

/-- A reference that is met inside a schema, but not inside a schema that has a reference itself. -/
inductive InnerReference : Fields → Json → Prop
  | here {fields : Fields} {step : Position.Step} {schema reference : Json}
      (hstep : step.inner? fields = some schema)
      (hreference : Node.reference? schema = some reference) : InnerReference fields reference
  | deeper {fields keywords : Fields} {step : Position.Step} {reference : Json}
      (hstep : step.inner? fields = some (.obj keywords))
      (hnone : Node.reference? (.obj keywords) = none)
      (hinner : InnerReference keywords reference) : InnerReference fields reference

/-- The references inside the definitions of a root lead to definitions of smaller rank. -/
def Acyclic (root : Json) (rank : Fields → Nat) : Prop :=
  ∀ name definition reference target, Names root name definition →
    InnerReference definition reference → Names root reference target →
      rank target < rank definition

/-! ## Allowances that are enough -/

theorem Run.Finishes.of_extends {α : Type} {short long : Run α} (hshort : short.Finishes)
    (hextends : short.Extends long) : long.Finishes := by
  intro draws position
  rw [hextends draws position (hshort draws position)]
  exact hshort draws position

theorem finishes_checkDepth (limit : Json) (depth : Nat) : (checkDepth limit depth).Finishes :=
  finishes_congruence.checkDepth (fun _ _ _ => by simp [fail]) limit depth

/-- A shape is made to the end if the schemas inside it are. -/
theorem finishes_expand {config : Config} {child : Json → Run Json} {shape : Shape}
    (hinner : ∀ schema ∈ shape.inner, (child schema).Finishes) :
    (expand config child shape).Finishes := by
  -- no other schemas are asked for, so that these may as well be null
  have hnarrow : expand config child shape =
      expand config (fun schema => if schema ∈ shape.inner then child schema else pure .null)
        shape := by
    apply @expand_eq_of_alike _ _ (fun schema schema' => schema = schema' ∧ schema ∈ shape.inner)
    · rintro schema _ ⟨rfl, hmem⟩
      rw [if_pos hmem]
    · exact Shape.alike_self fun schema hmem => ⟨rfl, hmem⟩
  rw [hnarrow]
  apply finishes_congruence.expand_self
  intro schema
  split
  next hmem => exact hinner schema hmem
  next => exact finishes_congruence.pure Json.null

/-- Some allowance is enough for a schema, whatever the configuration, the depth and the draws. -/
def Bounded (scope : Scope) (schema : Json) : Prop :=
  ∃ allowance, ∀ config depth, (exampleAt config scope allowance depth schema).Finishes

/-- So it is for each schema inside a definition, whose own reference is ignored. -/
def BoundedInside (scope : Scope) (definition : Fields) : Prop :=
  ∀ shape, Shape.ofSchema (.obj definition) = .ok shape →
    ∀ schema ∈ shape.inner, Bounded scope schema

theorem exists_allowance_of_bounded {scope : Scope} {schemas : List Json}
    (hschemas : ∀ schema ∈ schemas, Bounded scope schema) :
    ∃ allowance, ∀ schema ∈ schemas, ∀ config depth,
      (exampleAt config scope allowance depth schema).Finishes := by
  induction schemas with
  | nil => exact ⟨0, by simp⟩
  | cons first rest ih =>
      rw [List.forall_mem_cons] at hschemas
      obtain ⟨allowance, hfirst⟩ := hschemas.1
      obtain ⟨allowance', hrest⟩ := ih hschemas.2
      refine ⟨max allowance allowance', List.forall_mem_cons.mpr ⟨fun config depth => ?_, ?_⟩⟩
      · exact (hfirst config depth).of_extends
          (exampleAt_extends config scope (Nat.le_max_left _ _) depth first)
      · intro schema hmem config depth
        exact (hrest schema hmem config depth).of_extends
          (exampleAt_extends config scope (Nat.le_max_right _ _) depth schema)

/-- One level more is enough for a schema than for those inside its shape. -/
theorem bounded_of_inner {scope : Scope} {schema : Json}
    (hinner : ∀ shape, shapeIn scope schema = .ok shape →
      ∀ inner ∈ shape.inner, Bounded scope inner) :
    Bounded scope schema := by
  cases hshape : shapeIn scope schema with
  | error cause =>
      refine ⟨1, fun config depth => ?_⟩
      rw [exampleAt, hshape]
      refine finishes_bind (finishes_checkDepth _ _) fun _ => ?_
      exact fun _ _ => by simp [bind_apply, attempt, fail]
  | ok shape =>
      obtain ⟨allowance, hallowance⟩ := exists_allowance_of_bounded (hinner shape hshape)
      refine ⟨allowance + 1, fun config depth => ?_⟩
      rw [exampleAt, hshape]
      refine finishes_bind (finishes_checkDepth _ _) fun _ => ?_
      exact finishes_expand fun inner hmem => hallowance inner hmem config (depth + 1)

theorem bounded_of_not_obj (scope : Scope) {schema : Json}
    (hother : ∀ fields, schema ≠ .obj fields) :
    Bounded scope schema := by
  apply bounded_of_inner
  intro shape hshape inner hmem
  cases schema with
  | obj fields => exact absurd rfl (hother fields)
  | _ =>
      cases hshape
      cases hmem

theorem bounded_of_boundedInside {scope : Scope} {fields : Fields}
    (hnone : Node.reference? (.obj fields) = none) (hinside : BoundedInside scope fields) :
    Bounded scope (.obj fields) := by
  apply bounded_of_inner
  intro shape hshape
  rw [shapeIn_eq, hnone] at hshape
  exact hinside shape (mapError_eq_ok.mp hshape)

theorem bounded_of_reference {root : Json} {scope : Scope} (hscope : Scope.ofRoot root = .ok scope)
    {schema reference : Json} (hreference : Node.reference? schema = some reference)
    (hinside : ∀ definition, Names root reference definition → BoundedInside scope definition) :
    Bounded scope schema := by
  apply bounded_of_inner
  intro shape hshape
  rw [shapeIn_eq, hreference] at hshape
  obtain ⟨definition, hresolve, hshape⟩ := bind_eq_ok.mp hshape
  obtain ⟨fields, rfl, hnames⟩ := names_of_resolve hscope hresolve
  exact hinside fields hnames shape (mapError_eq_ok.mp hshape)

/-! ## Ranks -/

/-- What stands inside a schema ends if the definitions do that are referred to from inside it. -/
theorem boundedInside_of_references {root : Json} {scope : Scope}
    (hscope : Scope.ofRoot root = .ok scope) (fields : Fields)
    (hinner : ∀ reference definition, InnerReference fields reference →
      Names root reference definition → BoundedInside scope definition) :
    BoundedInside scope fields := by
  -- on the size of the schema, which shrinks with every step inwards that is no reference
  induction hsize : sizeOf (Json.obj fields) using Nat.strongRecOn generalizing fields with
  | ind size ih =>
      intro shape hshape schema hmem
      rcases inner?_of_mem_inner hshape hmem with ⟨step, hstep⟩ | ⟨text, rfl⟩
      · cases hreference : Node.reference? schema with
        | some reference =>
            exact bounded_of_reference hscope hreference fun definition =>
              hinner reference definition (.here hstep hreference)
        | none =>
            cases schema with
            | obj keywords =>
                apply bounded_of_boundedInside hreference
                refine ih _ (hsize ▸ Position.Step.sizeOf_inner?_lt hstep) keywords ?_ rfl
                intro reference definition hdeeper
                exact hinner reference definition (.deeper hstep hreference hdeeper)
            | _ => exact bounded_of_not_obj scope (by simp)
      · exact bounded_of_not_obj scope (by simp)

/-- Definitions end in the order of their ranks. -/
theorem Acyclic.boundedInside {root : Json} {rank : Fields → Nat} (hacyclic : Acyclic root rank)
    {scope : Scope} (hscope : Scope.ofRoot root = .ok scope) {name : Json} {definition : Fields}
    (hnames : Names root name definition) : BoundedInside scope definition := by
  induction hrank : rank definition using Nat.strongRecOn generalizing name definition with
  | ind n ih =>
      apply boundedInside_of_references hscope
      intro reference target hreference htarget
      exact ih _ (hrank ▸ hacyclic name definition reference target hnames hreference htarget)
        htarget rfl

theorem Acyclic.bounded {root : Json} {rank : Fields → Nat} (hacyclic : Acyclic root rank)
    {scope : Scope} (hscope : Scope.ofRoot root = .ok scope) (schema : Json) :
    Bounded scope schema := by
  cases hreference : Node.reference? schema with
  | some reference =>
      exact bounded_of_reference hscope hreference fun _ => hacyclic.boundedInside hscope
  | none =>
      cases schema with
      | obj fields =>
          apply bounded_of_boundedInside hreference
          apply boundedInside_of_references hscope
          intro _ _ _ htarget
          exact hacyclic.boundedInside hscope htarget
      | _ => exact bounded_of_not_obj scope (by simp)

/-! ## The guarantee -/

/-- One allowance is enough for every run of a schema within a root: it ends with a value or a
failure, which no larger allowance changes. -/
def AlwaysEnds (schema root : Json) : Prop :=
  ∃ enough, ∀ (config : Config) (draws : Draws) (position : Nat), ∃ outcome : Outcome Json,
    outcome ≠ .unfinished ∧ ∀ allowance ≥ enough,
      exampleWithin allowance config schema root draws position = outcome

theorem Acyclic.alwaysEnds {root : Json} {rank : Fields → Nat} (hacyclic : Acyclic root rank)
    (schema : Json) : AlwaysEnds schema root := by
  have hfinishes : ∃ enough, ∀ config, (exampleWithin enough config schema root).Finishes := by
    rcases Scope.ofRoot_cases root with ⟨-, scope, hscope⟩ | ⟨-, herror⟩
    · obtain ⟨enough, henough⟩ := hacyclic.bounded hscope schema
      refine ⟨enough, fun config => ?_⟩
      rw [exampleWithin_of_scope hscope]
      exact henough config 0
    · refine ⟨0, fun config => ?_⟩
      rw [exampleWithin, herror]
      exact fun _ _ => by simp [bind_apply, evaluate, fail]
  obtain ⟨enough, henough⟩ := hfinishes
  refine ⟨enough, fun config draws position => ⟨_, henough config draws position, ?_⟩⟩
  intro allowance hallowance
  exact exampleWithin_extends hallowance config schema root draws position
    (henough config draws position)

/-- Runs end if the definitions have ranks that references inside them lower, whatever the limit on
nesting; in particular if references are only the definitions' own. -/
theorem acyclic_runs_end (root schema : Json) :
    (∀ rank, Acyclic root rank → AlwaysEnds schema root) ∧
    ((∀ name definition reference target, Names root name definition →
      InnerReference definition reference → ¬ Names root reference target) →
        AlwaysEnds schema root) := by
  refine ⟨fun rank hacyclic => hacyclic.alwaysEnds schema, fun hown => ?_⟩
  have hacyclic : Acyclic root fun _ => 0 := by
    intro name definition reference target hnames hreference htarget
    exact absurd htarget (hown name definition reference target hnames hreference)
  exact hacyclic.alwaysEnds schema

namespace Sample

/-- A definition that refers to itself, but inside only to another one. -/
def branch : Fields :=
  [("$id", .str "branch"), ("$ref", .str "branch"), ("type", .str "object"),
    ("required", .arr [.str "leaf"]),
    ("properties", .obj
      [("leaf", .obj [("$ref", .str "leaf"), ("items", .obj [("$ref", .str "branch")])])])]

/-- A definition that refers to the first, but nowhere inside. -/
def leaf : Fields := [("$id", .str "leaf"), ("$ref", .str "branch"), ("enum", .arr [.int 5])]

def branchRoot : Json :=
  .obj [("definitions", .obj [("a", .obj branch), ("b", .obj leaf)])]

/-- An array of branches. -/
def branches : Json := .obj [("type", .str "array"), ("items", .obj [("$ref", .str "branch")])]

/-- Branches rank above leaves. -/
def height (definition : Fields) : Nat := if definition.get "type" = .str "object" then 1 else 0

theorem eq_of_names {name : Json} {definition : Fields}
    (hnames : Names branchRoot name definition) :
    definition = branch ∨ definition = leaf := by
  obtain ⟨definitions, key, hdefinitions, -, hscan⟩ := hnames
  obtain ⟨found, hfound, rfl⟩ := Option.map_eq_some_iff.mp hscan
  cases hdefinitions
  have hmem := List.mem_of_find?_eq_some hfound
  rcases List.mem_cons.mp hmem with rfl | hmem
  · exact Or.inl rfl
  · exact Or.inr (congrArg Definition.schema (List.mem_singleton.mp hmem))

theorem inner?_branch {step : Position.Step} {schema : Json}
    (hstep : step.inner? branch = some schema) : Node.reference? schema = some (.str "leaf") := by
  rcases step with place | _ | place
  · cases place with
    | zero =>
        cases hstep
        rfl
    | succ place => cases hstep
  · cases hstep
  · cases hstep

theorem eq_of_innerReference_branch {reference : Json}
    (hreference : InnerReference branch reference) :
    reference = .str "leaf" := by
  cases hreference with
  | here hstep hreference =>
      exact (Option.some.inj ((inner?_branch hstep).symm.trans hreference)).symm
  | deeper hstep hnone _ => cases hnone.symm.trans (inner?_branch hstep)

theorem not_innerReference_leaf (reference : Json) : ¬ InnerReference leaf reference := by
  have hnone (step : Position.Step) : step.inner? leaf = none := by
    cases step <;> rfl
  intro hreference
  cases hreference with
  | here hstep _ => cases (hnone _).symm.trans hstep
  | deeper hstep _ _ => cases (hnone _).symm.trans hstep

theorem branchRoot_acyclic : Acyclic branchRoot height := by
  intro name definition reference target hnames hreference htarget
  rcases eq_of_names hnames with rfl | rfl
  · obtain ⟨_, _, hdefinitions, hkey, hscan⟩ := eq_of_innerReference_branch hreference ▸ htarget
    cases hdefinitions
    cases hkey
    cases hscan
    decide +kernel
  · exact absurd hreference (not_innerReference_leaf reference)

end Sample

theorem acyclic_sample : Acyclic Sample.branchRoot Sample.height ∧
    AlwaysEnds Sample.branches Sample.branchRoot :=
  ⟨Sample.branchRoot_acyclic,
    (acyclic_runs_end Sample.branchRoot Sample.branches).1 Sample.height Sample.branchRoot_acyclic⟩

end Exemplar
