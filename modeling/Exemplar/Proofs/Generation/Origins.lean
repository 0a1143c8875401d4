import Exemplar.Proofs.Generation.Accounting
import Exemplar.Proofs.Json.Parts
import Exemplar.Proofs.Schema.LinearScan
import Exemplar.Proofs.Schema.WellFormed

/-!
# Where numbers come from

An example holds no number that is not accounted for. It is a number that stands in the
schema or in its root, or it was chosen by one of the draws that the run took, between
the bounds of an object that stands in one of them.
-/

namespace Exemplar

open Run Json

/-- A value stands in a schema or in the root that its references are resolved in. -/
def StatedIn (schema root part : Json) : Prop := PartOf part schema ∨ PartOf part root

/-- The origin of a number that was made with the draws from one place to another: it is stated
itself, or a draw chose it for a stated object. -/
inductive NumberFrom (config : Config) (stated : Json → Prop) (draws : Draws) (first last : Nat) :
    Number → Prop
  | stated {number : Number} (hstated : stated (.number number)) :
      NumberFrom config stated draws first last number
  | integer {fields : Fields} {number : Number} {place : Nat} (hfields : stated (.obj fields))
      (htype : fields.get "type" = .str "integer") (hfirst : first ≤ place) (hlast : place < last)
      (hchosen : spread ((fields.get "minimum").orElse config.defaultMinimum)
        ((fields.get "maximum").orElse config.defaultMaximum) draws place =
          .value number (place + 1)) :
      NumberFrom config stated draws first last number
  | number {fields : Fields} {chosen : Double} {place : Nat} (hfields : stated (.obj fields))
      (htype : fields.get "type" = .str "number") (hfirst : first ≤ place) (hlast : place < last)
      (hchosen : point ((fields.get "minimum").orElse config.defaultMinimum)
        ((fields.get "maximum").orElse config.defaultMaximum) config.numberPrecision draws place =
          .value chosen (place + 1)) :
      NumberFrom config stated draws first last (.float chosen)

section Origins

variable {config : Config} {stated : Json → Prop} {draws : Draws}

theorem NumberFrom.mono {first last first' last' : Nat} {number : Number}
    (hnumber : NumberFrom config stated draws first last number) (hfirst : first' ≤ first)
    (hlast : last ≤ last') : NumberFrom config stated draws first' last' number := by
  cases hnumber with
  | stated hstated => exact .stated hstated
  | integer hfields htype hle hlt hchosen =>
      exact .integer hfields htype (hfirst.trans hle) (hlt.trans_le hlast) hchosen
  | number hfields htype hle hlt hchosen =>
      exact .number hfields htype (hfirst.trans hle) (hlt.trans_le hlast) hchosen

/-! ## Shapes -/

/-- Two bounds are those of a stated object of a type. -/
def BoundsOf (stated : Json → Prop) (type : String) (minimum maximum : Json) : Prop :=
  ∃ fields : Fields, stated (.obj fields) ∧ fields.get "type" = .str type ∧
    fields.get "minimum" = minimum ∧ fields.get "maximum" = maximum

/-- What numbers a shape leads to is stated. -/
def Shape.Within (stated : Json → Prop) : Shape → Prop
  | .anyOf variants => ∀ variant ∈ variants, variant.Within stated
  | .enumeration values => ∀ value ∈ values, value.Within stated
  | .object properties _ => ∀ declared, properties = .obj declared →
      ∀ property ∈ declared, property.2.Within stated
  | .array items _ _ => items.Within stated
  | .integer minimum maximum => BoundsOf stated "integer" minimum maximum
  | .number minimum maximum => BoundsOf stated "number" minimum maximum
  | .constant value => value.Within stated
  | .boolean => True
  | .string _ => True

theorem ofType_within {fields : Fields} (hfields : (Json.obj fields).Within stated) {shape : Shape}
    (hshape : Shape.ofType fields = .ok shape) : shape.Within stated := by
  have hstated : stated (.obj fields) := hfields.objects fields .self
  unfold Shape.ofType at hshape
  dsimp only at hshape
  split at hshape
  next =>
    obtain ⟨required, -, rfl⟩ := map_eq_ok.mp hshape
    intro declared hdeclared property hmem
    split at hdeclared
    next =>
      have hproperties := hfields.get "properties"
      rw [hdeclared] at hproperties
      exact hproperties.field hmem
    next =>
      cases hdeclared
      cases hmem
  split at hshape
  next =>
    cases hshape
    exact hfields.get "items"
  split at hshape
  next =>
    cases hshape
    trivial
  split at hshape
  next htype =>
    cases hshape
    exact ⟨fields, hstated, htype, rfl, rfl⟩
  split at hshape
  next htype =>
    cases hshape
    exact ⟨fields, hstated, htype, rfl, rfl⟩
  split at hshape
  next =>
    cases hshape
    trivial
  next =>
    cases hshape
    exact hfields.get "default"

theorem ofSchema_within {schema : Json} (hschema : schema.Within stated) {shape : Shape}
    (hshape : Shape.ofSchema schema = .ok shape) : shape.Within stated := by
  cases schema with
  | obj fields =>
      unfold Shape.ofSchema at hshape
      dsimp only at hshape
      split at hshape
      next =>
        obtain ⟨variants, hvariants, rfl⟩ := map_eq_ok.mp hshape
        exact fun _ hmem => (hschema.get "anyOf").elements hvariants hmem
      split at hshape
      next =>
        obtain ⟨values, hvalues, rfl⟩ := map_eq_ok.mp hshape
        exact fun _ hmem => (hschema.get "enum").elements hvalues hmem
      next => exact ofType_within hschema hshape
  | _ =>
      cases hshape
      exact within_null

/-- What a reference is resolved to stands in the root. -/
theorem resolve_within {root target definition : Json} {scope : Scope} (hroot : root.Within stated)
    (hscope : Scope.ofRoot root = .ok scope) (hresolve : scope.resolve target = .ok definition) :
    definition.Within stated := by
  obtain ⟨fields, rfl, definitions, key, hdefinitions, -, hscan⟩ := names_of_resolve hscope hresolve
  obtain ⟨definition, hmem, rfl⟩ := exists_of_scan? hscan
  obtain ⟨rootFields, entries, rfl, hentries, hentry, -⟩ := Definition.mem_ofRoot? hdefinitions hmem
  have hwithin := hroot.get "definitions"
  rw [hentries] at hwithin
  exact hwithin.field hentry

/-! ## Values -/

/-- What numbers a task leads to is stated. -/
def Task.Within (stated : Json → Prop) : Task → Prop
  | .schema asked => asked.Within stated
  | .shape expanded => expanded.Within stated
  | .fields _ properties => ∀ property ∈ properties, property.2.Within stated
  | .items asked _ => asked.Within stated

/-- The draws that a task takes beside those of its values. -/
def Task.coins : Task → Nat
  | .fields required properties => optionalCount required properties
  | _ => 0

theorem mem_of_pick {α : Type} {elements : List α} {element : α} {start final : Nat}
    (hpick : pick elements draws start = .value element final) : element ∈ elements := by
  have hmem := @ensures_pick α (fun _ => True) elements draws start fun _ => trivial
  rwa [hpick] at hmem

/-- A value that is made of what is stated holds only numbers of this origin. -/
theorem Costs.numberFrom {root : Json} {scope : Scope} (hroot : root.Within stated)
    (hscope : Scope.ofRoot root = .ok scope)
    (hplaceholder : ∀ number, ¬PartOf (.number number) config.patternPlaceholder) {task : Task}
    {start cost : Nat} {value : Json}
    (hcosts : Costs config scope draws task start value cost) (htask : task.Within stated)
    {number : Number} (hpart : PartOf (.number number) value) :
    NumberFrom config stated draws start (start + (task.coins + cost)) number := by
  induction hcosts with
  | own _ hshape _ ih => exact ih (ofSchema_within htask hshape) hpart
  | hop _ hresolve hshape _ ih =>
      exact ih (ofSchema_within (resolve_within hroot hscope hresolve) hshape) hpart
  | variant hpick _ ih =>
      refine (ih (htask _ (mem_of_pick hpick)) hpart).mono (Nat.le_succ _) ?_
      dsimp only [Task.coins]
      omega
  | listed hpick => exact .stated ((htask _ (mem_of_pick hpick)).numbers number hpart)
  | object _ ih =>
      refine (ih (htask _ rfl) hpart).mono le_rfl ?_
      dsimp only [Task.coins]
      omega
  | emptyArray => cases hpart with | item hmem _ => cases hmem
  | array _ _ _ ih =>
      refine (ih htask hpart).mono (Nat.le_succ _) ?_
      dsimp only [Task.coins]
      omega
  | boolean => cases hpart
  | integer hchosen =>
      cases hpart
      obtain ⟨fields, hfields, htype, rfl, rfl⟩ := htask
      exact .integer hfields htype le_rfl (Nat.lt_succ_self _) hchosen
  | number hchosen =>
      cases hpart
      obtain ⟨fields, hfields, htype, rfl, rfl⟩ := htask
      exact .number hfields htype le_rfl (Nat.lt_succ_self _) hchosen
  | placeholder => exact absurd hpart (hplaceholder number)
  | text => cases hpart
  | constant => exact .stated (htask.numbers number hpart)
  | noField => cases hpart with | field hmem _ => cases hmem
  | required _ _ _ ih ihRest =>
      obtain ⟨hschema, hrest⟩ := List.forall_mem_cons.mp htask
      dsimp only [Task.coins] at ih ihRest ⊢
      rw [optionalCount_cons]
      cases hpart with
      | field hmem hpart =>
          rcases List.mem_cons.mp hmem with rfl | hmem
          · exact (ih hschema hpart).mono le_rfl (by omega)
          · exact (ihRest hrest (.field hmem hpart)).mono (by omega) (by omega)
  | kept hoptional _ _ _ _ ih ihRest =>
      obtain ⟨hschema, hrest⟩ := List.forall_mem_cons.mp htask
      dsimp only [Task.coins] at ih ihRest ⊢
      rw [optionalCount_cons, if_neg hoptional]
      cases hpart with
      | field hmem hpart =>
          rcases List.mem_cons.mp hmem with rfl | hmem
          · exact (ih hschema hpart).mono (by omega) (by omega)
          · exact (ihRest hrest (.field hmem hpart)).mono (by omega) (by omega)
  | left hoptional _ _ _ ihRest =>
      obtain ⟨-, hrest⟩ := List.forall_mem_cons.mp htask
      dsimp only [Task.coins] at ihRest ⊢
      rw [optionalCount_cons, if_neg hoptional]
      exact (ihRest hrest hpart).mono (by omega) (by omega)
  | noItem => cases hpart with | item hmem _ => cases hmem
  | item _ _ ih ihRest =>
      dsimp only [Task.coins] at ih ihRest ⊢
      cases hpart with
      | item hmem hpart =>
          rcases List.mem_cons.mp hmem with rfl | hmem
          · exact (ih htask hpart).mono le_rfl (by omega)
          · exact (ihRest htask (.item hmem hpart)).mono (by omega) (by omega)

end Origins

theorem within_statedIn {schema root : Json} :
    schema.Within (StatedIn schema root) ∧ root.Within (StatedIn schema root) :=
  ⟨⟨fun _ => .inl, fun _ => .inl⟩, ⟨fun _ => .inr, fun _ => .inr⟩⟩

/-- Every number of an example has its origin in the schema or the root, and in a draw that the run
took where it was chosen. -/
theorem numberFrom_of_ends {config : Config} {schema root value : Json} {draws : Draws}
    {position final : Nat}
    (hplaceholder : ∀ number, ¬PartOf (.number number) config.patternPlaceholder)
    (hends : Ends config schema root draws position (.value value final)) {number : Number}
    (hpart : PartOf (.number number) value) :
    NumberFrom config (StatedIn schema root) draws position final number := by
  obtain ⟨-, enough, hrun⟩ := hends
  obtain ⟨scope, next, hevaluated, hmade⟩ := bind_eq_value.mp (hrun enough le_rfl)
  obtain ⟨hscope, rfl⟩ := evaluate_eq_value.mp hevaluated
  obtain ⟨cost, hcosts, rfl⟩ := costs_of_exampleAt hmade
  obtain ⟨hschema, hroot⟩ := @within_statedIn schema root
  have hnumber := hcosts.numberFrom hroot hscope hplaceholder hschema hpart
  dsimp only [Task.coins] at hnumber
  rwa [Nat.zero_add] at hnumber

end Exemplar
