import Exemplar.Proofs.Generation.Allowance

/-!
# What a run meets

Which references a run looks up depends on its draws: a draw chooses among
alternatives, leaves properties out and sets the length of an array, and a failure
ends the run before the rest is looked at. Scopes that resolve alike what is met on
the way give the same outcome, whatever else they hold.
-/

namespace Exemplar

open Run

/-- The schemas inside a shape that are asked for when it is made from a position on, each with the
position from which its example is made. -/
inductive Asks (config : Config) (child : Json → Run Json) (draws : Draws) (position : Nat) :
    Shape → Json → Nat → Prop
  | variant {variants : List Json} {schema : Json} {next : Nat}
      (hpick : pick variants draws position = .value schema next) :
      Asks config child draws position (.anyOf variants) schema next
  | property {before after : List (Str × Json)} {required : List Json} {name : Str}
      {schema : Json} {made : List (Str × Json)} {middle next : Nat}
      (hbefore : fieldsOnto config.optionalPropertyProbability required child before [] draws
        position = .value made middle)
      (hincludes : includes config.optionalPropertyProbability required name draws middle =
        .value true next) :
      Asks config child draws position (.object (.obj (before ++ (name, schema) :: after)) required)
        schema next
  | item {items minItems maxItems : Json} {count : Number} {length : Int} {index : Nat}
      {made : List Json} {first next : Nat} (hitems : items ≠ .null)
      (hcount : spread (minItems.orElse config.defaultMinItems)
        (maxItems.orElse config.defaultMaxItems) draws position = .value count first)
      (hlength : (Json.number count).asInt = .ok length) (hindex : index < length.toNat)
      (hmade : (child items).times index draws first = .value made next) :
      Asks config child draws position (.array items minItems maxItems) items next

/-- The references that are looked up when a schema is made from a position on. -/
inductive Meets (config : Config) (scope : Scope) (draws : Draws) :
    (allowance depth : Nat) → (schema : Json) → (position : Nat) → (reference : Json) → Prop
  | here {allowance depth position next : Nat} {schema reference : Json}
      (hdepth : checkDepth config.maxDepth depth draws position = .value () next)
      (hreference : Node.reference? schema = some reference) :
      Meets config scope draws (allowance + 1) depth schema position reference
  | inside {allowance depth position next later : Nat} {schema inner reference : Json}
      {shape : Shape}
      (hdepth : checkDepth config.maxDepth depth draws position = .value () next)
      (hshape : shapeIn scope schema = .ok shape)
      (hasks : Asks config (exampleAt config scope allowance (depth + 1)) draws next shape inner
        later)
      (hmeets : Meets config scope draws allowance (depth + 1) inner later reference) :
      Meets config scope draws (allowance + 1) depth schema position reference

/-! ## Shapes -/

namespace Run

/-- Two runs of two parts agree if their first parts do, and their second parts from where the first
ones get to. -/
theorem bind_eq_of_agree {α β : Type} {first first' : Run α} {second second' : α → Run β}
    {draws : Draws} {position : Nat} (hfirst : first draws position = first' draws position)
    (hsecond : ∀ result next, first draws position = .value result next →
      second result draws next = second' result draws next) :
    (first >>= second) draws position = (first' >>= second') draws position := by
  rw [bind_apply, bind_apply, ← hfirst]
  cases hvalue : first draws position with
  | value result next => exact hsecond result next hvalue
  | failure cause next => rfl
  | unfinished => rfl

theorem repeatOnto_add {α : Type} (run : Run α) (count more : Nat) (made : List α) :
    repeatOnto run (count + more) made =
      repeatOnto run count made >>= fun results => repeatOnto run more results.reverse := by
  induction count generalizing made with
  | zero => simp [repeatOnto]
  | succ count ih =>
      rw [Nat.succ_add, repeatOnto, repeatOnto, bind_assoc]
      exact congrArg (run >>= ·) (funext fun result => ih (result :: made))

theorem times_succ {α : Type} {run : Run α} {draws : Draws} {count first position next : Nat}
    {made : List α} {result : α} (hmade : run.times count draws first = .value made position)
    (hrun : run draws position = .value result next) :
    run.times (count + 1) draws first = .value (made ++ [result]) next := by
  rw [times] at hmade ⊢
  rw [repeatOnto_add, bind_apply, hmade]
  simp [repeatOnto, bind_apply, hrun]

end Run

theorem fieldsOnto_append {α : Type} (threshold : Json) (required : List Json)
    (child : Json → Run α) (before after : List (Str × Json)) (made : List (Str × α)) :
    fieldsOnto threshold required child (before ++ after) made =
      fieldsOnto threshold required child before made >>= fun fields =>
        fieldsOnto threshold required child after fields.reverse := by
  induction before generalizing made with
  | nil => simp [fieldsOnto]
  | cons property before ih =>
      obtain ⟨name, schema⟩ := property
      rw [List.cons_append, fieldsOnto, fieldsOnto, bind_assoc]
      congr 1
      funext included
      cases included with
      | true =>
          simp only [if_true, bind_assoc]
          congr 1
          funext value
          exact ih _
      | false => exact ih made

section Shapes

variable {config : Config} {child child' : Json → Run Json} {draws : Draws}

/-- From the properties that have been made on, the rest is made alike if what is asked for is. -/
theorem fieldsOnto_eq_of_asks {required : List Json} {position : Nat}
    {before after : List (Str × Json)} {made : List (Str × Json)} {middle : Nat}
    (hbefore : fieldsOnto config.optionalPropertyProbability required child before [] draws
      position = .value made.reverse middle)
    (hchild : ∀ schema next,
      Asks config child draws position (.object (.obj (before ++ after)) required) schema next →
        child schema draws next = child' schema draws next) :
    fieldsOnto config.optionalPropertyProbability required child after made draws middle =
      fieldsOnto config.optionalPropertyProbability required child' after made draws middle := by
  -- the properties before lead from the start to the present position
  induction after generalizing before made middle with
  | nil => rfl
  | cons property after ih =>
      obtain ⟨name, schema⟩ := property
      rw [fieldsOnto, fieldsOnto]
      refine bind_eq_of_agree rfl fun included next hincludes => ?_
      cases included with
      | true =>
          rw [if_pos rfl, if_pos rfl]
          have hsame := hchild schema next (.property hbefore hincludes)
          refine bind_eq_of_agree hsame fun value later hvalue => ?_
          apply @ih (before ++ [(name, schema)])
          · rw [fieldsOnto_append, bind_apply, hbefore]
            simp [fieldsOnto, bind_apply, map_apply, hincludes, hvalue]
          · rwa [List.append_assoc]
      | false =>
          apply @ih (before ++ [(name, schema)])
          · rw [fieldsOnto_append, bind_apply, hbefore]
            simp [fieldsOnto, bind_apply, hincludes]
          · rwa [List.append_assoc]

/-- Repeating two runs that agree wherever the first of them gets to. -/
theorem repeatOnto_eq_of_agree {α : Type} {run run' : Run α} {total index more first position : Nat}
    {made : List α} (htotal : index + more = total)
    (hmade : run.times index draws first = .value made.reverse position)
    (hrun : ∀ index < total, ∀ made next, run.times index draws first = .value made next →
      run draws next = run' draws next) :
    repeatOnto run more made draws position = repeatOnto run' more made draws position := by
  induction more generalizing index made position with
  | zero => rfl
  | succ more ih =>
      have hsame := hrun index (by omega) _ _ hmade
      refine bind_eq_of_agree hsame fun result next hresult => ?_
      refine @ih (index + 1) next (result :: made) (by omega) ?_
      rw [times_succ hmade hresult, List.reverse_cons]

/-- A shape is made alike if the schemas are that it asks for. -/
theorem expand_eq_of_asks {shape : Shape} {position : Nat}
    (hchild : ∀ schema next, Asks config child draws position shape schema next →
      child schema draws next = child' schema draws next) :
    expand config child shape draws position = expand config child' shape draws position := by
  cases shape with
  | anyOf variants =>
      exact bind_eq_of_agree rfl fun schema next hpick => hchild schema next (.variant hpick)
  | object properties required =>
      cases properties with
      | obj properties =>
          have hfields := @fieldsOnto_eq_of_asks config child child' draws required position []
            properties [] position rfl hchild
          rw [expand, expand, map_apply, map_apply, hfields]
      | _ => rfl
  | array items minItems maxItems =>
      by_cases hitems : items = .null
      · subst hitems
        rfl
      · rw [expand_array _ _ hitems, expand_array _ _ hitems]
        refine bind_eq_of_agree rfl fun count first hcount => ?_
        cases hlength : (Json.number count).asInt with
        | ok length =>
            have htimes : (child items).times length.toNat draws first =
                (child' items).times length.toNat draws first := by
              have hnone : (child items).times 0 draws first = .value [].reverse first := rfl
              apply repeatOnto_eq_of_agree (Nat.zero_add _) hnone
              intro index hindex made next hmade
              exact hchild items next (.item hitems hcount hlength hindex hmade)
            change (Json.arr <$> (child items).times length.toNat) draws first =
              (Json.arr <$> (child' items).times length.toNat) draws first
            rw [map_apply, map_apply, htimes]
        | error cause => rfl
  | _ => rfl

end Shapes

/-! ## Schemas -/

/-- Scopes that resolve alike what a run meets give the same outcome. -/
theorem exampleAt_eq_of_meets {config : Config} {scope scope' : Scope} {draws : Draws}
    {allowance depth position : Nat} {schema : Json}
    (hmeets : ∀ reference, Meets config scope draws allowance depth schema position reference →
      scope.resolve reference = scope'.resolve reference) :
    exampleAt config scope allowance depth schema draws position =
      exampleAt config scope' allowance depth schema draws position := by
  induction allowance generalizing depth schema position with
  | zero => rfl
  | succ allowance ih =>
      refine bind_eq_of_agree rfl fun _ next hdepth => ?_
      have hshapes : shapeIn scope schema = shapeIn scope' schema := by
        rw [shapeIn_eq, shapeIn_eq]
        cases hreference : Node.reference? schema with
        | none => rfl
        | some reference =>
            dsimp only
            rw [hmeets reference (.here hdepth hreference)]
      rw [← hshapes]
      cases hshape : shapeIn scope schema with
      | ok shape =>
          apply expand_eq_of_asks
          intro inner later hasks
          exact ih fun reference hinner => hmeets reference (.inside hdepth hshape hasks hinner)
      | error cause => rfl

/-- The references that are looked up when an example of a schema is made within a root. -/
def MeetsWithin (allowance : Nat) (config : Config) (schema root : Json) (draws : Draws)
    (position : Nat) (reference : Json) : Prop :=
  ∃ scope, Scope.ofRoot root = .ok scope ∧
    Meets config scope draws allowance 0 schema position reference

end Exemplar
