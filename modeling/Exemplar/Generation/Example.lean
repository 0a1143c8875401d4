import Exemplar.Config
import Exemplar.Decimal.Rounding
import Exemplar.Generation.Run
import Exemplar.Schema.Definitions
import Exemplar.Schema.Shape

/-!
# Examples

An example is a random value that satisfies a schema. References are resolved
in the scope of a root schema, one hop at a time: the reference of a definition
itself is ignored. Every draw serves one choice, and the choices are made in the
order in which the schema declares what they decide.

Schemas may refer to themselves without end, so that a run has an allowance of
nested schemas. An allowance that suffices does not show in the outcome.
-/

namespace Exemplar

open Run

/-- The characters of generated texts. -/
def alphabet : List Char :=
  "ABCDEFGHIJKLMNOPQRSTUVWXYZabcdefghijklmnopqrstuvwxyz0123456789".toList

/-- The element at an index; a negative index counts from the end. -/
def elementAt {α : Type} (elements : List α) (index : Int) : Except Fault α :=
  let place := if index < 0 then index + elements.length else index
  if place < 0 then .error .noSuchIndex
  else
    match elements[place.toNat]? with
    | some element => .ok element
    | none => .error .noSuchIndex

/-- Where a draw lies among a number of equal parts. -/
def partOf (draw : Double) (count : Number) : Except Fault Int :=
  Number.scale draw count >>= Double.floor

/-- Chooses an element by one draw. -/
def pick {α : Type} (elements : List α) : Run α := do
  let drawn ← draw
  evaluate (partOf drawn (.int elements.length) >>= elementAt elements)

/-- Chooses a whole step from the lower bound on, both bounds included, by one draw. The bounds
are looked at after the draw. -/
def spread (lower upper : Json) : Run Number := do
  let drawn ← draw
  evaluate do
    let upper ← upper.asNumber
    let lower ← lower.asNumber
    let count ← (← upper.sub lower).add (.int 1)
    let part ← partOf drawn count
    Number.add (.int part) lower

/-- Chooses a point between two bounds by one draw and rounds it. -/
def point (lower upper places : Json) : Run Double := do
  let drawn ← draw
  evaluate do
    let upper ← upper.asNumber
    let lower ← lower.asNumber
    let offset ← Number.scale drawn (← upper.sub lower)
    let chosen ← (← Number.add (.float offset) lower).toDouble
    chosen.round (← places.asInt)

/-- A text of random letters and digits. -/
def word (length : Json) : Run String := do
  let length ← evaluate length.asInt
  return String.ofList (← (pick alphabet).times length.toNat)

/-- Fails if a depth exceeds the limit. -/
def checkDepth (limit : Json) (depth : Nat) : Run Unit :=
  if limit = .null then pure ()
  else do
    let bound ← evaluate limit.asNumber
    if bound.lt (.int depth) then fail (.tooDeep limit)

/-- Whether a property is made: always if it is required, otherwise if the next draw lies above the
threshold. -/
def includes (threshold : Json) (required : List Json) (name : Str) : Run Bool :=
  if required.contains (.str name) then pure true
  else do
    let drawn ← draw
    let threshold ← evaluate threshold.asNumber
    return threshold.lt (.float drawn)

/-- Makes the fields of an object in order; `made` are those made before, the last one first. -/
def fieldsOnto {α : Type} (threshold : Json) (required : List Json) (child : Json → Run α) :
    List (Str × Json) → List (Str × α) → Run (List (Str × α))
  | [], made => pure made.reverse
  | (name, schema) :: rest, made => do
      if ← includes threshold required name then
        let value ← child schema
        fieldsOnto threshold required child rest ((name, value) :: made)
      else fieldsOnto threshold required child rest made

/-- Makes the value of a shape; `child` makes the values of the schemas inside it. -/
def expand (config : Config) (child : Json → Run Json) : Shape → Run Json
  | .anyOf variants => pick variants >>= child
  | .enumeration values => pick values
  -- what `properties` holds shows only here: until now any present value was accepted
  | .object (.obj properties) required =>
      .obj <$> fieldsOnto config.optionalPropertyProbability required child properties []
  | .object _ _ => fail (.fault .noSuchField)
  | .array .null _ _ => pure (.arr [])
  | .array items minItems maxItems => do
      let count ← spread (minItems.orElse config.defaultMinItems)
        (maxItems.orElse config.defaultMaxItems)
      let length ← evaluate (Json.number count).asInt
      .arr <$> (child items).times length.toNat
  | .boolean => do
      let drawn ← draw
      return .bool (drawn.extent.lt Double.half.extent)
  | .integer minimum maximum =>
      .number <$> spread (minimum.orElse config.defaultMinimum)
        (maximum.orElse config.defaultMaximum)
  | .number minimum maximum =>
      .float <$> point (minimum.orElse config.defaultMinimum)
        (maximum.orElse config.defaultMaximum) config.numberPrecision
  | .string pattern =>
      if pattern.truthy then pure config.patternPlaceholder
      else (fun text => .str (.plain text)) <$> word config.stringLength
  | .constant value => pure value

theorem expand_array (config : Config) (child : Json → Run Json) {items : Json}
    (hitems : items ≠ .null) (minItems maxItems : Json) :
    expand config child (.array items minItems maxItems) = (do
      let count ← spread (minItems.orElse config.defaultMinItems)
        (maxItems.orElse config.defaultMaxItems)
      let length ← evaluate (Json.number count).asInt
      .arr <$> (child items).times length.toNat) := by
  cases items with
  | null => exact absurd rfl hitems
  | _ => rfl

/-- The shape of a schema, that of its definition if it is a reference. -/
def shapeIn (scope : Scope) (schema : Json) : Except Failure Shape := do
  match ← (Node.ofSchema schema).mapError .fault with
  | .shape shape => return shape
  | .reference target =>
      let definition ← scope.resolve target
      (Shape.ofSchema definition).mapError .fault

theorem shapeIn_eq (scope : Scope) (schema : Json) :
    shapeIn scope schema =
      match Node.reference? schema with
      | none => (Shape.ofSchema schema).mapError .fault
      | some target =>
          scope.resolve target >>= fun definition =>
            (Shape.ofSchema definition).mapError .fault := by
  unfold shapeIn Node.ofSchema
  cases Node.reference? schema with
  | some target => rfl
  | none => cases Shape.ofSchema schema <;> rfl

/-- Makes an example of a schema at a nesting depth. -/
def exampleAt (config : Config) (scope : Scope) : Nat → Nat → Json → Run Json
  | 0, _, _ => unfinished
  | allowance + 1, depth, schema => do
      checkDepth config.maxDepth depth
      let shape ← attempt (shapeIn scope schema)
      expand config (exampleAt config scope allowance (depth + 1)) shape

/-- Makes an example of a schema whose references are resolved in a root schema, with an allowance
of nested schemas. -/
def exampleWithin (allowance : Nat) (config : Config) (schema root : Json) : Run Json := do
  let scope ← evaluate (Scope.ofRoot root)
  exampleAt config scope allowance 0 schema

/-- The allowance of nested schemas where nothing else is said. -/
def nestingAllowance : Nat := 4000

end Exemplar
