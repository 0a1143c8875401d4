import Exemplar.Json.Basic

/-!
# What a schema asks for

A schema either refers to a definition or has a shape of its own. The keywords
take precedence in the order `$ref`, `anyOf`, `enum`, `type`; one that is
missing, null, zero or empty counts as absent. Schemas inside a shape are left
as they are, so that a shape is one level of a schema.
-/

namespace Exemplar

/-- One level of a schema that refers to nothing. Keywords that were not given are null. -/
inductive Shape where
  | anyOf (variants : List Json)
  | enumeration (values : List Json)
  | object (properties : Json) (required : List Json)
  | array (items minItems maxItems : Json)
  | boolean
  | integer (minimum maximum : Json)
  | number (minimum maximum : Json)
  | string (pattern : Json)
  | constant (value : Json)
deriving DecidableEq

/-- One level of a schema. -/
inductive Node where
  | reference (target : Json)
  | shape (shape : Shape)
deriving DecidableEq

/-- The elements of a value that is taken for a list: a text gives its characters and an object
its names. -/
def Json.elements : Json → Except Fault (List Json)
  | .arr items => .ok items
  | .str text => .ok (text.letters.map .str)
  | .obj fields => .ok (fields.map fun field => .str field.1)
  | _ => .error .wrongKind

namespace Shape

/-- The shape that the keyword `type` selects; any other type stands for a constant value. -/
def ofType (fields : Fields) : Except Fault Shape :=
  let value := fields.get
  if value "type" = .str "object" then
    let required := value "required"
    let properties := value "properties"
    let properties := if properties.truthy then properties else .obj []
    (if required.truthy then required.elements else .ok []).map (object properties)
  else if value "type" = .str "array" then
    .ok (array (value "items") (value "minItems") (value "maxItems"))
  else if value "type" = .str "boolean" then .ok boolean
  else if value "type" = .str "integer" then .ok (integer (value "minimum") (value "maximum"))
  else if value "type" = .str "number" then .ok (number (value "minimum") (value "maximum"))
  else if value "type" = .str "string" then .ok (string (value "pattern"))
  else .ok (constant (value "default"))

/-- The shape of a schema whose own reference is ignored. A schema that is no object has no
keywords and stands for null. -/
def ofSchema : Json → Except Fault Shape
  | .obj fields =>
      let alternatives := Fields.get fields "anyOf"
      let values := Fields.get fields "enum"
      if alternatives.truthy then alternatives.elements.map anyOf
      else if values.truthy then values.elements.map enumeration
      else ofType fields
  | _ => .ok (constant .null)

end Shape

namespace Node

/-- The reference of a schema, if it has one. -/
def reference? : Json → Option Json
  | .obj fields =>
      let target := Fields.get fields "$ref"
      if target.truthy then some target else none
  | _ => none

/-- The node of a schema. -/
def ofSchema (schema : Json) : Except Fault Node :=
  match reference? schema with
  | some target => .ok (reference target)
  | none => (Shape.ofSchema schema).map shape

end Node

end Exemplar
