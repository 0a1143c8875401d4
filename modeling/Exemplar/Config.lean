import Exemplar.Json.Basic

/-!
# Configuration

A configuration holds the values that stand in for absent constraints. It is
read from an object, whose unknown fields are ignored and whose known fields are
taken without being checked; whether a value is of any use shows when it is used.
-/

namespace Exemplar

/-- What generation falls back on where a schema leaves something open. -/
structure Config where
  defaultMinItems : Json := .int 1
  defaultMaxItems : Json := .int 5
  defaultMinimum : Json := .int 1
  defaultMaximum : Json := .int 100
  /-- The length of texts without a pattern. -/
  stringLength : Json := .int 10
  /-- What stands for any text with a pattern. -/
  patternPlaceholder : Json :=
    .str "https://example.corezoid.com/api/1/json/public/123456/abcdef"
  /-- The decimal places of numbers. -/
  numberPrecision : Json := .int 2
  /-- A property that is not required is made when its draw lies above this. -/
  optionalPropertyProbability : Json := .float .half
  /-- The deepest nesting that is allowed; null sets no limit. -/
  maxDepth : Json := .null
  /-- Whether the fields can be listed: not where the listing's own name was given a value. -/
  listable : Bool := true
deriving DecidableEq

namespace Config

/-- The configuration that sets nothing. -/
def standard : Config := {}

/-- Gives the field of a name a value; a name of no field changes nothing. A value under the name
of the listing hides the listing. -/
def set (config : Config) (name : Str) (value : Json) : Config :=
  match name with
  | "default_min_items" => { config with defaultMinItems := value }
  | "default_max_items" => { config with defaultMaxItems := value }
  | "default_minimum" => { config with defaultMinimum := value }
  | "default_maximum" => { config with defaultMaximum := value }
  | "string_length" => { config with stringLength := value }
  | "pattern_placeholder" => { config with patternPlaceholder := value }
  | "number_precision" => { config with numberPrecision := value }
  | "optional_property_probability" => { config with optionalPropertyProbability := value }
  | "max_depth" => { config with maxDepth := value }
  | "to_dict" => { config with listable := false }
  | _ => config

/-- Gives several fields values, the last one of a repeated name counting. -/
def setAll (config : Config) (fields : Fields) : Config :=
  fields.foldl (fun config field => config.set field.1 field.2) config

/-- Gives a name a value, where three names stand for the record as a whole: its type and its
reference count cannot be set, and its content can, but only to an object. -/
def assign (config : Config) (name : Str) (value : Json) : Except Fault Config :=
  match name, value with
  | "__class__", _ => .error .wrongKind
  | "__weakref__", _ => .error .noSuchField
  | "__dict__", .obj fields => .ok (standard.setAll fields)
  | "__dict__", _ => .error .wrongKind
  | _, _ => .ok (config.set name value)

/-- The standard configuration with the given fields assigned in order. -/
def ofFields (fields : Fields) : Except Fault Config :=
  fields.foldlM (fun config field => config.assign field.1 field.2) standard

/-- The configuration of a value, which has to be an object. -/
def ofJson : Json → Except Fault Config
  | .obj fields => ofFields fields
  | _ => .error .noSuchField

/-- The nine fields in order. -/
def fields (config : Config) : Fields :=
  [("default_min_items", config.defaultMinItems),
    ("default_max_items", config.defaultMaxItems),
    ("default_minimum", config.defaultMinimum),
    ("default_maximum", config.defaultMaximum),
    ("string_length", config.stringLength),
    ("pattern_placeholder", config.patternPlaceholder),
    ("number_precision", config.numberPrecision),
    ("optional_property_probability", config.optionalPropertyProbability),
    ("max_depth", config.maxDepth)]

def toJson (config : Config) : Except Fault Json :=
  if config.listable then .ok (.obj config.fields) else .error .wrongKind

/-- Whether every field is a scalar of the same key as in another configuration: numbers and truth
values are compared by amount. -/
def sameScalars (a b : Config) : Bool :=
  (a.fields.zip b.fields).all fun (field, field') =>
    match field.2.key?, field'.2.key? with
    | some key, some key' => key = key'
    | _, _ => false

end Config

end Exemplar
