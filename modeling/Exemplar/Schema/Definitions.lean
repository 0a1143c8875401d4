import Exemplar.Failure

/-!
# Definitions

A reference names a definition of the root schema by identifier, never by the
name under which the definition stands. A scope is the table of the identifiers:
the first definition that carries an identifier is the one that counts.
-/

namespace Exemplar

/-- A definition of a root schema. A null identifier makes it unreachable. -/
structure Definition where
  name : Str
  identifier : Json
  schema : Fields
deriving DecidableEq

namespace Definition

/-- The identifier of a schema: `$id`, or the older `id` where that is absent or empty. -/
def identifierOf (fields : Fields) : Json :=
  let identifier := fields.get "$id"
  if identifier.truthy then identifier else fields.get "id"

/-- The definition that an entry makes; an entry that is no object is a remark. -/
def ofEntry? : Str × Json → Option Definition
  | (name, .obj fields) => some ⟨name, identifierOf fields, fields⟩
  | _ => none

/-- The definitions of a root schema in order, or nothing if it has no such keyword. -/
def ofRoot? : Json → Option (List Definition)
  | .obj fields =>
      match Fields.get fields "definitions" with
      | .null => none
      | .obj entries => some (entries.filterMap ofEntry?)
      | _ => some []
  | _ => none

theorem ofRoot?_obj {fields entries : Fields} (hentries : fields.get "definitions" = .obj entries) :
    ofRoot? (.obj fields) = some (entries.filterMap ofEntry?) := by
  rw [ofRoot?, hentries]

end Definition

/-- The definitions that references can reach. -/
inductive Scope where
  /-- The root schema has no definitions at all. -/
  | absent
  /-- Identifiers and what they stand for, none of them twice. -/
  | table (entries : List (Json.Key × Fields))
deriving DecidableEq

namespace Scope

/-- What an identifier stands for in a table. -/
def find? (entries : List (Json.Key × Fields)) (key : Json.Key) : Option Fields :=
  (entries.find? (·.1 == key)).map (·.2)

/-- Enters a definition into a table unless its identifier is taken or null. -/
def enter (entries : List (Json.Key × Fields)) (definition : Definition) :
    Except Fault (List (Json.Key × Fields)) :=
  if definition.identifier = .null then .ok entries
  else
    definition.identifier.asKey.map fun key =>
      if (find? entries key).isSome then entries else entries ++ [(key, definition.schema)]

/-- The table of a list of definitions. -/
def ofDefinitions (definitions : List Definition) : Except Fault Scope :=
  (definitions.foldlM enter []).map table

/-- The scope of a root schema. It exists only if every identifier is a scalar. -/
def ofRoot (root : Json) : Except Fault Scope :=
  match Definition.ofRoot? root with
  | none => .ok absent
  | some definitions => ofDefinitions definitions

/-- The schema that a reference stands for. -/
def resolve (scope : Scope) (reference : Json) : Except Failure Json :=
  match scope with
  | absent => .error .noDefinitions
  | table entries =>
      match reference.asKey with
      | .error cause => .error (.fault cause)
      | .ok key =>
          match find? entries key with
          | some fields => .ok (.obj fields)
          | none => .error (.unresolved reference)

end Scope

end Exemplar
