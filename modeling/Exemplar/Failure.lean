import Exemplar.Decimal.Text
import Exemplar.Json.Printer

/-!
# Why no example is made

A reference may lead nowhere and a limit on nesting may be exceeded; these are
reported with a message. Everything else is a fault of the values in the schema
or the configuration.
-/

namespace Exemplar

/-- Why a schema has no example. -/
inductive Failure where
  | noDefinitions
  | unresolved (reference : Json)
  | tooDeep (limit : Json)
  | fault (cause : Fault)
deriving DecidableEq

/-- How a value is shown inside a sentence: a text without quotation marks, and words of their own
for null, truth values and what has no digits. -/
def Json.shown : Json → Str
  | .null => "None"
  | .bool value => if value then "True" else "False"
  | .number (.int value) => toString value
  | .number (.float value) => value.text ⟨"nan", "inf"⟩
  | .str text => text
  | value => value.compact

namespace Failure

/-- The message of a failure that is reported. -/
def message? : Failure → Option Str
  | noDefinitions => some "No definitions found in the root schema."
  | unresolved reference =>
      some ("Schema with $id '" ++ reference.shown ++ "' not found in definitions.")
  | tooDeep limit =>
      some ("Maximum schema nesting depth of " ++ limit.shown ++ " exceeded.")
  | fault _ => none

end Failure

end Exemplar
