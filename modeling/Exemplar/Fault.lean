/-!
# Faults

A configuration or a schema may hold any value anywhere. A fault says why an
operation could not be carried out on the values it was given.
-/

namespace Exemplar

/-- Why an operation on values has no result. -/
inductive Fault where
  /-- An operand is of a kind that the operation does not take. -/
  | wrongKind
  /-- A field is asked for or set where there is none. -/
  | noSuchField
  /-- There is no such value: the integer part of NaN, or the text of too long an integer. -/
  | noSuchValue
  /-- A number is too large for the kind of number that is needed. -/
  | tooLarge
  /-- A text is too long for any memory. -/
  | outOfMemory
  /-- An index lies outside its list. -/
  | noSuchIndex
  /-- Decimal arithmetic has no result within its precision. -/
  | invalidDecimal
  /-- A power of ten lies beyond the range of decimal arithmetic. -/
  | decimalOverflow
  /-- Nesting goes deeper than any allowance. -/
  | nestingTooDeep
deriving DecidableEq

/-- A computation that succeeds in two steps succeeds in each. -/
theorem bind_eq_ok {ε α β : Type} {first : Except ε α} {next : α → Except ε β} {result : β} :
    first >>= next = .ok result ↔ ∃ middle, first = .ok middle ∧ next middle = .ok result := by
  constructor
  · intro h
    cases first with
    | error cause => cases h
    | ok middle => exact ⟨middle, rfl, h⟩
  · rintro ⟨middle, rfl, h⟩
    exact h

theorem map_eq_ok {ε α β : Type} {first : Except ε α} {f : α → β} {result : β} :
    first.map f = .ok result ↔ ∃ middle, first = .ok middle ∧ f middle = result := by
  constructor
  · intro h
    cases first with
    | error cause => cases h
    | ok middle => exact ⟨middle, rfl, by simpa [Except.map] using h⟩
  · rintro ⟨middle, rfl, rfl⟩
    rfl

theorem mapError_eq_ok {ε ε' α : Type} {first : Except ε α} {f : ε → ε'} {result : α} :
    first.mapError f = .ok result ↔ first = .ok result := by
  constructor
  · intro h
    cases first with
    | error cause => cases h
    | ok middle =>
        cases h
        rfl
  · rintro rfl
    rfl

end Exemplar
