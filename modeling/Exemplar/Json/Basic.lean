import Exemplar.Number
import Exemplar.Text.Str

/-!
# JSON values

Objects are lists of fields in the order in which they are declared. Nothing in
the type keeps a name from occurring twice; reading a text never produces such
an object, and `Json.DistinctNames` says of a value that it holds none.
-/

namespace Exemplar

inductive Json where
  | null
  | bool (value : Bool)
  | number (value : Number)
  | str (text : Str)
  | arr (items : List Json)
  | obj (fields : List (Str × Json))

/-- The fields of an object, in order. -/
abbrev Fields := List (Str × Json)

/-- A field whose name is written as a text. -/
instance : Coe (String × Json) (Str × Json) := ⟨fun field => (field.1, field.2)⟩

instance : Coe (List (String × Json)) Fields := ⟨List.map fun field => (field.1, field.2)⟩

namespace Json

mutual

/-- Structural equality: the order of fields and the kind of a number count. -/
def beq : Json → Json → Bool
  | null, null => true
  | bool a, bool b => a == b
  | number a, number b => decide (a = b)
  | str a, str b => a == b
  | arr a, arr b => beqItems a b
  | obj a, obj b => beqFields a b
  | _, _ => false

def beqItems : List Json → List Json → Bool
  | [], [] => true
  | a :: as, b :: bs => beq a b && beqItems as bs
  | _, _ => false

def beqFields : List (Str × Json) → List (Str × Json) → Bool
  | [], [] => true
  | (name, a) :: as, (name', b) :: bs => name == name' && beq a b && beqFields as bs
  | _, _ => false

end

mutual

theorem beq_refl : (a : Json) → beq a a = true
  | null => rfl
  | bool _ => by simp [beq]
  | number _ => by simp [beq]
  | str _ => by simp [beq]
  | arr items => by simpa [beq] using beqItems_refl items
  | obj fields => by simpa [beq] using beqFields_refl fields

theorem beqItems_refl : (items : List Json) → beqItems items items = true
  | [] => rfl
  | a :: rest => by simp [beqItems, beq_refl a, beqItems_refl rest]

theorem beqFields_refl : (fields : List (Str × Json)) → beqFields fields fields = true
  | [] => rfl
  | (_, a) :: rest => by simp [beqFields, beq_refl a, beqFields_refl rest]

end

mutual

theorem eq_of_beq : (a b : Json) → beq a b = true → a = b
  | null, b, h => by cases b <;> simp_all [beq]
  | bool _, b, h => by cases b <;> simp_all [beq]
  | number _, b, h => by cases b <;> simp_all [beq]
  | str _, b, h => by cases b <;> simp_all [beq]
  | arr items, b, h => by
      cases b with
      | arr items' => exact congrArg arr (eq_of_beqItems items items' (by simpa [beq] using h))
      | _ => simp [beq] at h
  | obj fields, b, h => by
      cases b with
      | obj fields' => exact congrArg obj (eq_of_beqFields fields fields' (by simpa [beq] using h))
      | _ => simp [beq] at h

theorem eq_of_beqItems : (as bs : List Json) → beqItems as bs = true → as = bs
  | [], bs, h => by cases bs <;> simp_all [beqItems]
  | a :: as, bs, h => by
      cases bs with
      | nil => simp [beqItems] at h
      | cons b bs =>
          simp only [beqItems, Bool.and_eq_true] at h
          rw [eq_of_beq a b h.1, eq_of_beqItems as bs h.2]

theorem eq_of_beqFields : (as bs : List (Str × Json)) → beqFields as bs = true → as = bs
  | [], bs, h => by cases bs <;> simp_all [beqFields]
  | (name, a) :: as, bs, h => by
      cases bs with
      | nil => simp [beqFields] at h
      | cons field bs =>
          obtain ⟨name', b⟩ := field
          simp only [beqFields, Bool.and_eq_true, beq_iff_eq] at h
          rw [h.1.1, eq_of_beq a b h.1.2, eq_of_beqFields as bs h.2]

end

instance : DecidableEq Json := fun a b =>
  if h : beq a b then isTrue (eq_of_beq a b h)
  else isFalse fun heq => h (heq ▸ beq_refl a)

instance : Inhabited Json := ⟨null⟩

def int (value : Int) : Json := number (.int value)

def float (value : Double) : Json := number (.float value)

/-- What counts as present: everything but null, false, zero and what is empty. -/
def truthy : Json → Bool
  | null => false
  | bool value => value
  | number value => !value.isZero
  | str text => text != .plain ""
  | arr items => !items.isEmpty
  | obj fields => !fields.isEmpty

/-- The number that a value counts as: true and false count as one and zero. -/
def number? : Json → Option Number
  | bool value => some (.int (if value then 1 else 0))
  | number value => some value
  | _ => none

/-- The number that a value counts as, needed for arithmetic or comparison. -/
def asNumber (value : Json) : Except Fault Number :=
  match value.number? with
  | some amount => .ok amount
  | none => .error .wrongKind

/-- The integer that a value counts as, needed as a length or a number of places. -/
def asInt (value : Json) : Except Fault Int :=
  match value.number? with
  | some (.int n) => .ok n
  | _ => .error .wrongKind

/-- The value if it is not null, otherwise a fallback. -/
def orElse : Json → Json → Json
  | null, fallback => fallback
  | value, _ => value

end Json

namespace Fields

/-- The value of the first field with a given name. -/
def get? (fields : Fields) (name : Str) : Option Json :=
  (fields.find? (·.1 == name)).map (·.2)

/-- The value of a field; an absent one counts as null. -/
def get (fields : Fields) (name : Str) : Json :=
  (fields.get? name).getD .null

/-- Gives a field a value: in place if the name occurs, otherwise at the end. -/
def set : Fields → Str → Json → Fields
  | [], name, value => [(name, value)]
  | (other, old) :: rest, name, value =>
      if other = name then (name, value) :: rest else (other, old) :: set rest name value

/-- A field that was given a value has it, and the others keep theirs. -/
theorem get?_set (fields : Fields) (name : Str) (value : Json) (other : Str) :
    (set fields name value).get? other =
      if other = name then some value else fields.get? other := by
  induction fields with
  | nil =>
      by_cases h : other = name
      · simp [set, get?, h]
      · simp [set, get?, h, Ne.symm h]
  | cons field rest ih =>
      obtain ⟨first, old⟩ := field
      by_cases hfirst : first = name
      · subst hfirst
        by_cases h : other = first
        · simp [set, get?, h]
        · simp [set, get?, h, Ne.symm h]
      · by_cases h : first = other
        · subst h
          simp [set, get?, hfirst]
        · simpa [set, get?, List.find?_cons, hfirst, h] using ih

/-- Fields in order of arrival: of a repeated name the first place and the last value count. -/
def ofPairs (pairs : List (Str × Json)) : Fields :=
  pairs.foldl (fun fields pair => set fields pair.1 pair.2) []

def names (fields : Fields) : List Str := fields.map (·.1)

end Fields

namespace Json

mutual

/-- No object within the value holds a name twice. -/
def DistinctNames : Json → Prop
  | arr items => DistinctNamesItems items
  | obj fields => (Fields.names fields).Nodup ∧ DistinctNamesFields fields
  | _ => True

/-- `DistinctNames` of every value of a list. -/
def DistinctNamesItems : List Json → Prop
  | [] => True
  | value :: rest => DistinctNames value ∧ DistinctNamesItems rest

/-- `DistinctNames` of every value of a list of fields. -/
def DistinctNamesFields : List (Str × Json) → Prop
  | [] => True
  | (_, value) :: rest => DistinctNames value ∧ DistinctNamesFields rest

end

/-- What a scalar is looked up by: numbers and truth values by their exact amount, so that one,
`1.0` and true are the same key, and no number is a text. -/
inductive Key where
  | null
  | amount (extent : Extent)
  | text (text : Str)
deriving DecidableEq

/-- The key of a scalar; arrays and objects have none. -/
def key? : Json → Option Key
  | null => some .null
  | bool value => some (.amount (Number.int (if value then 1 else 0)).extent)
  | number value => some (.amount value.extent)
  | str text => some (.text text)
  | arr _ => none
  | obj _ => none

/-- The key of a value that has to be a scalar. -/
def asKey (value : Json) : Except Fault Key :=
  match value.key? with
  | some key => .ok key
  | none => .error .wrongKind

end Json

end Exemplar
