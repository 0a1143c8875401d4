import Exemplar.Proofs.Generation.Allowance

/-!
# References by a linear scan

A scope is a table that is filled once, under keys. What it answers is what reading
the definitions in their order would answer, comparing the identifier of each with
the reference: the table only saves the reading.
-/

namespace Exemplar

namespace Json

/-- Whether a value has parts. Such a value identifies nothing. -/
def compound : Json → Bool
  | arr _ | obj _ => true
  | _ => false

/-- Whether a value equals a scalar: numbers and truth values by their exact amount, so that NaN
equals nothing; texts by their characters; null only itself. -/
def equals : Json → Json → Bool
  | null, null => true
  | str text, str text' => text == text'
  | value, scalar =>
      match value.number?, scalar.number? with
      | some amount, some amount' => amount.extent.same amount'.extent
      | _, _ => false

theorem key?_isSome (value : Json) : value.key?.isSome = !value.compound := by
  cases value <;> rfl

/-- Only NaN has no place on the line. -/
theorem extent_eq_undefined {amount : Number} :
    amount.extent = .undefined ↔ amount = .float .nan := by
  constructor
  · intro hextent
    match amount, hextent with
    | .float .nan, _ => rfl
  · rintro rfl
    rfl

/-- A number equals the values that have its key. -/
theorem equals_number {amount : Number} (hnan : amount ≠ .float .nan) (value : Json) :
    value.equals (.number amount) = decide (value.key? = some (.amount amount.extent)) := by
  have hdefined : amount.extent ≠ .undefined := fun hextent => hnan (extent_eq_undefined.mp hextent)
  have hsame (other : Number) :
      other.extent.same amount.extent = decide (other.extent = amount.extent) := by
    cases hother : other.extent with
    | undefined => simp [Extent.same, Ne.symm hdefined]
    | _ => rfl
  cases value with
  | bool value => simp [equals, number?, key?, hsame]
  | number other => simp [equals, number?, key?, hsame]
  | _ => simp [equals, number?, key?]

/-- A scalar other than NaN equals just the values that have its key. -/
theorem equals_eq {reference : Json} {key : Key} (hkey : reference.key? = some key)
    (hnan : reference ≠ .float .nan) (value : Json) :
    value.equals reference = decide (value.key? = some key) := by
  cases reference with
  | null =>
      cases hkey
      cases value <;> simp [equals, number?, key?]
  | bool reference =>
      cases hkey
      have hone : value.equals (.bool reference) =
          value.equals (.number (.int (if reference then 1 else 0))) := by
        cases value <;> rfl
      rw [hone]
      exact equals_number (by simp) value
  | number amount =>
      cases hkey
      exact equals_number (fun heq => hnan (congrArg Json.number heq)) value
  | str text =>
      cases hkey
      cases value <;> simp [equals, number?, key?, Bool.beq_eq_decide_eq]
  | arr items => cases hkey
  | obj fields => cases hkey

end Json

namespace Definition

/-- The first entry that is an object and has an identifier equal to a reference. -/
def firstEqual? (reference : Json) : List (Str × Json) → Option Fields
  | [] => none
  | (_, .obj fields) :: rest =>
      if identifierOf fields ≠ .null ∧ (identifierOf fields).equals reference then some fields
      else firstEqual? reference rest
  | _ :: rest => firstEqual? reference rest

/-- What a reference stands for in a root, found by reading the definitions in order. -/
def readFor (reference : Json) : Json → Except Failure Json
  | .obj fields =>
      match Fields.get fields "definitions" with
      | .null => .error .noDefinitions
      | .obj entries =>
          match firstEqual? reference entries with
          | some schema => .ok (.obj schema)
          | none => .error (.unresolved reference)
      | _ => .error (.unresolved reference)
  | _ => .error .noDefinitions

theorem readFor_eq_ok {fields schema : Fields} {entries : List (Str × Json)} {reference : Json}
    (hentries : fields.get "definitions" = .obj entries)
    (hfound : firstEqual? reference entries = some schema) :
    readFor reference (.obj fields) = .ok (.obj schema) := by
  simp only [readFor, hentries, hfound]

theorem readFor_eq_error {fields : Fields} {entries : List (Str × Json)} {reference : Json}
    (hentries : fields.get "definitions" = .obj entries)
    (hnone : firstEqual? reference entries = none) :
    readFor reference (.obj fields) = .error (.unresolved reference) := by
  simp only [readFor, hentries, hnone]

/-- Some definition of a root is identified by an array or an object. -/
def CompoundIdentifier (root : Json) : Prop :=
  ∃ fields entries name schema, root = .obj fields ∧
    Fields.get fields "definitions" = .obj entries ∧ (name, Json.obj schema) ∈ entries ∧
    (identifierOf schema).compound

theorem mem_ofRoot? {root : Json} {definitions : List Definition} {definition : Definition}
    (hroot : ofRoot? root = some definitions) (hmem : definition ∈ definitions) :
    ∃ fields entries, root = .obj fields ∧ Fields.get fields "definitions" = .obj entries ∧
      (definition.name, Json.obj definition.schema) ∈ entries ∧
      definition.identifier = identifierOf definition.schema := by
  unfold ofRoot? at hroot
  split at hroot
  next fields =>
    split at hroot
    next => cases hroot
    next entries hentries =>
      cases hroot
      obtain ⟨⟨name, value⟩, hentry, hmade⟩ := List.mem_filterMap.mp hmem
      cases value with
      | obj schema =>
          cases hmade
          exact ⟨fields, entries, rfl, hentries, hentry, rfl⟩
      | _ => cases hmade
    next =>
      cases hroot
      cases hmem
  next => cases hroot

/-- Identifiers fail to be scalars only where one of them is an array or an object. -/
theorem not_identifiable {root : Json} : ¬ Identifiable root ↔ CompoundIdentifier root := by
  constructor
  · intro hnot
    apply Classical.byContradiction
    intro hnone
    refine hnot fun definitions hroot definition hmem => ?_
    obtain ⟨fields, entries, rfl, hentries, hentry, hidentifier⟩ := mem_ofRoot? hroot hmem
    rw [hidentifier, Json.key?_isSome, Bool.not_eq_true', Bool.eq_false_iff]
    exact fun hcompound => hnone ⟨fields, entries, _, _, rfl, hentries, hentry, hcompound⟩
  · rintro ⟨fields, entries, name, schema, rfl, hentries, hentry, hcompound⟩ hidentifiable
    have hscalar := hidentifiable _ (ofRoot?_obj hentries) ⟨name, identifierOf schema, schema⟩
      (List.mem_filterMap.mpr ⟨_, hentry, rfl⟩)
    rw [Json.key?_isSome, hcompound] at hscalar
    cases hscalar

/-- The scan by keys comes to the same definition as reading and comparing. -/
theorem scan?_eq_firstEqual? {reference : Json} {key : Json.Key}
    (hkey : reference.key? = some key) (hnan : reference ≠ .float .nan)
    (entries : List (Str × Json)) :
    scan? (entries.filterMap ofEntry?) key = firstEqual? reference entries := by
  induction entries with
  | nil => rfl
  | cons entry rest ih =>
      obtain ⟨name, value⟩ := entry
      cases value with
      | obj schema =>
          have hcarries : carries key ⟨name, identifierOf schema, schema⟩ =
              decide (identifierOf schema ≠ .null ∧ (identifierOf schema).equals reference) := by
            simp [carries, Json.equals_eq hkey hnan]
          simp only [List.filterMap_cons, ofEntry?, scan?_cons, hcarries, firstEqual?, ih]
          split <;> split <;> simp_all
      | _ => simpa only [List.filterMap_cons, ofEntry?, firstEqual?] using ih

end Definition

namespace Scope

/-- The table answers what reading the definitions answers. -/
theorem resolve_eq_readFor {root : Json} {scope : Scope} (hscope : ofRoot root = .ok scope)
    {reference : Json} (hscalar : ¬ reference.compound) (hnan : reference ≠ .float .nan) :
    scope.resolve reference = Definition.readFor reference root := by
  obtain ⟨key, hkey⟩ : ∃ key, reference.key? = some key := by
    rw [← Option.isSome_iff_exists, Json.key?_isSome]
    simpa using hscalar
  rw [resolve_ofRoot hscope, asKey_eq_ok.mpr hkey]
  cases root with
  | obj fields =>
      cases hentries : Fields.get fields "definitions" with
      | obj entries =>
          have hscan := Definition.scan?_eq_firstEqual? hkey hnan entries
          rw [Definition.ofRoot?_obj hentries]
          cases hfound : Definition.firstEqual? reference entries with
          | some schema =>
              rw [Definition.readFor_eq_ok hentries hfound]
              simp only [hscan, hfound]
          | none =>
              rw [Definition.readFor_eq_error hentries hfound]
              simp only [hscan, hfound]
      | _ => simp only [Definition.ofRoot?, Definition.readFor, hentries, Definition.scan?,
          List.find?_nil, Option.map_none]
  | _ => rfl

end Scope

/-- A reference is resolved as reading the definitions in their order would resolve it. If some
definition is identified by an array or an object, no scope of the root exists and nothing is
generated. Otherwise there is a scope, every scalar reference other than NaN has the answer of the
reading, and one scope gives any sequence of references the answers that a new one for each would
give. -/
theorem references_resolve_by_reading (root : Json) :
    (Definition.CompoundIdentifier root →
      Scope.ofRoot root = .error .wrongKind ∧
        ∀ allowance config schema draws position,
          exampleWithin allowance config schema root draws position =
            .failure (.fault .wrongKind) position) ∧
      (¬ Definition.CompoundIdentifier root →
        ∃ scope, Scope.ofRoot root = .ok scope ∧
          (∀ reference : Json, ¬ reference.compound → reference ≠ .float .nan →
            scope.resolve reference = Definition.readFor reference root) ∧
          ∀ references : List Json,
            (references.mapM fun reference => (Scope.ofRoot root).map (·.resolve reference)) =
              .ok (references.map scope.resolve)) := by
  rw [← Definition.not_identifiable, Classical.not_not]
  rcases Scope.ofRoot_cases root with ⟨hidentifiable, scope, hscope⟩ | ⟨hnot, herror⟩
  · refine ⟨fun hnot => absurd hidentifiable hnot, fun _ => ⟨scope, hscope, ?_, ?_⟩⟩
    · exact fun reference => Scope.resolve_eq_readFor hscope
    · intro references
      rw [hscope]
      exact List.mapM_pure
  · refine ⟨fun _ => ⟨herror, ?_⟩, fun hidentifiable => absurd hidentifiable hnot⟩
    intro allowance config schema draws position
    rw [exampleWithin, herror]
    rfl

namespace Sample

/-- A definition without an identifier, and three whose identifiers are equal. -/
def equalIdentifiers : Json :=
  .obj [("definitions", .obj
    [("remark", .str "none of these is reached by its name"),
      ("unnamed", .obj [("type", .str "boolean")]),
      ("truth", .obj [("$id", .int 0), ("id", .bool true)]),
      ("whole", .obj [("$id", .int 1), ("type", .str "integer")]),
      ("point", .obj [("$id", .float (.ofDecimal false 1 0)), ("type", .str "number")])])]

/-- A definition that is identified by an array. -/
def listedIdentifier : Json :=
  .obj [("definitions", .obj [("pair", .obj [("id", .arr [.int 1, .int 2])])])]

theorem not_compoundIdentifier_equalIdentifiers :
    ¬ Definition.CompoundIdentifier equalIdentifiers := by
  rw [← Definition.not_identifiable, Classical.not_not]
  intro definitions hdefinitions
  cases hdefinitions
  decide +kernel

end Sample

theorem references_resolve_by_reading_sample :
    (∃ scope, Scope.ofRoot Sample.equalIdentifiers = .ok scope ∧
      scope.resolve (.float (.ofDecimal false 10 (-1))) =
        .ok (.obj [("$id", .int 0), ("id", .bool true)]) ∧
      scope.resolve (.str "1") = .error (.unresolved (.str "1"))) ∧
      exampleWithin 5 .standard (.obj []) Sample.listedIdentifier (Draws.constant .zero) 0 =
        .failure (.fault .wrongKind) 0 := by
  constructor
  · obtain ⟨scope, hscope, hread, -⟩ :=
      (references_resolve_by_reading Sample.equalIdentifiers).2
        Sample.not_compoundIdentifier_equalIdentifiers
    refine ⟨scope, hscope, ?_, ?_⟩
    · rw [hread _ (by decide) (by decide +kernel)]
      exact Definition.readFor_eq_ok rfl (by decide +kernel)
    · rw [hread _ (by decide) (by decide)]
      exact Definition.readFor_eq_error rfl (by decide +kernel)
  · refine ((references_resolve_by_reading Sample.listedIdentifier).1 ?_).2 ..
    exact ⟨_, _, "pair", _, rfl, rfl, List.mem_singleton.mpr rfl, rfl⟩

end Exemplar
