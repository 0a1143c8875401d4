import Exemplar.Schema.Definitions

/-!
# Looking definitions up

The table of a scope finds what a scan of the definitions finds first. The scan
is how references are explained; the table is what a run reads.
-/

namespace Exemplar

/-! ## Computations that fail alike -/

/-- Two computations fail with the same cause, or their values are related. -/
inductive FailAlike {ε α β : Type} (related : α → β → Prop) : Except ε α → Except ε β → Prop
  | ok {value : α} {value' : β} (hrelated : related value value') :
      FailAlike related (.ok value) (.ok value')
  | error (cause : ε) : FailAlike related (.error cause) (.error cause)

namespace FailAlike

variable {ε ε' α α' β β' : Type}

theorem bind {related : α → α' → Prop} {final : β → β' → Prop} {first : Except ε α}
    {first' : Except ε α'} {next : α → Except ε β} {next' : α' → Except ε β'}
    (hfirst : FailAlike related first first')
    (hnext : ∀ value value', related value value' → FailAlike final (next value) (next' value')) :
    FailAlike final (first >>= next) (first' >>= next') := by
  cases hfirst with
  | ok hrelated => exact hnext _ _ hrelated
  | error cause => exact .error cause

theorem map {related : β → β' → Prop} {f : α → β} {f' : α' → β'} {result : Except ε α}
    {result' : Except ε α'}
    (halike : FailAlike (fun value value' => related (f value) (f' value')) result result') :
    FailAlike related (result.map f) (result'.map f') := by
  cases halike with
  | ok hrelated => exact .ok hrelated
  | error cause => exact .error cause

theorem imp {related related' : α → β → Prop} {result : Except ε α} {result' : Except ε β}
    (halike : FailAlike related result result')
    (himp : ∀ value value', related value value' → related' value value') :
    FailAlike related' result result' := by
  cases halike with
  | ok hrelated => exact .ok (himp _ _ hrelated)
  | error cause => exact .error cause

theorem mapError {related : α → β → Prop} {result : Except ε α} {result' : Except ε β}
    (halike : FailAlike related result result') (f : ε → ε') :
    FailAlike related (result.mapError f) (result'.mapError f) := by
  cases halike with
  | ok hrelated => exact .ok hrelated
  | error cause => exact .error (f cause)

end FailAlike

/-! ## Identifiers -/

theorem asKey_eq_ok {value : Json} {key : Json.Key} :
    value.asKey = .ok key ↔ value.key? = some key := by
  unfold Json.asKey
  cases value.key? <;> simp

theorem asKey_eq_error {value : Json} (hnone : value.key? = none) :
    value.asKey = .error .wrongKind := by
  rw [Json.asKey, hnone]

theorem key?_eq_null {value : Json} : value.key? = some .null ↔ value = .null := by
  cases value <;> simp [Json.key?]

namespace Definition

/-- Whether a definition carries an identifier of the given key; null is no identifier. -/
def carries (key : Json.Key) (definition : Definition) : Bool :=
  decide (definition.identifier ≠ .null) && decide (definition.identifier.key? = some key)

theorem carries_eq (key : Json.Key) (definition : Definition) :
    definition.carries key =
      (decide (key ≠ .null) && decide (definition.identifier.key? = some key)) := by
  unfold carries
  by_cases hkey : definition.identifier.key? = some key
  · have hnull : definition.identifier = .null ↔ key = .null := by
      rw [← key?_eq_null, hkey, Option.some.injEq]
    simp [hkey, hnull]
  · simp [hkey]

/-- The schema of the first definition that carries an identifier of the given key. -/
def scan? (definitions : List Definition) (key : Json.Key) : Option Fields :=
  (definitions.find? (carries key)).map (·.schema)

/-- Every definition of a root has a scalar for an identifier. -/
def Identifiable (root : Json) : Prop :=
  ∀ definitions, ofRoot? root = some definitions →
    ∀ definition ∈ definitions, definition.identifier.key?.isSome

theorem scan?_cons (definition : Definition) (definitions : List Definition) (key : Json.Key) :
    scan? (definition :: definitions) key =
      (if definition.carries key then some definition.schema else none).or
        (scan? definitions key) := by
  unfold scan?
  rw [List.find?_cons]
  cases definition.carries key <;> simp

theorem scan?_append (definitions definitions' : List Definition) (key : Json.Key) :
    scan? (definitions ++ definitions') key =
      (scan? definitions key).or (scan? definitions' key) := by
  unfold scan?
  rw [List.find?_append, Option.map_or]

theorem scan?_isSome {definitions : List Definition} {definition : Definition} {key : Json.Key}
    (hmem : definition ∈ definitions) (hcarries : definition.carries key) :
    (scan? definitions key).isSome := by
  rw [scan?, Option.isSome_map, List.find?_isSome]
  exact ⟨definition, hmem, hcarries⟩

end Definition

namespace Scope

theorem find?_append (entries : List (Json.Key × Fields)) (key key' : Json.Key) (schema : Fields) :
    find? (entries ++ [(key', schema)]) key =
      (find? entries key).or (if key' = key then some schema else none) := by
  unfold find?
  rw [List.find?_append, List.find?_singleton]
  by_cases hkey : key' = key <;> cases entries.find? (·.1 == key) <;> simp [hkey]

/-- Entering a definition changes only what its own identifier finds, and only if that found
nothing. -/
theorem find?_enter {entries entries' : List (Json.Key × Fields)} {definition : Definition}
    (henter : enter entries definition = .ok entries') (key : Json.Key) :
    find? entries' key =
      (find? entries key).or (if definition.carries key then some definition.schema else none) := by
  unfold enter at henter
  by_cases hnull : definition.identifier = .null
  · rw [if_pos hnull] at henter
    cases henter
    simp [Definition.carries, hnull]
  · rw [if_neg hnull] at henter
    obtain ⟨key', hkey', rfl⟩ := map_eq_ok.mp henter
    have hcarries : definition.carries key = decide (key' = key) := by
      simp [Definition.carries, hnull, asKey_eq_ok.mp hkey']
    rw [hcarries]
    cases hfound : find? entries key' with
    | none => simp [find?_append]
    | some schema =>
        by_cases hkey : key' = key
        · subst hkey
          simp [hfound]
        · simp [hkey]

/-- A table finds what the entries before it found, and otherwise what the scan finds. -/
theorem find?_foldlM {definitions : List Definition} {entries entries' : List (Json.Key × Fields)}
    (hfold : definitions.foldlM enter entries = .ok entries') (key : Json.Key) :
    find? entries' key = (find? entries key).or (Definition.scan? definitions key) := by
  induction definitions generalizing entries with
  | nil =>
      cases hfold
      simp [Definition.scan?]
  | cons definition definitions ih =>
      rw [List.foldlM_cons] at hfold
      obtain ⟨middle, henter, hrest⟩ := bind_eq_ok.mp hfold
      rw [ih hrest, find?_enter henter, Definition.scan?_cons, Option.or_assoc]

/-- A scope exists wherever every identifier is a scalar. -/
theorem exists_foldlM {definitions : List Definition}
    (hscalar : ∀ definition ∈ definitions, definition.identifier.key?.isSome)
    (entries : List (Json.Key × Fields)) :
    ∃ entries', definitions.foldlM enter entries = .ok entries' := by
  induction definitions generalizing entries with
  | nil => exact ⟨entries, rfl⟩
  | cons definition definitions ih =>
      obtain ⟨key, hkey⟩ := Option.isSome_iff_exists.mp (hscalar definition List.mem_cons_self)
      have hstep : ∃ middle, enter entries definition = .ok middle := by
        unfold enter
        split
        next => exact ⟨entries, rfl⟩
        next => exact ⟨_, by rw [asKey_eq_ok.mpr hkey]; rfl⟩
      obtain ⟨middle, hmiddle⟩ := hstep
      obtain ⟨entries', hrest⟩ :=
        ih (fun later hlater => hscalar later (List.mem_cons_of_mem _ hlater)) middle
      exact ⟨entries', by rw [List.foldlM_cons, hmiddle]; exact hrest⟩

theorem enter_error {entries : List (Json.Key × Fields)} {definition : Definition} {cause : Fault}
    (herror : enter entries definition = .error cause) : cause = .wrongKind := by
  unfold enter at herror
  split at herror
  next => cases herror
  next =>
    cases hkey : definition.identifier.key? with
    | some key =>
        rw [asKey_eq_ok.mpr hkey] at herror
        cases herror
    | none =>
        rw [asKey_eq_error hkey] at herror
        cases herror
        rfl

theorem foldlM_enter_error {definitions : List Definition} {definition : Definition}
    (hmem : definition ∈ definitions) (hnone : definition.identifier.key? = none)
    (entries : List (Json.Key × Fields)) :
    definitions.foldlM enter entries = .error .wrongKind := by
  induction definitions generalizing entries with
  | nil => cases hmem
  | cons first rest ih =>
      rw [List.foldlM_cons]
      cases hfirst : enter entries first with
      | error cause =>
          rw [enter_error hfirst]
          rfl
      | ok middle =>
          rcases List.mem_cons.mp hmem with rfl | hrest
          · have hnull : definition.identifier ≠ .null := by
              intro hnull
              rw [hnull] at hnone
              cases hnone
            rw [enter, if_neg hnull, asKey_eq_error hnone] at hfirst
            cases hfirst
          · exact ih hrest middle

/-- A root has a scope just where the identifier of every definition is a scalar. -/
theorem ofRoot_cases (root : Json) :
    (Definition.Identifiable root ∧ ∃ scope, ofRoot root = .ok scope) ∨
      ¬ Definition.Identifiable root ∧ ofRoot root = .error .wrongKind := by
  unfold Definition.Identifiable ofRoot
  cases Definition.ofRoot? root with
  | none => exact Or.inl ⟨by rintro _ ⟨⟩, absent, rfl⟩
  | some definitions =>
      by_cases hscalar : ∀ definition ∈ definitions, definition.identifier.key?.isSome
      · obtain ⟨entries, hentries⟩ := exists_foldlM hscalar []
        refine Or.inl ⟨fun _ heq => Option.some.inj heq ▸ hscalar, table entries, ?_⟩
        dsimp only
        rw [ofDefinitions, hentries]
        rfl
      · refine Or.inr ⟨fun hall => hscalar (hall definitions rfl), ?_⟩
        obtain ⟨definition, hnot⟩ := Classical.not_forall.mp hscalar
        obtain ⟨hmem, hnone⟩ := Classical.not_imp.mp hnot
        dsimp only
        rw [ofDefinitions, foldlM_enter_error hmem (Option.not_isSome_iff_eq_none.mp hnone)]
        rfl

/-- Of two roots both have a scope or neither has, if both are identifiable or neither is. -/
theorem ofRoot_alike {root root' : Json}
    (hidentifiable : Definition.Identifiable root ↔ Definition.Identifiable root') :
    FailAlike (fun scope scope' => ofRoot root = .ok scope ∧ ofRoot root' = .ok scope')
      (ofRoot root) (ofRoot root') := by
  rcases ofRoot_cases root with ⟨hroot, scope, hscope⟩ | ⟨hroot, herror⟩
  · rcases ofRoot_cases root' with ⟨-, scope', hscope'⟩ | ⟨hroot', -⟩
    · rw [hscope, hscope']
      exact .ok ⟨rfl, rfl⟩
    · exact absurd (hidentifiable.mp hroot) hroot'
  · rcases ofRoot_cases root' with ⟨hroot', -⟩ | ⟨-, herror'⟩
    · exact absurd (hidentifiable.mpr hroot') hroot
    · rw [herror, herror']
      exact .error _

/-- What the scope of a root does with references, told by the scan. -/
theorem resolve_ofRoot {root : Json} {scope : Scope} (hscope : ofRoot root = .ok scope)
    (reference : Json) :
    scope.resolve reference =
      match Definition.ofRoot? root with
      | none => .error .noDefinitions
      | some definitions =>
          match reference.asKey with
          | .error cause => .error (.fault cause)
          | .ok key =>
              match Definition.scan? definitions key with
              | some fields => .ok (.obj fields)
              | none => .error (.unresolved reference) := by
  unfold ofRoot at hscope
  cases hdefinitions : Definition.ofRoot? root with
  | none =>
      rw [hdefinitions] at hscope
      cases hscope
      rfl
  | some definitions =>
      rw [hdefinitions] at hscope
      obtain ⟨entries, hfold, rfl⟩ := map_eq_ok.mp hscope
      have hfind := find?_foldlM hfold
      simp only [resolve]
      cases reference.asKey with
      | error cause => rfl
      | ok key =>
          simp only [hfind key]
          rfl

end Scope

end Exemplar
