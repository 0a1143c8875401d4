import Exemplar.Proofs.Generation.Encounters

/-!
# Revised roots

A root takes part in a run only through what its definitions answer, and of these
the first to carry an identifier answers. Names of definitions, remarks between
them, definitions that come too late and those that nobody asks for do not show in
the outcome, and neither do the other keywords of the root.
-/

namespace Exemplar

open Run

/-- What can be entered after some definitions of a root without being noticed in a run that looks
up certain references. -/
inductive Overlooked (met : Json → Prop) (before : Fields) : Json → Prop
  | remark {value : Json} (hother : ∀ fields, value ≠ .obj fields) : Overlooked met before value
  | repeated {name : Str} {fields fields' : Fields} (hmem : (name, .obj fields) ∈ before)
      (hsame : (Definition.identifierOf fields').key? = (Definition.identifierOf fields).key?) :
      Overlooked met before (.obj fields')
  | anonymous {fields : Fields} (hnull : Definition.identifierOf fields = .null) :
      Overlooked met before (.obj fields)
  | unmet {fields : Fields} {key : Json.Key}
      (hkey : (Definition.identifierOf fields).key? = some key)
      (hunmet : ∀ reference, met reference → reference.key? ≠ some key) :
      Overlooked met before (.obj fields)

/-- A change of the definitions of a root that is not noticed in a run that looks up certain
references. -/
inductive Unnoticed (met : Json → Prop) : Fields → Fields → Prop
  | renamed {entries entries' : Fields} (hvalues : entries.map (·.2) = entries'.map (·.2)) :
      Unnoticed met entries entries'
  | entered {before after : Fields} {name : Str} {value : Json}
      (hoverlooked : Overlooked met before value) :
      Unnoticed met (before ++ after) (before ++ (name, value) :: after)
  | trans {entries entries' entries'' : Fields} (hfirst : Unnoticed met entries entries')
      (hsecond : Unnoticed met entries' entries'') : Unnoticed met entries entries''

/-- Two lists of definitions answer alike what is looked up, and both or neither can be entered into
a table. -/
structure AnswerAlike (met : Json → Prop) (definitions definitions' : List Definition) : Prop where
  identifiable : (∀ definition ∈ definitions, definition.identifier.key?.isSome) ↔
    ∀ definition ∈ definitions', definition.identifier.key?.isSome
  answers : ∀ reference key, met reference → reference.key? = some key →
    Definition.scan? definitions key = Definition.scan? definitions' key

namespace AnswerAlike

variable {met : Json → Prop}

theorem refl (definitions : List Definition) : AnswerAlike met definitions definitions :=
  ⟨Iff.rfl, fun _ _ _ _ => rfl⟩

theorem trans {definitions definitions' definitions'' : List Definition}
    (hfirst : AnswerAlike met definitions definitions')
    (hsecond : AnswerAlike met definitions' definitions'') :
    AnswerAlike met definitions definitions'' where
  identifiable := hfirst.identifiable.trans hsecond.identifiable
  answers reference key hmet hkey :=
    (hfirst.answers reference key hmet hkey).trans (hsecond.answers reference key hmet hkey)

/-- Names do not count. -/
theorem of_values {entries entries' : Fields} (hvalues : entries.map (·.2) = entries'.map (·.2)) :
    AnswerAlike met (entries.filterMap Definition.ofEntry?)
      (entries'.filterMap Definition.ofEntry?) := by
  induction entries generalizing entries' with
  | nil =>
      rw [List.map_eq_nil_iff.mp hvalues.symm]
      exact refl []
  | cons entry entries ih =>
      obtain ⟨entry', rest', rfl, hvalue, hrest⟩ := List.map_eq_cons_iff.mp hvalues.symm
      obtain ⟨name, value⟩ := entry
      obtain ⟨name', value'⟩ := entry'
      have hvalue : value' = value := hvalue
      subst hvalue
      have hrest := ih hrest.symm
      cases value' with
      | obj fields =>
          constructor
          · simpa only [List.filterMap_cons, Definition.ofEntry?, List.forall_mem_cons] using
              and_congr_right fun _ => hrest.identifiable
          · intro reference key hmet hkey
            simp only [List.filterMap_cons, Definition.ofEntry?, Definition.scan?_cons,
              hrest.answers reference key hmet hkey]
            rfl
      | _ => exact hrest

/-- A definition does not count that can be entered whenever those before it can, and that answers
nothing which is looked up and not answered before. -/
theorem of_silent {before after : List Definition} {definition : Definition}
    (hidentifiable : (∀ earlier ∈ before, earlier.identifier.key?.isSome) →
      definition.identifier.key?.isSome)
    (hsilent : ∀ reference key, met reference → reference.key? = some key →
      definition.carries key → (Definition.scan? before key).isSome) :
    AnswerAlike met (before ++ after) (before ++ definition :: after) where
  identifiable := by
    rw [List.forall_mem_append, List.forall_mem_append, List.forall_mem_cons]
    constructor
    · exact fun ⟨hbefore, hafter⟩ => ⟨hbefore, hidentifiable hbefore, hafter⟩
    · exact fun ⟨hbefore, _, hafter⟩ => ⟨hbefore, hafter⟩
  answers reference key hmet hkey := by
    rw [Definition.scan?_append, Definition.scan?_append, Definition.scan?_cons]
    cases hcarries : definition.carries key with
    | true =>
        obtain ⟨schema, hschema⟩ :=
          Option.isSome_iff_exists.mp (hsilent reference key hmet hkey hcarries)
        rw [hschema, Option.some_or, Option.some_or]
    | false => simp

end AnswerAlike

theorem Overlooked.answerAlike {met : Json → Prop} {before : Fields} {value : Json}
    (hoverlooked : Overlooked met before value) (name : Str) (after : Fields) :
    AnswerAlike met ((before ++ after).filterMap Definition.ofEntry?)
      ((before ++ (name, value) :: after).filterMap Definition.ofEntry?) := by
  rw [List.filterMap_append, List.filterMap_append, List.filterMap_cons]
  cases hoverlooked with
  | remark hother =>
      cases value with
      | obj fields => exact absurd rfl (hother fields)
      | _ => exact .refl _
  | @repeated earlier fields fields' hmem hsame =>
      have hearlier : (⟨earlier, Definition.identifierOf fields, fields⟩ : Definition) ∈
          before.filterMap Definition.ofEntry? := List.mem_filterMap.mpr ⟨_, hmem, rfl⟩
      apply AnswerAlike.of_silent
      · intro hbefore
        rw [hsame]
        exact hbefore _ hearlier
      · intro reference key _ _ hcarries
        apply Definition.scan?_isSome hearlier
        rw [Definition.carries_eq] at hcarries ⊢
        rwa [hsame] at hcarries
  | anonymous hnull =>
      apply AnswerAlike.of_silent
      · intro _
        rw [hnull]
        rfl
      · intro reference key _ _ hcarries
        simp [Definition.carries, hnull] at hcarries
  | unmet hidentifier hunmet =>
      apply AnswerAlike.of_silent
      · intro _
        rw [hidentifier]
        rfl
      · intro reference key hmet hkey hcarries
        simp only [Definition.carries_eq, hidentifier, Bool.and_eq_true,
          decide_eq_true_eq] at hcarries
        exact absurd (hkey.trans hcarries.2.symm) (hunmet reference hmet)

theorem Unnoticed.answerAlike {met : Json → Prop} {entries entries' : Fields}
    (hunnoticed : Unnoticed met entries entries') :
    AnswerAlike met (entries.filterMap Definition.ofEntry?)
      (entries'.filterMap Definition.ofEntry?) := by
  induction hunnoticed with
  | renamed hvalues => exact .of_values hvalues
  | entered hoverlooked => exact hoverlooked.answerAlike _ _
  | trans _ _ hfirst hsecond => exact hfirst.trans hsecond

/-- Roots of which both or neither have a scope, and which answer alike what a run looks up, give
the same outcome. -/
theorem exampleWithin_eq_of_answerAlike {allowance : Nat} {config : Config}
    {schema root root' : Json} {draws : Draws} {position : Nat}
    {definitions definitions' : List Definition}
    (hroot : Definition.ofRoot? root = some definitions)
    (hroot' : Definition.ofRoot? root' = some definitions')
    (hanswers : AnswerAlike (MeetsWithin allowance config schema root draws position) definitions
      definitions') :
    exampleWithin allowance config schema root draws position =
      exampleWithin allowance config schema root' draws position := by
  apply exampleWithin_eq_of_scopes
  · simpa only [Definition.Identifiable, hroot, hroot', Option.some.injEq, forall_eq'] using
      hanswers.identifiable
  · intro scope scope' hscope hscope'
    apply exampleAt_eq_of_meets
    intro reference hmeets
    rw [Scope.resolve_ofRoot hscope, Scope.resolve_ofRoot hscope', hroot, hroot']
    cases hkey : reference.asKey with
    | error cause => rfl
    | ok key =>
        dsimp only
        rw [hanswers.answers reference key ⟨scope, hscope, hmeets⟩ (asKey_eq_ok.mp hkey)]

/-- A root takes part in a run only through what it resolves references to. Changes of its
definitions that what the run looks up does not notice, and any change outside its definitions,
leave the outcome and the draws as they are. -/
theorem run_of_same_answers (allowance : Nat) (config : Config) (schema : Json) :
    (∀ root root' scope scope', Scope.ofRoot root = .ok scope → Scope.ofRoot root' = .ok scope' →
      (∀ reference, scope.resolve reference = scope'.resolve reference) →
        exampleWithin allowance config schema root = exampleWithin allowance config schema root') ∧
    ∀ (fields fields' entries entries' : Fields) (draws : Draws) (position : Nat),
      fields.get "definitions" = .obj entries → fields'.get "definitions" = .obj entries' →
      Unnoticed (MeetsWithin allowance config schema (.obj fields) draws position) entries
          entries' →
        exampleWithin allowance config schema (.obj fields) draws position =
          exampleWithin allowance config schema (.obj fields') draws position := by
  constructor
  · intro root root' scope scope' hscope hscope' hresolve
    funext draws position
    rw [exampleWithin_of_scope hscope, exampleWithin_of_scope hscope']
    exact exampleAt_eq_of_meets fun reference _ => hresolve reference
  · intro fields fields' entries entries' draws position hentries hentries' hunnoticed
    exact exampleWithin_eq_of_answerAlike (Definition.ofRoot?_obj hentries)
      (Definition.ofRoot?_obj hentries') hunnoticed.answerAlike

namespace Sample

/-- A lone definition. -/
def lone : Fields := [("a", .obj [("$id", .str "flag"), ("type", .str "boolean")])]

/-- The same definition under another name, before it one that nobody asks for and after it a remark
and one that comes too late. -/
def crowded : Fields :=
  [("other", .obj [("$id", .str "other"), ("type", .str "string")]),
    ("b", .obj [("$id", .str "flag"), ("type", .str "boolean")]),
    ("remark", .str "flags"),
    ("c", .obj [("id", .str "flag"), ("type", .str "integer")])]

def loneRoot : Fields := [("definitions", .obj lone)]

def crowdedRoot : Fields := [("title", .str "crowded"), ("definitions", .obj crowded)]

/-- A reference to the definition. -/
def toFlag : Json := .obj [("$ref", .str "flag")]

theorem eq_flag_of_meets {draws : Draws} {position : Nat} {reference : Json}
    (hmeets : MeetsWithin 1 .standard toFlag (.obj loneRoot) draws position reference) :
    reference = .str "flag" := by
  obtain ⟨scope, -, hmeets⟩ := hmeets
  cases hmeets with
  | here _ hreference => exact (Option.some.inj hreference).symm
  | inside _ _ _ hinner => cases hinner

theorem lone_unnoticed {met : Json → Prop}
    (hmet : ∀ reference, met reference → reference = .str "flag") :
    Unnoticed met lone crowded := by
  have hrenamed : Unnoticed met lone
      [("b", .obj [("$id", .str "flag"), ("type", .str "boolean")])] := .renamed rfl
  have hother : Overlooked met [] (.obj [("$id", .str "other"), ("type", .str "string")]) := by
    refine .unmet rfl fun reference hreference => ?_
    rw [hmet reference hreference]
    decide
  have hremark : Overlooked met (crowded.take 2) (.str "flags") := .remark (by simp)
  have hlate : Overlooked met (crowded.take 3)
      (.obj [("id", .str "flag"), ("type", .str "integer")]) :=
    .repeated (List.mem_cons_of_mem _ List.mem_cons_self) rfl
  have hcomplete : Unnoticed met (crowded.take 2 ++ []) (crowded.take 3 ++ _ :: []) :=
    .trans (.entered hremark) (@Unnoticed.entered met (crowded.take 3) [] "c" _ hlate)
  exact .trans hrenamed (.trans (.entered hother) hcomplete)

/-- Definitions with different identifiers in either order. -/
theorem resolve_swapped {first second : Json.Key × Fields} (hne : first.1 ≠ second.1)
    (reference : Json) :
    (Scope.table [first, second]).resolve reference =
      (Scope.table [second, first]).resolve reference := by
  rw [Scope.resolve, Scope.resolve]
  cases reference.asKey with
  | error cause => rfl
  | ok key =>
      by_cases hfirst : first.1 = key
      · have hsecond : second.1 ≠ key := fun hsecond => hne (hfirst.trans hsecond.symm)
        simp [Scope.find?, hfirst, hsecond]
      · by_cases hsecond : second.1 = key <;> simp [Scope.find?, hfirst, hsecond]

/-- The definitions that were asked for and not asked for, the other way round. -/
def swappedRoot : Fields := [("definitions", .obj (crowded.take 2).reverse)]

end Sample

theorem same_answers_sample :
    Unnoticed (MeetsWithin 1 .standard Sample.toFlag (.obj Sample.loneRoot) (.constant .half) 0)
      Sample.lone Sample.crowded ∧
    exampleWithin 1 .standard Sample.toFlag (.obj Sample.crowdedRoot) (.constant .half) 0 =
      .value (.bool false) 1 ∧
    exampleWithin 1 .standard Sample.toFlag (.obj Sample.swappedRoot) (.constant .half) 0 =
      .value (.bool false) 1 := by
  have hunnoticed := @Sample.lone_unnoticed
    (MeetsWithin 1 .standard Sample.toFlag (.obj Sample.loneRoot) (.constant .half) 0)
    fun _ hmeets => Sample.eq_flag_of_meets hmeets
  have hsame := run_of_same_answers 1 .standard Sample.toFlag
  refine ⟨hunnoticed, ?_, ?_⟩
  · rw [← hsame.2 Sample.loneRoot Sample.crowdedRoot Sample.lone Sample.crowded (.constant .half) 0
      rfl rfl hunnoticed]
    decide +kernel
  · rw [hsame.1 (.obj Sample.swappedRoot) (.obj Sample.crowdedRoot) _ _ rfl rfl
      (Sample.resolve_swapped (by decide))]
    decide +kernel

end Exemplar
