import Exemplar.Proofs.Generation.ConstantDraws
import Exemplar.Proofs.Generation.Bisimulation
import Mathlib.Data.List.ReduceOption

/-!
# Agreement on constant draws

Two runs agree if both end with related values after the same draws, or neither ends with
a value; which failures these are does not count. Sequences of runs agree if their parts
do. Where all draws are the same, what becomes of an item does not hang on the items
before it, so that the order of the items does not count either: all of them succeed in
one order if they do in another one, after as many draws altogether.
-/

namespace Exemplar

open Run

/-! ## Runs that agree -/

/-- Two outcomes are related values at the same place, or neither is a value. -/
inductive Outcome.Agree {α β : Type} (related : α → β → Prop) : Outcome α → Outcome β → Prop
  | value {result : α} {result' : β} {position : Nat} (hrelated : related result result') :
      Outcome.Agree related (.value result position) (.value result' position)
  | neither {outcome : Outcome α} {outcome' : Outcome β}
      (hnone : ∀ result position, outcome ≠ .value result position)
      (hnone' : ∀ result position, outcome' ≠ .value result position) :
      Outcome.Agree related outcome outcome'

/-- On constant draws two runs agree from every place on. -/
def Run.Agree {α β : Type} (drawn : Double) (related : α → β → Prop) (run : Run α) (run' : Run β) :
    Prop :=
  ∀ position, (run (Draws.constant drawn) position).Agree related
    (run' (Draws.constant drawn) position)

namespace Outcome.Agree

variable {α β : Type} {related related' : α → β → Prop} {outcome : Outcome α} {outcome' : Outcome β}
  {position : Nat} (hagree : outcome.Agree related outcome')

include hagree

theorem imp (himp : ∀ result result', related result result' → related' result result') :
    outcome.Agree related' outcome' := by
  cases hagree with
  | value hrelated => exact .value (himp _ _ hrelated)
  | neither hnone hnone' => exact .neither hnone hnone'

theorem forth {result : α} (hvalue : outcome = .value result position) :
    ∃ result', outcome' = .value result' position ∧ related result result' := by
  cases hagree with
  | value hrelated =>
      cases hvalue
      exact ⟨_, rfl, hrelated⟩
  | neither hnone _ => exact absurd hvalue (hnone result position)

theorem back {result' : β} (hvalue : outcome' = .value result' position) :
    ∃ result, outcome = .value result position ∧ related result result' := by
  cases hagree with
  | value hrelated =>
      cases hvalue
      exact ⟨_, rfl, hrelated⟩
  | neither _ hnone' => exact absurd hvalue (hnone' result' position)

end Outcome.Agree

section Agree

variable {α α' β β' : Type} {drawn : Double} {related : α → α' → Prop} {final : β → β' → Prop}

theorem Run.Agree.imp {run : Run α} {run' : Run α'} {related' : α → α' → Prop}
    (hagree : run.Agree drawn related run')
    (himp : ∀ result result', related result result' → related' result result') :
    run.Agree drawn related' run' :=
  fun position => (hagree position).imp himp

theorem agree_pure {result : α} {result' : α'} (hrelated : related result result') :
    (pure result : Run α).Agree drawn related (pure result') :=
  fun _ => .value hrelated

theorem agree_fail (cause cause' : Failure) :
    (fail cause : Run α).Agree drawn related (fail cause') :=
  fun _ => .neither nofun nofun

theorem agree_unfinished : (unfinished : Run α).Agree drawn related unfinished :=
  fun _ => .neither nofun nofun

theorem Run.Agree.bind {first : Run α} {first' : Run α'} {next : α → Run β} {next' : α' → Run β'}
    (hfirst : first.Agree drawn related first')
    (hnext : ∀ result result', related result result' →
      (next result).Agree drawn final (next' result')) :
    (first >>= next).Agree drawn final (first' >>= next') := by
  intro position
  have hbegin := hfirst position
  rw [bind_apply, bind_apply]
  generalize first (Draws.constant drawn) position = outcome at hbegin
  generalize first' (Draws.constant drawn) position = outcome' at hbegin
  cases hbegin with
  | value hrelated => exact hnext _ _ hrelated _
  | neither hnone hnone' =>
      refine .neither ?_ ?_
      · cases outcome with
        | value result middle => exact absurd rfl (hnone result middle)
        | _ => exact nofun
      · cases outcome' with
        | value result middle => exact absurd rfl (hnone' result middle)
        | _ => exact nofun

theorem Run.Agree.map {run : Run α} {run' : Run α'} {f : α → β} {f' : α' → β'}
    (hagree : run.Agree drawn (fun result result' => final (f result) (f' result')) run') :
    (f <$> run).Agree drawn final (f' <$> run') := by
  rw [map_eq_pure_bind, map_eq_pure_bind]
  exact hagree.bind fun _ _ hrelated => agree_pure hrelated

/-- A run agrees with itself on what it ensures. -/
theorem agree_of_ensures {run : Run α} {good : α → Prop}
    (hrun : run.Ensures good (fun _ => True) (fun _ => True)) :
    run.Agree drawn (fun result result' => result = result' ∧ good result) run := by
  intro position
  have hend := hrun (Draws.constant drawn) position fun _ => trivial
  generalize run (Draws.constant drawn) position = outcome at hend ⊢
  cases outcome with
  | value result middle => exact .value ⟨rfl, hend⟩
  | _ => exact .neither nofun nofun

theorem agree_refl (run : Run α) : run.Agree drawn (· = ·) run :=
  (agree_of_ensures (ensures_true run)).imp fun _ _ hsame => hsame.1

theorem agree_evaluate {result : Except Fault α} {result' : Except Fault α'}
    (halike : FailAlike related result result') :
    (evaluate result).Agree drawn related (evaluate result') := by
  cases halike with
  | ok hrelated => exact agree_pure hrelated
  | error cause => exact agree_fail (.fault cause) (.fault cause)

theorem agree_repeatOnto {run : Run α} {run' : Run α'} (hagree : run.Agree drawn related run')
    (count : Nat) {made : List α} {made' : List α'} (hmade : List.Forall₂ related made made') :
    (repeatOnto run count made).Agree drawn (List.Forall₂ related)
      (repeatOnto run' count made') := by
  induction count generalizing made made' with
  | zero => exact agree_pure (List.forall₂_reverse_iff.mpr hmade)
  | succ count ih => exact hagree.bind fun _ _ hrelated => ih (.cons hrelated hmade)

theorem Run.Agree.times {run : Run α} {run' : Run α'} (hagree : run.Agree drawn related run')
    (count : Nat) : (run.times count).Agree drawn (List.Forall₂ related) (run'.times count) :=
  agree_repeatOnto hagree count .nil

/-- The same place is picked in two lists of the same length. -/
theorem agree_pick {elements : List α} {elements' : List α'}
    (hlength : elements.length = elements'.length) :
    (pick elements).Agree drawn
      (fun element element' => (element, element') ∈ elements.zip elements')
      (pick elements') := by
  have hfirst : pick elements = Prod.fst <$> pick (elements.zip elements') := by
    rw [map_pick, List.map_fst_zip hlength.le]
  have hsecond : pick elements' = Prod.snd <$> pick (elements.zip elements') := by
    rw [map_pick, List.map_snd_zip hlength.ge]
  rw [hfirst, hsecond]
  refine Run.Agree.map ((agree_of_ensures (ensures_pick _)).imp ?_)
  rintro both _ ⟨rfl, hmem⟩
  exact hmem

end Agree

/-! ## Properties on their own -/

/-- What becomes of a property: its field, if it is made. -/
def visit {α : Type} (threshold : Json) (required : List Json) (child : Json → Run α)
    (property : Str × Json) : Run (Option (Str × α)) := do
  if ← includes threshold required property.1 then
    (fun value => some (property.1, value)) <$> child property.2
  else pure none

/-- The fields of an object are those of the properties that are made, one property after the
other. -/
theorem fieldsOnto_eq_mapM {α : Type} (threshold : Json) (required : List Json)
    (child : Json → Run α) (properties : List (Str × Json)) (made : List (Str × α)) :
    fieldsOnto threshold required child properties made =
      (fun visits => made.reverse ++ visits.reduceOption) <$>
        properties.mapM (visit threshold required child) := by
  induction properties generalizing made with
  | nil => simp [fieldsOnto, List.reduceOption_nil]
  | cons property rest ih =>
      obtain ⟨name, schema⟩ := property
      simp only [fieldsOnto, visit, List.mapM_cons, map_bind, bind_assoc]
      congr 1
      funext kept
      cases kept with
      | false => simp [ih, List.reduceOption_cons_of_none]
      | true => simp [ih, List.reduceOption_cons_of_some]

section Visits

variable {ι β : Type} {drawn : Double} {items : List ι}

section Steady

variable {visit : ι → Run β} (hsteady : ∀ item, (visit item).Follows (visit item))

include hsteady

/-- If every item succeeds on its own, all of them do, after as many draws as they take on their
own. -/
theorem mapM_constant {result : ι → β} {cost : ι → Nat}
    (hvisits : ∀ item ∈ items,
      visit item (Draws.constant drawn) 0 = .value (result item) (cost item)) (position : Nat) :
    items.mapM visit (Draws.constant drawn) position =
      .value (items.map result) (position + (items.map cost).sum) := by
  induction items generalizing position with
  | nil => rfl
  | cons item rest ih =>
      obtain ⟨hitem, hrest⟩ := List.forall_mem_cons.mp hvisits
      have hfirst : visit item (Draws.constant drawn) position =
          .value (result item) (position + cost item) :=
        ((hsteady item).constant_eq_value drawn).mpr ⟨_, hitem, rfl⟩
      rw [List.mapM_cons]
      refine bind_eq_value.mpr ⟨_, _, hfirst, ?_⟩
      refine bind_eq_value.mpr ⟨_, _, ih hrest _, ?_⟩
      rw [List.map_cons, List.map_cons, List.sum_cons, ← Nat.add_assoc]
      rfl

/-- If all items succeed one after the other, each of them does on its own. -/
theorem exists_of_mapM {results : List β} {position final : Nat}
    (hrun : items.mapM visit (Draws.constant drawn) position = .value results final) :
    ∀ item ∈ items, ∃ result cost,
      visit item (Draws.constant drawn) 0 = .value result cost := by
  induction items generalizing position final results with
  | nil => simp
  | cons item rest ih =>
      rw [List.mapM_cons] at hrun
      obtain ⟨result, middle, hitem, hrun⟩ := bind_eq_value.mp hrun
      obtain ⟨later, last, hrest, -⟩ := bind_eq_value.mp hrun
      obtain ⟨cost, hitem, -⟩ := ((hsteady item).constant_eq_value drawn).mp hitem
      exact List.forall_mem_cons.mpr ⟨⟨result, cost, hitem⟩, ih hrest⟩

end Steady

/-- Items that agree on their own agree in any order: a permutation of the items permutes the
results alike. -/
theorem agree_mapM_perm [Inhabited β] {visit visit' : ι → Run β}
    (hsteady : ∀ item, (visit item).Follows (visit item))
    (hsteady' : ∀ item, (visit' item).Follows (visit' item)) {related : ι → β → β → Prop}
    {items' : List ι} (horder : items.Perm items')
    (hagree : ∀ item ∈ items, (visit item).Agree drawn (related item) (visit' item)) :
    (items.mapM visit).Agree drawn
      (fun results results' => ∃ made made' : ι → β, results = items.map made ∧
        results' = items'.map made' ∧ ∀ item ∈ items, related item (made item) (made' item))
      (items'.mapM visit') := by
  intro position
  by_cases hall : ∀ item ∈ items, ∃ result cost,
    visit item (Draws.constant drawn) 0 = .value result cost
  · -- each item on its own gives a value on either side, after the same number of draws
    have hboth : ∀ item ∈ items, ∃ result result' cost,
        visit item (Draws.constant drawn) 0 = .value result cost ∧
          visit' item (Draws.constant drawn) 0 = .value result' cost ∧
          related item result result' := by
      intro item hmem
      obtain ⟨result, cost, hitem⟩ := hall item hmem
      obtain ⟨result', hitem', hrelated⟩ := (hagree item hmem 0).forth hitem
      exact ⟨result, result', cost, hitem, hitem', hrelated⟩
    choose! made made' cost hvisits using hboth
    rw [mapM_constant hsteady fun item hmem => (hvisits item hmem).1,
      mapM_constant hsteady' fun item hmem => (hvisits item (horder.mem_iff.mpr hmem)).2.1,
      (horder.map cost).sum_eq]
    exact .value ⟨made, made', rfl, rfl, fun item hmem => (hvisits item hmem).2.2⟩
  · refine .neither (fun results final hrun => hall (exists_of_mapM hsteady hrun)) ?_
    intro results final hrun
    refine hall fun item hmem => ?_
    obtain ⟨result', cost, hitem'⟩ := exists_of_mapM hsteady' hrun item (horder.mem_iff.mp hmem)
    obtain ⟨result, hitem, -⟩ := (hagree item hmem 0).back hitem'
    exact ⟨result, cost, hitem⟩

end Visits

end Exemplar
