import Exemplar.Proofs.Generation.Allowance
import Exemplar.Proofs.Generation.Sketch

/-!
# The limit on nesting

A limit on nesting only ever cuts a run short. Under an integer limit every run
ends, also where references lead round in a circle; a run that the limit does
not cut ends in the same way under every looser limit, and one that it does cut
has taken no more draws than any of them.
-/

namespace Exemplar

open Run

/-- The configuration with another limit on nesting. -/
def Config.limited (config : Config) (limit : Json) : Config := { config with maxDepth := limit }

/-- A limit that allows whatever an integer limit allows. -/
inductive Loosens (limit : Int) : Json → Prop
  | unlimited : Loosens limit .null
  | larger {limit' : Int} (hle : limit ≤ limit') : Loosens limit (.int limit')

theorem checkDepth_int (limit : Int) (depth : Nat) :
    checkDepth (.int limit) depth =
      if limit < depth then fail (.tooDeep (.int limit)) else pure () := by
  have hlt : (Number.int limit).lt (.int depth) = decide (limit < depth) := by
    simp only [Number.lt, Number.extent, Extent.lt, decide_eq_decide]
    exact mul_lt_mul_iff_left₀ (by exact_mod_cast Double.unitsPerOne_pos)
  have hcheck : checkDepth (.int limit) depth =
      if (Number.int limit).lt (.int depth) then fail (.tooDeep (.int limit)) else pure () := rfl
  rw [hcheck, hlt]
  simp only [decide_eq_true_eq]

/-- What the looser limit lets pass includes all that the integer limit does. -/
theorem Loosens.checkDepth {limit : Int} {looser : Json} (hloosens : Loosens limit looser)
    {depth : Nat} (hle : depth ≤ limit) : checkDepth looser depth = pure () := by
  cases hloosens with
  | unlimited => rfl
  | larger hlarger => rw [checkDepth_int, if_neg (by omega)]

/-- Only `exampleAt` itself looks at the limit. -/
theorem expand_limited (config : Config) (limit : Json) (child : Json → Run Json) (shape : Shape) :
    expand (config.limited limit) child shape = expand config child shape := by
  cases shape with
  | object properties required => cases properties <;> rfl
  | array items minItems maxItems => cases items <;> rfl
  | _ => rfl

theorem Scope.resolve_ne_tooDeep (scope : Scope) (reference limit : Json) :
    scope.resolve reference ≠ .error (.tooDeep limit) := by
  unfold Scope.resolve
  cases scope with
  | absent => simp
  | table entries =>
      cases reference.asKey with
      | error cause => simp
      | ok key =>
          dsimp only
          cases find? entries key <;> simp

/-- The limit is not looked at where a shape is found. -/
theorem shapeIn_ne_tooDeep (scope : Scope) (schema limit : Json) :
    shapeIn scope schema ≠ .error (.tooDeep limit) := by
  have hmapped : ∀ result : Except Fault Shape,
      result.mapError Failure.fault ≠ .error (.tooDeep limit) := by
    intro result heq
    cases result <;> cases heq
  rw [shapeIn_eq]
  cases Node.reference? schema with
  | none => exact hmapped _
  | some target =>
      dsimp only
      cases hresolve : scope.resolve target with
      | ok definition => exact hmapped _
      | error cause =>
          rintro ⟨rfl⟩
          exact scope.resolve_ne_tooDeep target limit hresolve

/-! ## Runs under an integer limit end -/

/-- A run has an outcome wherever it starts. -/
def Run.Finishes {α : Type} (run : Run α) : Prop :=
  ∀ draws position, run draws position ≠ .unfinished

theorem finishes_bind {α β : Type} {first : Run α} {next : α → Run β} (hfirst : first.Finishes)
    (hnext : ∀ result, (next result).Finishes) : (first >>= next).Finishes := by
  intro draws position
  rw [bind_apply]
  have hfirst := hfirst draws position
  cases hcase : first draws position with
  | value result middle => exact hnext result draws middle
  | failure cause middle => simp
  | unfinished => exact absurd hcase hfirst

theorem finishes_congruence : Congruence fun run _ => run.Finishes where
  pure _ := fun _ _ => by simp
  draw := fun _ _ => by simp [draw]
  fault _ := fun _ _ => by simp [fail]
  bind := finishes_bind

/-- Each nesting takes one off the allowance and adds one to the depth, so that the limit is met
before the allowance is used up. -/
theorem exampleAt_finishes (config : Config) (scope : Scope) {limit : Int} {allowance depth : Nat}
    (hpositive : 0 < allowance) (hallowance : limit + 2 ≤ allowance + depth) (schema : Json) :
    (exampleAt (config.limited (.int limit)) scope allowance depth schema).Finishes := by
  induction allowance generalizing depth schema with
  | zero => exact absurd hpositive (Nat.lt_irrefl 0)
  | succ allowance ih =>
      -- a depth below the limit leaves an allowance for the depth after it
      intro draws position
      rw [exampleAt]
      change (checkDepth (.int limit) depth >>= _) draws position ≠ _
      rw [checkDepth_int]
      split
      next hdeep => simp [bind_apply, fail]
      next hdeep =>
        have hchild : ∀ schema : Json,
            (exampleAt (config.limited (.int limit)) scope allowance (depth + 1) schema).Finishes :=
          ih (by omega) (by push_cast at hallowance ⊢; omega)
        rw [pure_bind, bind_apply]
        cases shapeIn scope schema with
        | ok shape => exact finishes_congruence.expand_self _ hchild shape draws position
        | error cause => simp [attempt, fail]

/-! ## A limit cuts runs short -/

/-- An outcome lies at a position or after it. -/
def Outcome.From {α : Type} (start : Nat) : Outcome α → Prop
  | .value _ position => start ≤ position
  | .failure _ position => start ≤ position
  | .unfinished => True

/-- A run puts no draw back. -/
def Run.Forward {α : Type} (run : Run α) : Prop :=
  ∀ draws position, (run draws position).From position

theorem Outcome.From.trans {α : Type} {start middle : Nat} {outcome : Outcome α}
    (hfrom : outcome.From middle) (hle : start ≤ middle) : outcome.From start := by
  cases outcome with
  | unfinished => trivial
  | _ => exact le_trans hle hfrom

theorem forward_bind {α β : Type} {first : Run α} {next : α → Run β} (hfirst : first.Forward)
    (hnext : ∀ result, (next result).Forward) : (first >>= next).Forward := by
  intro draws position
  rw [bind_apply]
  have hfirst := hfirst draws position
  cases hcase : first draws position with
  | value result middle =>
      rw [hcase] at hfirst
      exact (hnext result draws middle).trans hfirst
  | failure cause middle =>
      rw [hcase] at hfirst
      exact hfirst
  | unfinished => trivial

theorem forward_congruence : Congruence fun run _ => run.Forward where
  pure _ := fun _ position => Nat.le_refl position
  draw := fun _ position => Nat.le_succ position
  fault _ := fun _ position => Nat.le_refl position
  bind := forward_bind

theorem forward_fail {α : Type} (cause : Failure) : (fail cause : Run α).Forward :=
  fun _ position => Nat.le_refl position

theorem exampleAt_forward (config : Config) (scope : Scope) (allowance depth : Nat)
    (schema : Json) : (exampleAt config scope allowance depth schema).Forward :=
  forward_congruence.exampleAt forward_fail (fun _ _ => trivial) config scope allowance depth schema

/-- An outcome under a limit beside the outcome under a looser one: either the limit did not show,
or it ended the run no later. -/
inductive Outcome.Truncates {α : Type} (limit : Json) : Outcome α → Outcome α → Prop
  | same {outcome : Outcome α}
      (huncut : ∀ cut position, outcome ≠ .failure (.tooDeep cut) position) :
      Truncates limit outcome outcome
  | cut {position : Nat} {long : Outcome α} (hlong : long.From position) :
      Truncates limit (.failure (.tooDeep limit) position) long

/-- A run is another one, cut short by a limit if at all. -/
def Run.Truncates {α : Type} (limit : Json) (short long : Run α) : Prop :=
  long.Forward ∧ ∀ draws position,
    Outcome.Truncates limit (short draws position) (long draws position)

theorem truncates_congruence (limit : Json) : Congruence (Truncates limit) where
  pure result := ⟨forward_congruence.pure result, fun _ _ => .same (by simp)⟩
  draw := ⟨forward_congruence.draw, fun _ _ => .same (by simp [draw])⟩
  fault cause := ⟨forward_congruence.fault cause, fun _ _ => .same (by simp [fail])⟩
  bind := by
    intro α β first first' next next' hfirst hnext
    refine ⟨forward_bind hfirst.1 fun result => (hnext result).1, ?_⟩
    intro draws position
    rw [bind_apply, bind_apply]
    have htruncates := hfirst.2 draws position
    generalize first draws position = short at htruncates
    generalize hlong : first' draws position = long at htruncates
    cases htruncates with
    | same huncut =>
        cases short with
        | value result middle => exact (hnext result).2 draws middle
        | failure cause middle => exact .same (by simpa using huncut)
        | unfinished => exact .same (by simp)
    | @cut middle _ hfrom =>
        -- the longer run has not come back behind the cut, whatever it did after it
        refine .cut ?_
        cases long with
        | value result later => exact ((hnext result).1 draws later).trans hfrom
        | failure cause later => exact hfrom
        | unfinished => trivial

theorem truncates_attempt_shapeIn (limit : Json) (scope : Scope) (schema : Json) :
    Truncates limit (attempt (shapeIn scope schema)) (attempt (shapeIn scope schema)) := by
  cases hshape : shapeIn scope schema with
  | ok shape => exact (truncates_congruence limit).pure shape
  | error cause =>
      refine ⟨fun _ position => Nat.le_refl position, fun _ _ => .same ?_⟩
      intro cut position heq
      cases heq
      exact shapeIn_ne_tooDeep scope schema cut hshape

/-- A run under an integer limit is the run under any looser limit, cut short if at all. -/
theorem exampleAt_truncates (config : Config) (scope : Scope) {limit : Int} {looser : Json}
    (hloosens : Loosens limit looser) (allowance depth : Nat) (schema : Json) :
    Truncates (.int limit) (exampleAt (config.limited (.int limit)) scope allowance depth schema)
      (exampleAt (config.limited looser) scope allowance depth schema) := by
  have hcongruence := truncates_congruence (.int limit)
  induction allowance generalizing depth schema with
  | zero => exact ⟨fun _ _ => trivial, fun _ _ => .same (by simp [exampleAt, unfinished])⟩
  | succ allowance ih =>
      have hrest : Truncates (.int limit)
          (attempt (shapeIn scope schema) >>= expand (config.limited (.int limit))
            (exampleAt (config.limited (.int limit)) scope allowance (depth + 1)))
          (attempt (shapeIn scope schema) >>= expand (config.limited looser)
            (exampleAt (config.limited looser) scope allowance (depth + 1))) := by
        apply hcongruence.bind (truncates_attempt_shapeIn _ scope schema)
        intro shape
        rw [expand_limited, expand_limited]
        exact hcongruence.expand config (ih (depth + 1)) shape
      have hlong := exampleAt_forward (config.limited looser) scope (allowance + 1) depth schema
      rw [exampleAt] at hlong ⊢
      rw [exampleAt]
      change Truncates _ (checkDepth (.int limit) depth >>= fun _ => _)
        (checkDepth looser depth >>= fun _ => _)
      -- up to the limit neither check shows, and the runs go on side by side
      by_cases hdeep : limit < depth
      · rw [checkDepth_int, if_pos hdeep]
        exact ⟨hlong, fun draws position => .cut (hlong draws position)⟩
      · rw [checkDepth_int, if_neg hdeep, hloosens.checkDepth (by omega), pure_bind, pure_bind]
        exact hrest

/-! ## Levels under a limit -/

/-- The nesting that is left at a depth bounds the levels of what is made there. -/
theorem sketchAt_nests (config : Config) (scope : Scope) (limit : Int) (allowance depth : Nat)
    (schema : Json) :
    (sketchAt (config.limited (.int limit)) scope allowance depth schema).Ensures
      (Sketch.NestsWithin (limit + 1 - depth).toNat) (fun _ => True) (fun _ => True) := by
  induction allowance generalizing depth schema with
  | zero => exact ensures_unfinished
  | succ allowance ih =>
      rw [sketchAt]
      change Ensures (checkDepth (.int limit) depth >>= fun _ => _) _ _ _
      rw [checkDepth_int]
      split
      · exact ensures_fail trivial
      next hdeep =>
        have hlevels : (limit + 1 - depth).toNat = (limit + 1 - (depth + 1 : Nat)).toNat + 1 := by
          omega
        rw [pure_bind, hlevels]
        apply (ensures_true (attempt (shapeIn scope schema))).bind
        intro shape _
        exact sketchShape_nests (ih (depth + 1)) shape

theorem sketchWithin_nests (allowance : Nat) (config : Config) (limit : Int)
    (schema root : Json) :
    (sketchWithin allowance (config.limited (.int limit)) schema root).Ensures
      (Sketch.NestsWithin (limit + 1).toNat) (fun _ => True) (fun _ => True) := by
  apply (ensures_true (evaluate (Scope.ofRoot root))).bind
  intro scope _
  have hnests := sketchAt_nests config scope limit allowance 0 schema
  rwa [Nat.cast_zero, Int.sub_zero] at hnests

/-! ## The guarantee -/

theorem exampleWithin_finishes (config : Config) {limit : Int} {allowance : Nat}
    (hpositive : 0 < allowance) (hallowance : limit + 2 ≤ allowance) (schema root : Json) :
    (exampleWithin allowance (config.limited (.int limit)) schema root).Finishes := by
  apply finishes_bind (finishes_congruence.evaluate _)
  intro scope
  exact exampleAt_finishes config scope hpositive (by simpa using hallowance) schema

theorem exampleWithin_truncates (config : Config) {limit : Int} {looser : Json}
    (hloosens : Loosens limit looser) (allowance : Nat) (schema root : Json) :
    Truncates (.int limit) (exampleWithin allowance (config.limited (.int limit)) schema root)
      (exampleWithin allowance (config.limited looser) schema root) := by
  have hcongruence := truncates_congruence (.int limit)
  apply hcongruence.bind (hcongruence.evaluate _)
  intro scope
  exact exampleAt_truncates config scope hloosens allowance 0 schema

section Guarantee

variable {config : Config} {schema root : Json} {draws : Draws} {position final : Nat} {limit : Int}
  {looser : Json} {outcome : Outcome Json}

theorem Ends.truncates
    (hends : Ends (config.limited (.int limit)) schema root draws position outcome)
    (hloosens : Loosens limit looser) : ∃ enough, ∀ allowance ≥ enough,
      Outcome.Truncates (.int limit) outcome
        (exampleWithin allowance (config.limited looser) schema root draws position) := by
  obtain ⟨-, enough, hrun⟩ := hends
  refine ⟨enough, ?_⟩
  intro allowance hallowance
  rw [← hrun allowance hallowance]
  exact (exampleWithin_truncates config hloosens allowance schema root).2 draws position

theorem Ends.loosen (hends : Ends (config.limited (.int limit)) schema root draws position outcome)
    (huncut : ∀ cut final, outcome ≠ .failure (.tooDeep cut) final)
    (hloosens : Loosens limit looser) :
    Ends (config.limited looser) schema root draws position outcome := by
  obtain ⟨enough, htruncates⟩ := hends.truncates hloosens
  refine ⟨hends.1, enough, ?_⟩
  intro allowance hallowance
  have houtcome := htruncates allowance hallowance
  generalize exampleWithin allowance (config.limited looser) schema root draws position = long
    at houtcome
  cases houtcome with
  | same _ => rfl
  | cut _ => exact absurd rfl (huncut _ _)

theorem Ends.of_cut {cut : Json}
    (hends : Ends (config.limited (.int limit)) schema root draws position
      (.failure (.tooDeep cut) final))
    (hloosens : Loosens limit looser) : cut = .int limit ∧ ∀ outcome,
      Ends (config.limited looser) schema root draws position outcome → outcome.From final := by
  obtain ⟨enough, htruncates⟩ := hends.truncates hloosens
  refine ⟨?_, ?_⟩
  · have houtcome := htruncates enough (Nat.le_refl enough)
    generalize exampleWithin enough (config.limited looser) schema root draws position = long
      at houtcome
    cases houtcome with
    | same huncut => exact absurd rfl (huncut cut final)
    | cut _ => rfl
  · rintro outcome ⟨-, enough', hrun⟩
    have houtcome := htruncates _ (Nat.le_max_left enough enough')
    rw [hrun _ (Nat.le_max_right enough enough')] at houtcome
    cases houtcome with
    | same huncut => exact absurd rfl (huncut cut final)
    | cut hfrom => exact hfrom

/-- A value has a sketch, which is made by the same choices. -/
theorem Ends.exists_sketch {value : Json}
    (hends : Ends config schema root draws position (.value value final)) :
    ∃ allowance sketch, sketchWithin allowance config schema root draws position =
      .value sketch final ∧ sketch.value = value := by
  obtain ⟨-, enough, hrun⟩ := hends
  have hvalue := hrun enough (Nat.le_refl enough)
  rw [← value_sketchWithin, map_apply] at hvalue
  cases hsketch : sketchWithin enough config schema root draws position with
  | value sketch last =>
      rw [hsketch] at hvalue
      cases hvalue
      exact ⟨enough, sketch, hsketch, rfl⟩
  | failure cause last => simp [hsketch] at hvalue
  | unfinished => simp [hsketch] at hvalue

theorem Ends.nests {value : Json}
    (hends : Ends (config.limited (.int limit)) schema root draws position (.value value final)) :
    ∃ allowance sketch,
      sketchWithin allowance (config.limited (.int limit)) schema root draws position =
          .value sketch final ∧
        sketch.value = value ∧ sketch.NestsWithin (limit + 1).toNat := by
  obtain ⟨allowance, sketch, hsketch, hvalue⟩ := hends.exists_sketch
  have hnests :=
    sketchWithin_nests allowance config limit schema root draws position fun _ => trivial
  rw [hsketch] at hnests
  exact ⟨allowance, sketch, hsketch, hvalue, hnests⟩

end Guarantee

/-- Under an integer limit every run ends. If it is not cut, every looser limit gives the same
outcome after the same draws; if it is, the failure tells the limit, and no run under a looser limit
takes fewer draws. A value has at most one level of made objects and arrays more than the limit. -/
theorem depth_limit_only_truncates (config : Config) (schema root : Json) (draws : Draws)
    (position : Nat) (limit : Int) :
    ∃ outcome, Ends (config.limited (.int limit)) schema root draws position outcome ∧
      ((∀ cut final, outcome ≠ .failure (.tooDeep cut) final) → ∀ looser, Loosens limit looser →
        Ends (config.limited looser) schema root draws position outcome) ∧
      (∀ cut final, outcome = .failure (.tooDeep cut) final →
        cut = .int limit ∧ ∀ looser, Loosens limit looser → ∀ outcome',
          Ends (config.limited looser) schema root draws position outcome' →
            outcome'.From final) ∧
      (∀ value final, outcome = .value value final → ∃ allowance sketch,
        sketchWithin allowance (config.limited (.int limit)) schema root draws position =
            .value sketch final ∧
          sketch.value = value ∧ sketch.NestsWithin (limit + 1).toNat) := by
  have hfinishes := exampleWithin_finishes config (Nat.succ_pos (limit + 2).toNat)
    (show limit + 2 ≤ ((limit + 2).toNat + 1 : Nat) by omega) schema root draws position
  have hends := ends_of_exampleWithin hfinishes rfl
  refine ⟨_, hends, fun huncut looser => hends.loosen huncut, fun cut final houtcome => ?_,
    fun value final houtcome => ?_⟩
  · rw [houtcome] at hends
    exact ⟨(hends.of_cut .unlimited).1, fun looser hloosens => (hends.of_cut hloosens).2⟩
  · rw [houtcome] at hends
    exact hends.nests

end Exemplar
