import Exemplar.Proofs.Generation.Conformance
import Exemplar.Proofs.Generation.DepthLimit

/-!
# What an example costs

Every draw serves one choice, and the choices decide what else has to be drawn for. So
the cost of an example is told along with how it is made: by rules on the choices that
were made, each with the stretch of the supply that it was made from. A run takes just
as many draws as its example costs, and it looks at no other draw.
-/

namespace Exemplar

open Run

/-! ## The rules -/

/-- What values are made of: a schema, its shape, the properties of an object or a number of
items. -/
inductive Task where
  | schema (schema : Json)
  | shape (shape : Shape)
  | fields (required : List Json) (properties : List (Str × Json))
  | items (items : Json) (count : Nat)

/-- The number of properties that are not required, each of which takes a draw of its own. -/
def optionalCount (required : List Json) (properties : List (Str × Json)) : Nat :=
  properties.countP fun property => !required.contains (.str property.1)

/-- A value that is made from a start in the supply on, and the number of draws that it costs. The
cost of fields is that of their values alone. -/
inductive Costs (config : Config) (scope : Scope) (draws : Draws) :
    (task : Task) → (start : Nat) → (value : Json) → (cost : Nat) → Prop
  | own {schema value : Json} {shape : Shape} {start cost : Nat}
      (hnone : Node.reference? schema = none) (hshape : Shape.ofSchema schema = .ok shape)
      (hvalue : Costs config scope draws (.shape shape) start value cost) :
      Costs config scope draws (.schema schema) start value cost
  | hop {schema target definition value : Json} {shape : Shape} {start cost : Nat}
      (htarget : Node.reference? schema = some target)
      (hresolve : scope.resolve target = .ok definition)
      (hshape : Shape.ofSchema definition = .ok shape)
      (hvalue : Costs config scope draws (.shape shape) start value cost) :
      Costs config scope draws (.schema schema) start value cost
  | variant {variants : List Json} {variant value : Json} {start cost : Nat}
      (hpick : pick variants draws start = .value variant (start + 1))
      (hvalue : Costs config scope draws (.schema variant) (start + 1) value cost) :
      Costs config scope draws (.shape (.anyOf variants)) start value (1 + cost)
  | listed {values : List Json} {value : Json} {start : Nat}
      (hpick : pick values draws start = .value value (start + 1)) :
      Costs config scope draws (.shape (.enumeration values)) start value 1
  | object {properties : List (Str × Json)} {required : List Json} {value : Json}
      {start cost : Nat}
      (hvalue : Costs config scope draws (.fields required properties) start value cost) :
      Costs config scope draws (.shape (.object (.obj properties) required)) start value
        (optionalCount required properties + cost)
  | emptyArray {minItems maxItems : Json} {start : Nat} :
      Costs config scope draws (.shape (.array .null minItems maxItems)) start (.arr []) 0
  | array {items minItems maxItems value : Json} {length : Int} {start cost : Nat}
      (hitems : items ≠ .null)
      (hlength : spread (minItems.orElse config.defaultMinItems)
        (maxItems.orElse config.defaultMaxItems) draws start = .value (.int length) (start + 1))
      (hvalue : Costs config scope draws (.items items length.toNat) (start + 1) value cost) :
      Costs config scope draws (.shape (.array items minItems maxItems)) start value (1 + cost)
  | boolean {start : Nat} :
      Costs config scope draws (.shape .boolean) start
        (.bool ((draws start).extent.lt Double.half.extent)) 1
  | integer {minimum maximum : Json} {chosen : Number} {start : Nat}
      (hchosen : spread (minimum.orElse config.defaultMinimum)
        (maximum.orElse config.defaultMaximum) draws start = .value chosen (start + 1)) :
      Costs config scope draws (.shape (.integer minimum maximum)) start (.number chosen) 1
  | number {minimum maximum : Json} {chosen : Double} {start : Nat}
      (hchosen : point (minimum.orElse config.defaultMinimum)
        (maximum.orElse config.defaultMaximum) config.numberPrecision draws start =
          .value chosen (start + 1)) :
      Costs config scope draws (.shape (.number minimum maximum)) start (.float chosen) 1
  | placeholder {pattern : Json} {start : Nat} (hpattern : pattern.truthy = true) :
      Costs config scope draws (.shape (.string pattern)) start config.patternPlaceholder 0
  | text {pattern : Json} {length : Int} {letters : List Char} {start : Nat}
      (hpattern : pattern.truthy = false) (hlength : config.stringLength.asInt = .ok length)
      (hcount : letters.length = length.toNat)
      (hletters : ∀ index (hindex : index < letters.length),
        pick alphabet draws (start + index) = .value letters[index] (start + index + 1)) :
      Costs config scope draws (.shape (.string pattern)) start (.str (String.ofList letters))
        length.toNat
  | constant {value : Json} {start : Nat} :
      Costs config scope draws (.shape (.constant value)) start value 0
  | noField {required : List Json} {start : Nat} :
      Costs config scope draws (.fields required []) start (.obj []) 0
  | required {required : List Json} {name : Str} {schema value : Json}
      {properties fields : List (Str × Json)} {start cost restCost : Nat}
      (hrequired : .str name ∈ required)
      (hvalue : Costs config scope draws (.schema schema) start value cost)
      (hrest : Costs config scope draws (.fields required properties) (start + cost) (.obj fields)
        restCost) :
      Costs config scope draws (.fields required ((name, schema) :: properties)) start
        (.obj ((name, value) :: fields)) (cost + restCost)
  | kept {required : List Json} {name : Str} {schema value : Json}
      {properties fields : List (Str × Json)} {threshold : Number} {start cost restCost : Nat}
      (hoptional : .str name ∉ required)
      (hthreshold : config.optionalPropertyProbability.asNumber = .ok threshold)
      (habove : threshold.lt (.float (draws start)) = true)
      (hvalue : Costs config scope draws (.schema schema) (start + 1) value cost)
      (hrest : Costs config scope draws (.fields required properties) (start + 1 + cost)
        (.obj fields) restCost) :
      Costs config scope draws (.fields required ((name, schema) :: properties)) start
        (.obj ((name, value) :: fields)) (cost + restCost)
  | left {required : List Json} {name : Str} {schema value : Json}
      {properties : List (Str × Json)} {threshold : Number} {start restCost : Nat}
      (hoptional : .str name ∉ required)
      (hthreshold : config.optionalPropertyProbability.asNumber = .ok threshold)
      (hbelow : threshold.lt (.float (draws start)) = false)
      (hrest : Costs config scope draws (.fields required properties) (start + 1) value restCost) :
      Costs config scope draws (.fields required ((name, schema) :: properties)) start value
        restCost
  | noItem {items : Json} {start : Nat} :
      Costs config scope draws (.items items 0) start (.arr []) 0
  | item {items value : Json} {values : List Json} {count start cost restCost : Nat}
      (hvalue : Costs config scope draws (.schema items) start value cost)
      (hrest : Costs config scope draws (.items items count) (start + cost) (.arr values)
        restCost) :
      Costs config scope draws (.items items (count + 1)) start (.arr (value :: values))
        (cost + restCost)

section Rules

variable {config : Config} {scope : Scope} {draws : Draws}

/-- The draws leave no choice, neither in what is made nor in what it costs. -/
theorem Costs.unique {task : Task} {value value' : Json} {start cost cost' : Nat}
    (hvalue : Costs config scope draws task start value cost)
    (hvalue' : Costs config scope draws task start value' cost') :
    value' = value ∧ cost' = cost := by
  induction hvalue generalizing value' cost' with
  | own hnone hshape _ ih =>
      cases hvalue' with
      | own hnone' hshape' hvalue' =>
          cases hshape.symm.trans hshape'
          exact ih hvalue'
      | hop htarget' => cases hnone.symm.trans htarget'
  | hop htarget hresolve hshape _ ih =>
      cases hvalue' with
      | own hnone' => cases htarget.symm.trans hnone'
      | hop htarget' hresolve' hshape' hvalue' =>
          cases htarget.symm.trans htarget'
          cases hresolve.symm.trans hresolve'
          cases hshape.symm.trans hshape'
          exact ih hvalue'
  | variant hpick _ ih =>
      cases hvalue' with
      | variant hpick' hvalue' =>
          cases hpick.symm.trans hpick'
          obtain ⟨rfl, rfl⟩ := ih hvalue'
          exact ⟨rfl, rfl⟩
  | listed hpick =>
      cases hvalue' with
      | listed hpick' =>
          cases hpick.symm.trans hpick'
          exact ⟨rfl, rfl⟩
  | object _ ih =>
      cases hvalue' with
      | object hvalue' =>
          obtain ⟨rfl, rfl⟩ := ih hvalue'
          exact ⟨rfl, rfl⟩
  | emptyArray =>
      cases hvalue' with
      | emptyArray => exact ⟨rfl, rfl⟩
      | array hitems' => exact absurd rfl hitems'
  | array hitems hlength _ ih =>
      cases hvalue' with
      | emptyArray => exact absurd rfl hitems
      | array hitems' hlength' hvalue' =>
          cases hlength.symm.trans hlength'
          obtain ⟨rfl, rfl⟩ := ih hvalue'
          exact ⟨rfl, rfl⟩
  | boolean =>
      cases hvalue'
      exact ⟨rfl, rfl⟩
  | integer hchosen =>
      cases hvalue' with
      | integer hchosen' =>
          cases hchosen.symm.trans hchosen'
          exact ⟨rfl, rfl⟩
  | number hchosen =>
      cases hvalue' with
      | number hchosen' =>
          cases hchosen.symm.trans hchosen'
          exact ⟨rfl, rfl⟩
  | placeholder hpattern =>
      cases hvalue' with
      | placeholder => exact ⟨rfl, rfl⟩
      | text hpattern' => cases hpattern.symm.trans hpattern'
  | text hpattern hlength hcount hletters =>
      cases hvalue' with
      | placeholder hpattern' => cases hpattern.symm.trans hpattern'
      | text hpattern' hlength' hcount' hletters' =>
          cases hlength.symm.trans hlength'
          refine ⟨?_, rfl⟩
          congr 3
          apply List.ext_getElem (hcount'.trans hcount.symm)
          intro index hindex' hindex
          exact (Outcome.value.inj ((hletters' index hindex').symm.trans (hletters index hindex))).1
  | constant =>
      cases hvalue'
      exact ⟨rfl, rfl⟩
  | noField =>
      cases hvalue'
      exact ⟨rfl, rfl⟩
  | required hrequired _ _ ih ihRest =>
      cases hvalue' with
      | required hrequired' hvalue' hrest' =>
          obtain ⟨rfl, rfl⟩ := ih hvalue'
          obtain ⟨hfields, rfl⟩ := ihRest hrest'
          cases hfields
          exact ⟨rfl, rfl⟩
      | kept hoptional' => exact absurd hrequired hoptional'
      | left hoptional' => exact absurd hrequired hoptional'
  | kept hoptional hthreshold habove _ _ ih ihRest =>
      cases hvalue' with
      | required hrequired' => exact absurd hrequired' hoptional
      | kept hoptional' hthreshold' habove' hvalue' hrest' =>
          obtain ⟨rfl, rfl⟩ := ih hvalue'
          obtain ⟨hfields, rfl⟩ := ihRest hrest'
          cases hfields
          exact ⟨rfl, rfl⟩
      | left hoptional' hthreshold' hbelow' =>
          cases hthreshold.symm.trans hthreshold'
          cases habove.symm.trans hbelow'
  | left hoptional hthreshold hbelow _ ih =>
      cases hvalue' with
      | required hrequired' => exact absurd hrequired' hoptional
      | kept hoptional' hthreshold' habove' =>
          cases hthreshold.symm.trans hthreshold'
          cases hbelow.symm.trans habove'
      | left hoptional' hthreshold' hbelow' hrest' => exact ih hrest'
  | noItem =>
      cases hvalue'
      exact ⟨rfl, rfl⟩
  | item _ _ ih ihRest =>
      cases hvalue' with
      | item hvalue' hrest' =>
          obtain ⟨rfl, rfl⟩ := ih hvalue'
          obtain ⟨hvalues, rfl⟩ := ihRest hrest'
          cases hvalues
          exact ⟨rfl, rfl⟩

end Rules

/-! ## Runs that end with a value -/

namespace Run

variable {α β : Type} {draws : Draws} {position final : Nat}

theorem bind_eq_value {first : Run α} {next : α → Run β} {result : β} :
    (first >>= next) draws position = .value result final ↔
      ∃ middle place, first draws position = .value middle place ∧
        next middle draws place = .value result final := by
  rw [bind_apply]
  cases first draws position <;> simp

theorem map_eq_value {run : Run α} {f : α → β} {result : β} :
    (f <$> run) draws position = .value result final ↔
      ∃ made, run draws position = .value made final ∧ f made = result := by
  rw [map_apply]
  cases run draws position <;> simp [and_comm]

theorem evaluate_eq_value {computed : Except Fault α} {result : α} :
    evaluate computed draws position = .value result final ↔
      computed = .ok result ∧ position = final := by
  cases computed <;> simp [evaluate, done, fail]

theorem attempt_eq_value {computed : Except Failure α} {result : α} :
    attempt computed draws position = .value result final ↔
      computed = .ok result ∧ position = final := by
  cases computed <;> simp [attempt, done, fail]

/-- A choice by one draw takes that draw. -/
theorem final_of_drawn {choice : Double → Except Fault α} {result : α}
    (hrun : (draw >>= fun drawn => evaluate (choice drawn)) draws position = .value result final) :
    final = position + 1 := by
  obtain ⟨drawn, place, hdraw, hchoice⟩ := bind_eq_value.mp hrun
  cases hdraw
  exact (evaluate_eq_value.mp hchoice).2.symm

/-- Where each result takes one draw, they take the draws in order. -/
theorem repeatOnto_eq_value {run : Run α}
    (hone : ∀ start result next, run draws start = .value result next → next = start + 1)
    {count : Nat} {made results : List α}
    (hrun : repeatOnto run count made draws position = .value results final) :
    ∃ later : List α, results = made.reverse ++ later ∧ later.length = count ∧
      final = position + count ∧ ∀ index (hindex : index < later.length),
        run draws (position + index) = .value later[index] (position + index + 1) := by
  induction count generalizing made position with
  | zero =>
      cases hrun
      exact ⟨[], by simp⟩
  | succ count ih =>
      obtain ⟨result, next, hresult, hrest⟩ := bind_eq_value.mp hrun
      obtain rfl := hone _ _ _ hresult
      obtain ⟨later, rfl, rfl, rfl, hlater⟩ := ih hrest
      refine ⟨result :: later, by simp, rfl, by omega, ?_⟩
      intro index hindex
      cases index with
      | zero => exact hresult
      | succ index =>
          have hnext := hlater index (Nat.lt_of_succ_lt_succ hindex)
          rwa [Nat.add_right_comm] at hnext

end Run

/-- A property is made if it is required, and otherwise if its draw lies above the threshold. -/
theorem includes_eq_value {threshold : Json} {required : List Json} {name : Str} {kept : Bool}
    {draws : Draws} {start next : Nat}
    (hrun : includes threshold required name draws start = .value kept next) :
    (.str name ∈ required ∧ kept = true ∧ next = start) ∨
      (.str name ∉ required ∧ next = start + 1 ∧ ∃ bound, threshold.asNumber = .ok bound ∧
        bound.lt (.float (draws start)) = kept) := by
  unfold includes at hrun
  split at hrun
  next hrequired =>
    cases hrun
    exact .inl ⟨List.contains_iff_mem.mp hrequired, rfl, rfl⟩
  next hoptional =>
    obtain ⟨drawn, place, hdraw, hrest⟩ := bind_eq_value.mp hrun
    cases hdraw
    obtain ⟨bound, place, hbound, hkept⟩ := bind_eq_value.mp hrest
    obtain ⟨hthreshold, rfl⟩ := evaluate_eq_value.mp hbound
    cases hkept
    exact .inr ⟨fun hmem => hoptional (List.contains_iff_mem.mpr hmem), rfl, bound, hthreshold, rfl⟩

theorem optionalCount_cons {required : List Json} {name : Str} {schema : Json}
    {properties : List (Str × Json)} :
    optionalCount required ((name, schema) :: properties) =
      optionalCount required properties + if .str name ∈ required then 0 else 1 := by
  unfold optionalCount
  rw [List.countP_cons]
  congr 1
  simp

section Runs

variable {config : Config} {scope : Scope} {draws : Draws} {child : Json → Run Json}
  (hchild : ∀ {schema : Json} {start : Nat} {value : Json} {final : Nat},
    child schema draws start = .value value final →
      ∃ cost, Costs config scope draws (.schema schema) start value cost ∧ final = start + cost)

include hchild

/-- Fields take a draw for each optional property and those of their values. -/
theorem costs_of_fieldsOnto {required : List Json} {properties made results : List (Str × Json)}
    {start final : Nat}
    (hrun : fieldsOnto config.optionalPropertyProbability required child properties made draws
      start = .value results final) :
    ∃ fields cost, results = made.reverse ++ fields ∧
      Costs config scope draws (.fields required properties) start (.obj fields) cost ∧
      final = start + (optionalCount required properties + cost) := by
  induction properties generalizing made start with
  | nil =>
      cases hrun
      exact ⟨[], 0, by simp, .noField, rfl⟩
  | cons property rest ih =>
      obtain ⟨name, schema⟩ := property
      obtain ⟨kept, place, hincludes, hrun⟩ := bind_eq_value.mp hrun
      rw [optionalCount_cons]
      cases kept with
      | false =>
          obtain ⟨-, hkept, -⟩ | ⟨hoptional, rfl, bound, hthreshold, hbelow⟩ :=
            includes_eq_value hincludes
          · cases hkept
          · obtain ⟨fields, cost, rfl, hfields, rfl⟩ := ih hrun
            refine ⟨fields, cost, rfl, .left hoptional hthreshold hbelow hfields, ?_⟩
            rw [if_neg hoptional]
            omega
      | true =>
          obtain ⟨value, next, hmade, hrest⟩ := bind_eq_value.mp hrun
          obtain ⟨cost, hvalue, rfl⟩ := hchild hmade
          obtain ⟨fields, restCost, rfl, hfields, rfl⟩ := ih hrest
          refine ⟨(name, value) :: fields, cost + restCost, by simp, ?_⟩
          obtain ⟨hrequired, -, rfl⟩ | ⟨hoptional, rfl, bound, hthreshold, habove⟩ :=
            includes_eq_value hincludes
          · refine ⟨.required hrequired hvalue hfields, ?_⟩
            rw [if_pos hrequired]
            omega
          · refine ⟨.kept hoptional hthreshold habove hvalue hfields, ?_⟩
            rw [if_neg hoptional]
            omega

theorem costs_of_repeatOnto {items : Json} {count : Nat} {made results : List Json}
    {start final : Nat}
    (hrun : repeatOnto (child items) count made draws start = .value results final) :
    ∃ values cost, results = made.reverse ++ values ∧
      Costs config scope draws (.items items count) start (.arr values) cost ∧
      final = start + cost := by
  induction count generalizing made start with
  | zero =>
      cases hrun
      exact ⟨[], 0, by simp, .noItem, rfl⟩
  | succ count ih =>
      obtain ⟨value, next, hmade, hrest⟩ := bind_eq_value.mp hrun
      obtain ⟨cost, hvalue, rfl⟩ := hchild hmade
      obtain ⟨values, restCost, rfl, hvalues, rfl⟩ := ih hrest
      exact ⟨value :: values, cost + restCost, by simp, .item hvalue hvalues, Nat.add_assoc _ _ _⟩

/-- What a run makes of a shape takes as many draws as it costs. -/
theorem costs_of_expand {shape : Shape} {start : Nat} {value : Json} {final : Nat}
    (hrun : expand config child shape draws start = .value value final) :
    ∃ cost, Costs config scope draws (.shape shape) start value cost ∧ final = start + cost := by
  cases shape with
  | anyOf variants =>
      obtain ⟨variant, next, hpick, hmade⟩ := bind_eq_value.mp hrun
      obtain rfl := final_of_drawn hpick
      obtain ⟨cost, hvalue, rfl⟩ := hchild hmade
      exact ⟨1 + cost, .variant hpick hvalue, Nat.add_assoc _ _ _⟩
  | enumeration values =>
      obtain rfl := final_of_drawn hrun
      exact ⟨1, .listed hrun, rfl⟩
  | object properties required =>
      cases properties with
      | obj properties =>
          obtain ⟨results, hfields, rfl⟩ := map_eq_value.mp hrun
          obtain ⟨fields, cost, rfl, hvalue, rfl⟩ := costs_of_fieldsOnto hchild hfields
          exact ⟨_, .object hvalue, rfl⟩
      | _ => cases hrun
  | array items minItems maxItems =>
      by_cases hitems : items = .null
      · subst hitems
        cases hrun
        exact ⟨0, .emptyArray, rfl⟩
      · rw [expand_array config child hitems] at hrun
        obtain ⟨count, next, hcount, hrest⟩ := bind_eq_value.mp hrun
        obtain rfl := final_of_drawn hcount
        obtain ⟨length, next, hevaluated, hitemsRun⟩ := bind_eq_value.mp hrest
        obtain ⟨hlength, rfl⟩ := evaluate_eq_value.mp hevaluated
        obtain rfl : count = .int length := Option.some.inj (asInt_eq_ok.mp hlength)
        obtain ⟨results, hvalues, rfl⟩ := map_eq_value.mp hitemsRun
        obtain ⟨values, cost, rfl, hvalue, rfl⟩ := costs_of_repeatOnto hchild hvalues
        exact ⟨1 + cost, .array hitems hcount hvalue, Nat.add_assoc _ _ _⟩
  | boolean =>
      cases hrun
      exact ⟨1, .boolean, rfl⟩
  | integer minimum maximum =>
      obtain ⟨chosen, hchosen, rfl⟩ := map_eq_value.mp hrun
      obtain rfl := final_of_drawn hchosen
      exact ⟨1, .integer hchosen, rfl⟩
  | number minimum maximum =>
      obtain ⟨chosen, hchosen, rfl⟩ := map_eq_value.mp hrun
      obtain rfl := final_of_drawn hchosen
      exact ⟨1, .number hchosen, rfl⟩
  | string pattern =>
      rw [expand] at hrun
      split at hrun
      next hpattern =>
        cases hrun
        exact ⟨0, .placeholder hpattern, rfl⟩
      next hpattern =>
        obtain ⟨text, htext, rfl⟩ := map_eq_value.mp hrun
        obtain ⟨length, next, hevaluated, hword⟩ := bind_eq_value.mp htext
        obtain ⟨hlength, rfl⟩ := evaluate_eq_value.mp hevaluated
        obtain ⟨_, next, htimes, hdone⟩ := bind_eq_value.mp hword
        obtain ⟨letters, rfl, hcount, rfl, hletters⟩ :=
          repeatOnto_eq_value (fun _ _ _ hpick => final_of_drawn hpick) htimes
        cases hdone
        exact ⟨_, .text (Bool.eq_false_iff.mpr hpattern) hlength hcount hletters, rfl⟩
  | constant value =>
      cases hrun
      exact ⟨0, .constant, rfl⟩

end Runs

/-- Checking the depth takes no draw, nor does finding the shape. -/
theorem checkDepth_eq_value {limit : Json} {depth : Nat} {draws : Draws} {start final : Nat}
    (hrun : checkDepth limit depth draws start = .value () final) : final = start := by
  unfold checkDepth at hrun
  split at hrun
  next =>
    cases hrun
    rfl
  next =>
    obtain ⟨bound, next, hbound, hrun⟩ := bind_eq_value.mp hrun
    obtain ⟨-, rfl⟩ := evaluate_eq_value.mp hbound
    split at hrun
    next => cases hrun
    next =>
      cases hrun
      rfl

theorem costs_of_shapeIn {config : Config} {scope : Scope} {draws : Draws} {schema value : Json}
    {shape : Shape} {start cost : Nat} (hshape : shapeIn scope schema = .ok shape)
    (hvalue : Costs config scope draws (.shape shape) start value cost) :
    Costs config scope draws (.schema schema) start value cost := by
  rw [shapeIn_eq] at hshape
  cases htarget : Node.reference? schema with
  | none =>
      rw [htarget] at hshape
      exact .own htarget (mapError_eq_ok.mp hshape) hvalue
  | some target =>
      rw [htarget] at hshape
      obtain ⟨definition, hresolve, hshape⟩ := bind_eq_ok.mp hshape
      exact .hop htarget hresolve (mapError_eq_ok.mp hshape) hvalue

/-- A run takes as many draws as its value costs, at every allowance and depth. -/
theorem costs_of_exampleAt {config : Config} {scope : Scope} {draws : Draws}
    {allowance depth : Nat} {schema value : Json} {start final : Nat}
    (hrun : exampleAt config scope allowance depth schema draws start = .value value final) :
    ∃ cost, Costs config scope draws (.schema schema) start value cost ∧ final = start + cost := by
  induction allowance generalizing depth schema start value final with
  | zero => cases hrun
  | succ allowance ih =>
      obtain ⟨_, next, hdepth, hrest⟩ := bind_eq_value.mp hrun
      obtain rfl := checkDepth_eq_value hdepth
      obtain ⟨shape, next, hfound, hexpand⟩ := bind_eq_value.mp hrest
      obtain ⟨hshape, rfl⟩ := attempt_eq_value.mp hfound
      obtain ⟨cost, hvalue, rfl⟩ := costs_of_expand ih hexpand
      exact ⟨cost, costs_of_shapeIn hshape hvalue, rfl⟩

/-! ## Draws that are not taken -/

/-- A draw before the place where an outcome was reached. -/
def Outcome.Took {α : Type} (drawn : Nat) : Outcome α → Prop
  | .value _ final => drawn < final
  | .failure _ final => drawn < final
  | .unfinished => True

/-- A run ends as another one does, on every supply that has the same draws where they were
taken. -/
def Run.SettledBy {α : Type} (run run' : Run α) : Prop :=
  run.Forward ∧ ∀ draws draws' position,
    (∀ drawn, position ≤ drawn → (run draws position).Took drawn → draws' drawn = draws drawn) →
      run' draws' position = run draws position

theorem settledBy_congruence : Congruence SettledBy where
  pure result := ⟨forward_congruence.pure result, fun _ _ _ _ => rfl⟩
  draw := by
    refine ⟨forward_congruence.draw, fun draws draws' position hsame => ?_⟩
    rw [draw, draw, hsame position le_rfl (Nat.lt_succ_self position)]
  fault cause := ⟨forward_congruence.fault cause, fun _ _ _ _ => rfl⟩
  bind := by
    intro α β first first' next next' hfirst hnext
    refine ⟨forward_bind hfirst.1 fun result => (hnext result).1, ?_⟩
    intro draws draws' position hsame
    rw [bind_apply] at hsame ⊢
    rw [bind_apply]
    have hforward := hfirst.1 draws position
    have hfirst := hfirst.2 draws draws' position
    cases hcase : first draws position with
    | value result middle =>
        rw [hcase] at hsame hforward hfirst
        have hlater := (hnext result).1 draws middle
        -- what the first part took lies before where the second one starts
        rw [hfirst fun drawn hle hlt => hsame drawn hle ?_]
        · exact (hnext result).2 draws draws' middle fun drawn hle =>
            hsame drawn (le_trans hforward hle)
        · dsimp only
          cases hnextCase : next result draws middle with
          | unfinished => trivial
          | _ =>
              rw [hnextCase] at hlater
              exact lt_of_lt_of_le hlt hlater
    | failure cause middle =>
        rw [hcase] at hsame hfirst
        rw [hfirst hsame]
    | unfinished =>
        rw [hcase] at hsame hfirst
        rw [hfirst hsame]

theorem exampleWithin_settledBy (allowance : Nat) (config : Config) (schema root : Json) :
    SettledBy (exampleWithin allowance config schema root)
      (exampleWithin allowance config schema root) :=
  settledBy_congruence.exampleWithin (fun cause => ⟨forward_fail cause, fun _ _ _ _ => rfl⟩)
    ⟨fun _ _ => trivial, fun _ _ _ _ => rfl⟩ allowance config schema root

/-! ## The account of a run -/

/-- A run that ends with a value has taken as many draws as the value costs, by rules that leave no
choice. And a run, however it ends, ends alike on every supply that agrees on the draws it took. -/
theorem draws_accounted {config : Config} {schema root : Json} {draws : Draws} {position : Nat}
    {outcome : Outcome Json} (hends : Ends config schema root draws position outcome) :
    (∀ value final, outcome = .value value final →
      ∃ scope cost, Scope.ofRoot root = .ok scope ∧
        Costs config scope draws (.schema schema) position value cost ∧ final = position + cost ∧
        ∀ value' cost', Costs config scope draws (.schema schema) position value' cost' →
          value' = value ∧ cost' = cost) ∧
      ∀ draws', (∀ drawn, position ≤ drawn → outcome.Took drawn → draws' drawn = draws drawn) →
        Ends config schema root draws' position outcome := by
  obtain ⟨hne, enough, hrun⟩ := hends
  refine ⟨?_, ?_⟩
  · rintro value final rfl
    obtain ⟨scope, next, hevaluated, hmade⟩ := bind_eq_value.mp (hrun enough le_rfl)
    obtain ⟨hscope, rfl⟩ := evaluate_eq_value.mp hevaluated
    obtain ⟨cost, hcosts, rfl⟩ := costs_of_exampleAt hmade
    exact ⟨scope, cost, hscope, hcosts, rfl, fun _ _ hother => hcosts.unique hother⟩
  · intro draws' hsame
    refine ⟨hne, enough, fun allowance hallowance => ?_⟩
    have hsettled := (exampleWithin_settledBy allowance config schema root).2 draws draws' position
    rw [hrun allowance hallowance] at hsettled
    exact hsettled hsame

/-- Nine draws: one for the alternative and one for the integer of the required property, one for
whether the other is made, one for its length and five for its items. -/
theorem draws_accounted_sample :
    Ends Config.standard Sample.schema Sample.root (Draws.constant Sample.threeQuarters) 0
        (.value Sample.value 9) ∧
      ∃ scope, Scope.ofRoot Sample.root = .ok scope ∧
        Costs Config.standard scope (Draws.constant Sample.threeQuarters) (.schema Sample.schema) 0
          Sample.value 9 := by
  have hends := ends_of_exampleWithin (by simp) Sample.exampleWithin_five
  obtain ⟨scope, cost, hscope, hcosts, hnine, -⟩ := (draws_accounted hends).1 _ _ rfl
  rw [Nat.zero_add] at hnine
  subst hnine
  exact ⟨hends, scope, hscope, hcosts⟩

end Exemplar
