import Exemplar.Proofs.Double.Fraction
import Exemplar.Proofs.Generation.Choice

/-!
# What runs can reach

A run reaches a result if some list of draws from the unit interval leads it there
and is taken to the last draw, whatever draws come before and after. A choice
reaches everything that it chooses from, and what runs reach one after another the
whole reaches by the lists one after another.
-/

namespace Exemplar

/-- The draws from a position on start with those of a list. -/
def Draws.Supplies (draws : Draws) : Nat → List Double → Prop
  | _, [] => True
  | position, drawn :: rest => draws position = drawn ∧ draws.Supplies (position + 1) rest

theorem Draws.supplies_append {draws : Draws} {position : Nat} {first second : List Double} :
    draws.Supplies position (first ++ second) ↔
      draws.Supplies position first ∧ draws.Supplies (position + first.length) second := by
  induction first generalizing position with
  | nil => simp [Supplies]
  | cons drawn rest ih =>
      rw [List.cons_append, Supplies, Supplies, ih, and_assoc, List.length_cons, Nat.add_assoc,
        Nat.add_comm 1]

namespace Run

variable {α β : Type}

/-- Some draws from the unit interval lead a run to a result, and it takes them all. -/
def Reaches (run : Run α) (result : α) : Prop :=
  ∃ taken : List Double, (∀ drawn ∈ taken, drawn.InUnit) ∧
    ∀ draws position, Draws.Supplies draws position taken →
      run draws position = .value result (position + taken.length)

theorem reaches_pure (result : α) : (pure result : Run α).Reaches result :=
  ⟨[], by simp, fun _ _ _ => rfl⟩

theorem reaches_draw {drawn : Double} (hunit : drawn.InUnit) : draw.Reaches drawn := by
  refine ⟨[drawn], by simpa using hunit, ?_⟩
  rintro draws position ⟨hdrawn, -⟩
  simp [draw, hdrawn]

theorem Reaches.bind {run : Run α} {next : α → Run β} {middle : α} {result : β}
    (hrun : run.Reaches middle) (hnext : (next middle).Reaches result) :
    (run >>= next).Reaches result := by
  obtain ⟨first, hfirst, hrun⟩ := hrun
  obtain ⟨second, hsecond, hnext⟩ := hnext
  refine ⟨first ++ second, ?_, ?_⟩
  · intro drawn hmem
    exact (List.mem_append.mp hmem).elim (hfirst drawn) (hsecond drawn)
  · intro draws position hsupplies
    obtain ⟨hsupplies, hsupplies'⟩ := Draws.supplies_append.mp hsupplies
    rw [bind_apply, hrun draws position hsupplies, List.length_append, ← Nat.add_assoc]
    exact hnext draws _ hsupplies'

theorem Reaches.map {run : Run α} {result : α} (hrun : run.Reaches result) (f : α → β) :
    (f <$> run).Reaches (f result) := by
  rw [← bind_pure_comp]
  exact hrun.bind (reaches_pure _)

theorem reaches_evaluate {computed : Except Fault α} {result : α} (hok : computed = .ok result) :
    (evaluate computed).Reaches result := by
  subst hok
  exact reaches_pure result

/-- A run that is repeated reaches any results that it reaches each time. -/
theorem reaches_repeatOnto {run : Run α} {results : List α}
    (hrun : ∀ result ∈ results, run.Reaches result) (made : List α) :
    (repeatOnto run results.length made).Reaches (made.reverse ++ results) := by
  induction results generalizing made with
  | nil =>
      rw [List.append_nil]
      exact reaches_pure made.reverse
  | cons result rest ih =>
      refine (hrun result List.mem_cons_self).bind ?_
      have hrest := ih (fun later hlater => hrun later (List.mem_cons_of_mem _ hlater))
        (result :: made)
      simpa using hrest

theorem reaches_times {run : Run α} {results : List α}
    (hrun : ∀ result ∈ results, run.Reaches result) :
    (run.times results.length).Reaches results :=
  reaches_repeatOnto hrun []

end Run

open Run

/-! ## Choices -/

theorem exists_partOf_eq {index count : Nat} (hindex : index < count)
    (hcount : count ≤ significandSpan) :
    ∃ drawn : Double, drawn.InUnit ∧ partOf drawn (.int count) = .ok index := by
  obtain ⟨drawn, scale, hunit, hscale, hfloor⟩ := Double.exists_floor_mul_eq hindex hcount
  refine ⟨drawn, hunit, bind_eq_ok.mpr ⟨drawn * scale, ?_, hfloor⟩⟩
  simp [Number.scale, Number.toDouble, hscale, Except.map]

theorem reaches_pick {α : Type} {elements : List α} {element : α} (hmem : element ∈ elements)
    (hlength : elements.length ≤ significandSpan) : (pick elements).Reaches element := by
  obtain ⟨index, hindex, rfl⟩ := List.mem_iff_getElem.mp hmem
  obtain ⟨drawn, hunit, hpart⟩ := exists_partOf_eq hindex hlength
  refine (reaches_draw hunit).bind (reaches_evaluate (bind_eq_ok.mpr ⟨index, hpart, ?_⟩))
  unfold elementAt
  dsimp only
  rw [if_neg (by omega), if_neg (by omega), Int.toNat_natCast, List.getElem?_eq_getElem hindex]

/-- Every integer between integer bounds is reached if there are not too many. -/
theorem reaches_spread {lower upper : Json} {low high n : Int} (hlower : lower.asInt = .ok low)
    (hupper : upper.asInt = .ok high) (hlow : low ≤ n) (hhigh : n ≤ high)
    (hwidth : high - low + 1 ≤ significandSpan) : (spread lower upper).Reaches (.int n) := by
  obtain ⟨drawn, hunit, hpart⟩ := @exists_partOf_eq (n - low).toNat (high - low + 1).toNat
    (by omega) (by omega)
  rw [Int.toNat_of_nonneg (by omega), Int.toNat_of_nonneg (by omega)] at hpart
  refine (reaches_draw hunit).bind (reaches_evaluate ?_)
  rw [asNumber_of_asInt hlower, asNumber_of_asInt hupper]
  refine bind_eq_ok.mpr ⟨.int high, rfl, bind_eq_ok.mpr ⟨.int low, rfl, bind_eq_ok.mpr
    ⟨.int (high - low), rfl, bind_eq_ok.mpr ⟨.int (high - low + 1), rfl, bind_eq_ok.mpr
      ⟨n - low, hpart, ?_⟩⟩⟩⟩⟩
  rw [Number.add, Int.sub_add_cancel]

theorem mem_alphabet_of_isAlphanum {c : Char} (hc : c.isAlphanum = true) : c ∈ alphabet := by
  have hall : ∀ n < 128, (Char.ofNat n).isAlphanum = true → Char.ofNat n ∈ alphabet := by
    decide +kernel
  have hbasic : c.toNat < 128 := by
    have hranges : c.isAlphanum = ((decide (c.val ≥ 65 ∧ c.val ≤ 90) ||
        (c.val ≥ 97 && c.val ≤ 122)) || (c.val ≥ 48 && c.val ≤ 57)) := rfl
    rw [hranges] at hc
    simp only [Bool.or_eq_true, Bool.and_eq_true, decide_eq_true_eq, UInt32.le_iff_toNat_le,
      ge_iff_le] at hc
    change ((65 ≤ c.toNat ∧ c.toNat ≤ 90) ∨ (97 ≤ c.toNat ∧ c.toNat ≤ 122)) ∨
      (48 ≤ c.toNat ∧ c.toNat ≤ 57) at hc
    omega
  rw [← Char.ofNat_toNat c] at hc ⊢
  exact hall c.toNat hbasic hc

theorem reaches_word {length : Json} {text : String} (hlength : length.asInt = .ok text.length)
    (hletters : ∀ c ∈ text.toList, c.isAlphanum = true) : (word length).Reaches text := by
  have htimes : ((pick alphabet).times text.toList.length).Reaches text.toList := by
    apply reaches_times
    intro c hc
    apply reaches_pick (mem_alphabet_of_isAlphanum (hletters c hc))
    rw [length_alphabet]
    decide
  refine (reaches_evaluate hlength).bind ?_
  rw [Int.toNat_natCast, ← String.length_toList]
  simpa using htimes.map String.ofList

theorem reaches_boolean (child : Json → Run Json) (value : Bool) :
    (expand Config.standard child .boolean).Reaches (.bool value) := by
  obtain ⟨drawn, hunit, hbelow⟩ : ∃ drawn : Double, drawn.InUnit ∧
      drawn.extent.lt Double.half.extent = value := by
    cases value with
    | false => exact ⟨.threeQuarters, Double.threeQuarters_inUnit, by decide +kernel⟩
    | true => exact ⟨.zero, Double.zero_inUnit, by decide +kernel⟩
  subst hbelow
  exact (reaches_draw hunit).bind (reaches_pure _)

/-! ## Objects -/

/-- What a run can make of the properties of an object: each is made or, unless it is required, left
out, in the order of declaration. -/
inductive Selects (required : List Json) : List (Str × Json) → List (Member Json) → Prop
  | nil : Selects required [] []
  | made {rest : List (Str × Json)} {members : List (Member Json)} (member : Member Json)
      (hrest : Selects required rest members) :
      Selects required (member.property :: rest) (member :: members)
  | left {name : Str} {schema : Json} {rest : List (Str × Json)}
      {members : List (Member Json)} (hoptional : .str name ∉ required)
      (hrest : Selects required rest members) :
      Selects required ((name, schema) :: rest) members

/-- Whether an optional property is made can go either way. -/
theorem reaches_includes {required : List Json} {name : Str} {made : Bool}
    (hmade : .str name ∈ required → made = true) :
    (includes Config.standard.optionalPropertyProbability required name).Reaches made := by
  unfold includes
  by_cases hrequired : .str name ∈ required
  · rw [if_pos (List.contains_iff_mem.mpr hrequired), hmade hrequired]
    exact reaches_pure true
  · rw [if_neg (fun h => hrequired (List.contains_iff_mem.mp h))]
    obtain ⟨drawn, hunit, habove⟩ : ∃ drawn : Double, drawn.InUnit ∧
        (Number.float .half).lt (.float drawn) = made := by
      cases made with
      | false => exact ⟨.zero, Double.zero_inUnit, by decide +kernel⟩
      | true => exact ⟨.threeQuarters, Double.threeQuarters_inUnit, by decide +kernel⟩
    subst habove
    exact (reaches_draw hunit).bind ((reaches_evaluate rfl).bind (reaches_pure _))

/-- The fields of any selection are reached whose values are. -/
theorem reaches_fieldsOnto {required : List Json} {child : Json → Run Json}
    {properties : List (Str × Json)} {members : List (Member Json)}
    (hselects : Selects required properties members)
    (hvalues : ∀ member ∈ members, (child member.schema).Reaches member.value)
    (made : List (Str × Json)) :
    (fieldsOnto Config.standard.optionalPropertyProbability required child properties made).Reaches
      (made.reverse ++ members.map Member.field) := by
  induction hselects generalizing made with
  | nil =>
      rw [List.map_nil, List.append_nil]
      exact reaches_pure made.reverse
  | made member hrest ih =>
      refine (@reaches_includes required member.name true fun _ => rfl).bind ?_
      refine (hvalues member List.mem_cons_self).bind ?_
      have hrest := ih (fun later hlater => hvalues later (List.mem_cons_of_mem _ hlater))
        (member.field :: made)
      rwa [List.reverse_cons, List.append_assoc] at hrest
  | @left name schema rest members hoptional hrest ih =>
      exact (@reaches_includes required name false fun hmem => absurd hmem hoptional).bind
        (ih hvalues made)

end Exemplar
