import Exemplar.Generation.Example
import Exemplar.Proofs.Generation.Ensures

/-!
# Choices

What each kind of choice ensures by itself: an element is one of those that were
offered, a step lies between its bounds, a text has its length. Where the
operands are of bounded magnitude a choice also never fails.
-/

namespace Exemplar

open Run

theorem asInt_eq_ok {value : Json} {n : Int} :
    value.asInt = .ok n ↔ value.number? = some (.int n) := by
  unfold Json.asInt
  split
  next m heq => simp [heq]
  next hother => simp only [reduceCtorEq, false_iff]; exact hother n

theorem asNumber_of_asInt {value : Json} {n : Int} (hvalue : value.asInt = .ok n) :
    value.asNumber = .ok (.int n) := by
  unfold Json.asNumber
  rw [asInt_eq_ok.mp hvalue]

/-! ## Parts -/

/-- A part of a number is the integer part of the scaled number. -/
theorem partOf_eq_ok {drawn : Double} {count : Number} {part : Int} :
    partOf drawn count = .ok part ↔
      ∃ scale, count.toDouble = .ok scale ∧ (drawn * scale).floor = .ok part := by
  unfold partOf Number.scale
  rw [bind_eq_ok]
  constructor
  · rintro ⟨product, hscale, hfloor⟩
    obtain ⟨scale, hdouble, rfl⟩ := map_eq_ok.mp hscale
    exact ⟨scale, hdouble, hfloor⟩
  · rintro ⟨scale, hdouble, hfloor⟩
    exact ⟨_, map_eq_ok.mpr ⟨scale, hdouble, rfl⟩, hfloor⟩

theorem partOf_int_eq_ok {drawn : Double} {n part : Int}
    (hpart : partOf drawn (.int n) = .ok part) :
    ∃ scale, Double.ofInt? n = some scale ∧ (drawn * scale).floor = .ok part := by
  obtain ⟨scale, hdouble, hfloor⟩ := partOf_eq_ok.mp hpart
  refine ⟨scale, ?_, hfloor⟩
  simp only [Number.toDouble] at hdouble
  split at hdouble
  next rounded heq => rw [heq, Except.ok.inj hdouble]
  next => cases hdouble

/-- The part of an integer that a draw falls into is an index below the integer. -/
theorem partOf_int {drawn : Double} {n part : Int} (hunit : drawn.InUnit) (hn : 0 < n)
    (hpart : partOf drawn (.int n) = .ok part) : 0 ≤ part ∧ part < n := by
  obtain ⟨scale, hscale, hfloor⟩ := partOf_int_eq_ok hpart
  obtain ⟨index, hindex, hlow, hhigh⟩ := Double.floor_mul_ofInt hunit hn hscale
  rw [hindex] at hfloor
  cases hfloor
  exact ⟨hlow, hhigh⟩

/-- The part of an integer that is not positive lies from the integer up to zero. -/
theorem partOf_int_of_nonpos {drawn : Double} {n part : Int} (hunit : drawn.InUnit) (hn : n ≤ 0)
    (hpart : partOf drawn (.int n) = .ok part) : n ≤ part ∧ part ≤ 0 := by
  obtain ⟨scale, hscale, hfloor⟩ := partOf_int_eq_ok hpart
  obtain ⟨index, hindex, hlow, hhigh⟩ := Double.floor_mul_ofInt_of_nonpos hunit hn hscale
  rw [hindex] at hfloor
  cases hfloor
  exact ⟨hlow, hhigh⟩

theorem partOf_fitsIn {drawn : Double} {count : Number} {exponent : Nat} (hunit : drawn.InUnit)
    (hcount : count.FitsIn exponent) (hexponent : exponent < 1024) :
    ∃ part, partOf drawn count = .ok part ∧ part.natAbs ≤ 2 ^ exponent := by
  obtain ⟨product, hscale, hproduct⟩ := Number.FitsIn.scale hunit.fitsIn hcount (by omega)
  rw [Nat.zero_add] at hproduct
  obtain ⟨part, hfloor, hpart⟩ := hproduct.floor
  exact ⟨part, by rw [partOf, hscale]; exact hfloor, hpart⟩

/-! ## Elements -/

theorem mem_of_elementAt {α : Type} {elements : List α} {index : Int} {element : α}
    (helement : elementAt elements index = .ok element) : element ∈ elements := by
  unfold elementAt at helement
  dsimp only at helement
  generalize (if index < 0 then index + elements.length else index) = place at helement
  by_cases hnegative : place < 0
  · rw [if_pos hnegative] at helement
    cases helement
  · rw [if_neg hnegative] at helement
    cases hfound : elements[place.toNat]? with
    | none =>
        rw [hfound] at helement
        cases helement
    | some found =>
        rw [hfound] at helement
        cases helement
        exact List.mem_of_getElem? hfound

theorem elementAt_of_lt {α : Type} {elements : List α} {index : Int} (hlow : 0 ≤ index)
    (hhigh : index < elements.length) : ∃ element, elementAt elements index = .ok element := by
  have hlt : index.toNat < elements.length := by omega
  refine ⟨elements[index.toNat], ?_⟩
  unfold elementAt
  dsimp only
  rw [if_neg (by omega), if_neg (by omega), List.getElem?_eq_getElem hlt]

theorem ensures_pick {α : Type} {supply : Double → Prop} (elements : List α) :
    (pick elements).Ensures (· ∈ elements) (fun _ => True) supply := by
  refine ensures_draw.bind fun drawn _ => ensures_evaluate ?_ fun _ _ => trivial
  intro element hpick
  obtain ⟨part, -, helement⟩ := bind_eq_ok.mp hpick
  exact mem_of_elementAt helement

/-- An element is chosen without fail from a list that is neither empty nor too long to be
counted. -/
theorem pick_succeeds {α : Type} {elements : List α} {exponent : Nat} {bad : Failure → Prop}
    (hne : elements ≠ []) (hlength : elements.length ≤ 2 ^ exponent) (hexponent : exponent < 1024) :
    (pick elements).Ensures (· ∈ elements) bad := by
  apply ensures_draw.bind
  intro drawn hunit
  have hcount : (Number.int elements.length).FitsIn exponent := by simpa [Number.FitsIn]
  obtain ⟨part, hpart, -⟩ := partOf_fitsIn hunit hcount hexponent
  have hpos : (0 : Int) < elements.length := by
    exact_mod_cast List.length_pos_iff.mpr hne
  obtain ⟨hlow, hhigh⟩ := partOf_int hunit hpos hpart
  obtain ⟨element, helement⟩ := elementAt_of_lt hlow hhigh
  exact ensures_evaluate_ok (bind_eq_ok.mpr ⟨part, hpart, helement⟩) (mem_of_elementAt helement)

/-! ## Steps and points -/

/-- The way from two bounds to a number that some draw chooses between them. -/
inductive SpreadTo (low high chosen : Number) : Prop
  | steps {drawn : Double} {width count : Number} {part : Int} (hunit : drawn.InUnit)
      (hwidth : high.sub low = .ok width) (hcount : width.add (.int 1) = .ok count)
      (hpart : partOf drawn count = .ok part) (hchosen : (Number.int part).add low = .ok chosen)

/-- A step is taken on this way, and only where the bounds are numbers. -/
theorem ensures_spreadTo (lower upper : Json) :
    (spread lower upper).Ensures
      (fun chosen => ∃ low high, lower.asNumber = .ok low ∧ upper.asNumber = .ok high ∧
        SpreadTo low high chosen)
      (fun _ => True) := by
  refine ensures_draw.bind fun drawn hunit => ensures_evaluate ?_ fun _ _ => trivial
  intro chosen hchosen
  obtain ⟨high, hhigh, hchosen⟩ := bind_eq_ok.mp hchosen
  obtain ⟨low, hlow, hchosen⟩ := bind_eq_ok.mp hchosen
  obtain ⟨width, hwidth, hchosen⟩ := bind_eq_ok.mp hchosen
  obtain ⟨count, hcount, hchosen⟩ := bind_eq_ok.mp hchosen
  obtain ⟨part, hpart, hchosen⟩ := bind_eq_ok.mp hchosen
  exact ⟨low, high, hlow, hhigh, .steps hunit hwidth hcount hpart hchosen⟩

/-- Between integers in order an integer is chosen; from integers that are not in order, one that
lies above the upper and not above the lower one. -/
theorem SpreadTo.int {low high : Int} {chosen : Number}
    (hchosen : SpreadTo (.int low) (.int high) chosen) :
    ∃ n, chosen = .int n ∧ (low ≤ high → low ≤ n ∧ n ≤ high) ∧
      (high < low → high < n ∧ n ≤ low) := by
  obtain ⟨hunit, hwidth, hcount, hpart, hchosen⟩ := hchosen
  cases hwidth
  cases hcount
  cases hchosen
  refine ⟨_, rfl, fun hle => ?_, fun hlt => ?_⟩
  · obtain ⟨hfrom, hto⟩ := partOf_int hunit (by omega) hpart
    omega
  · obtain ⟨hfrom, hto⟩ := partOf_int_of_nonpos hunit (by omega) hpart
    omega

/-- A step between integer bounds is an integer between them. -/
theorem ensures_spread (lower upper : Json) :
    (spread lower upper).Ensures
      (fun chosen => ∀ low high : Int, lower.asInt = .ok low → upper.asInt = .ok high →
        low ≤ high → ∃ n, chosen = .int n ∧ low ≤ n ∧ n ≤ high)
      (fun _ => True) := by
  refine (ensures_spreadTo lower upper).mono ?_ fun _ => id
  rintro chosen ⟨low, high, hlow, hhigh, hchosen⟩ m n hm hn hle
  rw [asNumber_of_asInt hm] at hlow
  rw [asNumber_of_asInt hn] at hhigh
  cases hlow
  cases hhigh
  obtain ⟨k, heq, hordered, -⟩ := hchosen.int
  exact ⟨k, heq, hordered hle⟩

/-- A step between bounds of bounded magnitude is chosen without fail, an integer from an integer
on. -/
theorem spread_succeeds {lower upper : Json} {low high : Number} {exponent : Nat}
    {bad : Failure → Prop} (hlower : lower.asNumber = .ok low) (hupper : upper.asNumber = .ok high)
    (hlow : low.FitsIn exponent) (hhigh : high.FitsIn exponent) (hexponent : exponent + 3 < 1024) :
    (spread lower upper).Ensures (fun chosen => ∀ m, low = .int m → ∃ n, chosen = .int n)
      bad := by
  apply ensures_draw.bind
  intro drawn hunit
  obtain ⟨width, hwidth, hfits⟩ := hhigh.sub hlow (by omega)
  have hone : (Number.int 1).FitsIn (exponent + 1) := by
    simp only [Number.FitsIn]
    exact Nat.one_le_two_pow
  obtain ⟨count, hcount, hfits⟩ := hfits.add hone (by omega)
  obtain ⟨part, hpart, hbound⟩ := partOf_fitsIn hunit hfits (by omega)
  obtain ⟨chosen, hchosen, -⟩ :=
    Number.FitsIn.add (a := .int part) hbound (hlow.mono (by omega)) (by omega)
  refine ensures_evaluate_ok (bind_eq_ok.mpr ⟨high, hupper, bind_eq_ok.mpr ⟨low, hlower,
    bind_eq_ok.mpr ⟨width, hwidth, bind_eq_ok.mpr ⟨count, hcount,
      bind_eq_ok.mpr ⟨part, hpart, hchosen⟩⟩⟩⟩⟩) fun m hm => ?_
  subst hm
  cases hchosen
  exact ⟨_, rfl⟩

theorem ensures_point (lower upper places : Json) :
    (point lower upper places).Ensures
      (fun rounded => ∃ (amount : Double) (count : Int),
        places.asInt = .ok count ∧ amount.round count = .ok rounded)
      (fun _ => True) := by
  refine ensures_draw.bind fun drawn _ => ensures_evaluate ?_ fun _ _ => trivial
  intro rounded hrounded
  obtain ⟨high, -, hrounded⟩ := bind_eq_ok.mp hrounded
  obtain ⟨low, -, hrounded⟩ := bind_eq_ok.mp hrounded
  obtain ⟨width, -, hrounded⟩ := bind_eq_ok.mp hrounded
  obtain ⟨offset, -, hrounded⟩ := bind_eq_ok.mp hrounded
  obtain ⟨sum, -, hrounded⟩ := bind_eq_ok.mp hrounded
  obtain ⟨amount, -, hrounded⟩ := bind_eq_ok.mp hrounded
  obtain ⟨count, hcount, hrounded⟩ := bind_eq_ok.mp hrounded
  exact ⟨amount, count, hcount, hrounded⟩

/-! ## Texts -/

theorem length_alphabet : alphabet.length = 62 := by decide +kernel

/-- A text has as many characters as were asked for, and it fails only where that is no integer. -/
theorem ensures_word {length : Json} {bad : Failure → Prop}
    (hbad : ∀ cause, length.asInt = .error cause → bad (.fault cause)) :
    (word length).Ensures
      (fun text => ∃ count, length.asInt = .ok count ∧ text.length = count.toNat ∧
        ∀ c ∈ text.toList, c ∈ alphabet)
      bad := by
  have hlength : (evaluate length.asInt).Ensures (fun count => length.asInt = .ok count) bad :=
    ensures_evaluate (fun _ heq => heq) hbad
  have hne : alphabet ≠ [] := List.ne_nil_of_length_pos (by rw [length_alphabet]; decide)
  have hsize : alphabet.length ≤ 2 ^ 6 := by
    rw [length_alphabet]
    decide
  have hletter : (pick alphabet).Ensures (· ∈ alphabet) bad :=
    @pick_succeeds Char alphabet 6 bad hne hsize (by decide)
  refine hlength.bind fun count hcount => (hletter.times _).bind ?_
  intro letters hletters
  exact ensures_pure ⟨count, hcount, by simp [hletters.1], by simpa using hletters.2⟩

/-! ## Fields -/

/-- A required property is always made, and whether another one is made fails only where the
threshold is no number. -/
theorem ensures_includes {threshold : Json} {required : List Json} {name : Str}
    {bad : Failure → Prop} {supply : Double → Prop}
    (hbad : ∀ cause, threshold.asNumber = .error cause → bad (.fault cause)) :
    (includes threshold required name).Ensures
      (fun made => .str name ∈ required → made = true) bad supply := by
  unfold includes
  split
  next => exact ensures_pure fun _ => rfl
  next hoptional =>
    apply ensures_draw.bind
    intro drawn _
    have hthreshold : (evaluate threshold.asNumber).Ensures (fun _ => True) bad supply :=
      ensures_evaluate (fun _ _ => trivial) hbad
    refine hthreshold.bind fun bound _ => ensures_pure ?_
    intro hmem
    exact absurd (List.contains_iff_mem.mpr hmem) hoptional

/-- A property that was made, with its schema and its value. -/
structure Member (α : Type) where
  name : Str
  schema : Json
  value : α

namespace Member

variable {α : Type}

/-- The property as it was declared. -/
def property (member : Member α) : Str × Json := (member.name, member.schema)

/-- The field that was made from the property. -/
def field (member : Member α) : Str × α := (member.name, member.value)

end Member

/-- The members of an object are some of its properties in order, all that are required among
them. -/
structure SelectedFrom {α : Type} (properties : List (Str × Json)) (required : List Json)
    (members : List (Member α)) : Prop where
  sublist : (members.map Member.property).Sublist properties
  required : ∀ property ∈ properties, .str property.1 ∈ required →
    property ∈ members.map Member.property

/-- The fields that are made belong to a selection of the properties, each with a good value. -/
theorem ensures_fieldsOnto {α : Type} {threshold : Json} {required : List Json}
    {child : Json → Run α} {good : Json → α → Prop} {bad : Failure → Prop}
    {supply : Double → Prop} (properties : List (Str × Json)) (made : List (Str × α))
    (hbad : ∀ cause, threshold.asNumber = .error cause → bad (.fault cause))
    (hchild : ∀ property ∈ properties, (child property.2).Ensures (good property.2) bad supply) :
    (fieldsOnto threshold required child properties made).Ensures
      (fun fields => ∃ members, SelectedFrom properties required members ∧
        fields = made.reverse ++ members.map Member.field ∧
        ∀ member ∈ members, good member.schema member.value) bad supply := by
  induction properties generalizing made with
  | nil => exact ensures_pure ⟨[], ⟨List.Sublist.refl _, by simp⟩, by simp, by simp⟩
  | cons property rest ih =>
      obtain ⟨name, schema⟩ := property
      have hrest : ∀ property ∈ rest, (child property.2).Ensures (good property.2) bad supply :=
        fun property hmem => hchild property (List.mem_cons_of_mem _ hmem)
      apply (ensures_includes hbad).bind
      intro kept hkept
      cases kept with
      | false =>
          refine (ih made hrest).mono ?_ fun _ => id
          rintro fields ⟨members, ⟨hsublist, hrequired⟩, hfields, hvalues⟩
          refine ⟨members, ⟨hsublist.cons _, fun property hmem hname => ?_⟩, hfields, hvalues⟩
          rcases List.mem_cons.mp hmem with rfl | hmem
          · exact absurd (hkept hname) Bool.false_ne_true
          · exact hrequired property hmem hname
      | true =>
          apply (hchild (name, schema) List.mem_cons_self).bind
          intro value hvalue
          refine (ih ((name, value) :: made) hrest).mono ?_ fun _ => id
          rintro fields ⟨members, ⟨hsublist, hrequired⟩, rfl, hvalues⟩
          refine ⟨⟨name, schema, value⟩ :: members, ⟨hsublist.cons_cons _, ?_⟩,
            by simp [Member.field], by simpa using ⟨hvalue, hvalues⟩⟩
          intro property hmem hname
          rcases List.mem_cons.mp hmem with rfl | hmem
          · exact List.mem_cons_self
          · exact List.mem_cons_of_mem _ (hrequired property hmem hname)

/-! ## Arrays -/

/-- An array has a chosen number of good items, and it fails only where the choice does or is no
integer. -/
theorem ensures_expand_array {config : Config} {child : Json → Run Json}
    {items minItems maxItems : Json} {good : Number → Prop} {goodItem : Json → Prop}
    {bad : Failure → Prop} (hitems : items ≠ .null)
    (hspread : (spread (minItems.orElse config.defaultMinItems)
      (maxItems.orElse config.defaultMaxItems)).Ensures good bad)
    (hbad : ∀ count, good count → ∀ cause, (Json.number count).asInt = .error cause →
      bad (.fault cause))
    (hchild : (child items).Ensures goodItem bad) :
    (expand config child (.array items minItems maxItems)).Ensures
      (fun value => ∃ (count : Int) (values : List Json), good (.int count) ∧
        value = .arr values ∧ values.length = count.toNat ∧ ∀ item ∈ values, goodItem item)
      bad := by
  rw [expand_array config child hitems]
  apply hspread.bind
  intro count hcount
  have hlength : (evaluate (Json.number count).asInt).Ensures
      (fun length => count = .int length) bad := by
    refine ensures_evaluate (fun length heq => ?_) (hbad count hcount)
    exact Option.some.inj (asInt_eq_ok.mp heq)
  refine hlength.bind fun length heq => (hchild.times _).map ?_
  subst heq
  rintro values ⟨hvalues, hitem⟩
  exact ⟨length, values, hcount, rfl, hvalues, hitem⟩

end Exemplar
