import Exemplar.Proofs.Generation.Accounting
import Exemplar.Proofs.Generation.Reach

/-!
# Draws as indices

A draw from the unit interval becomes an index below a count: the count is scaled by it
and the integer part taken. The count is rounded where it is too long, the product is
rounded again, and no index reaches the count all the same. Every choice by one draw is
of this kind, so that no element is looked for outside its list and no step leaves its
bounds. A greater draw never has a smaller index, and up to `2 ^ 52` no index is left out.
-/

namespace Exemplar

open Run

/-! ## Scaled counts -/

/-- The integer part of a scaled count does not decrease as the draw grows. -/
theorem Double.floor_mul_mono {drawn drawn' scale : Double} {units part part' : ℤ}
    (hscale : scale.extent = .units units) (hunits : 0 ≤ units)
    (hle : drawn'.extent.lt drawn.extent = false) (hpart : (drawn * scale).floor = .ok part)
    (hpart' : (drawn' * scale).floor = .ok part') : part ≤ part' := by
  obtain ⟨count, hproduct, rfl⟩ := floor_eq_ok.mp hpart
  obtain ⟨count', hproduct', rfl⟩ := floor_eq_ok.mp hpart'
  obtain ⟨a, ha⟩ := (exists_units_of_mul hproduct).1
  obtain ⟨a', ha'⟩ := (exists_units_of_mul hproduct').1
  have hone : (0 : ℚ) < unitsPerOne := by exact_mod_cast unitsPerOne_pos
  have hdrawn : a ≤ a' := by
    rw [ha, ha'] at hle
    simpa [Extent.lt] using hle
  apply Int.ediv_le_ediv (by exact_mod_cast unitsPerOne_pos)
  rw [extent_mul ha hscale hproduct, extent_mul ha' hscale hproduct']
  apply rounded_mono
  rw [div_le_div_iff_of_pos_right hone]
  exact_mod_cast Int.mul_le_mul_of_nonneg_right hdrawn hunits

/-- What scaling a positive integer by draws does. -/
structure ScalesToIndices (n : Int) (scale : Double) : Prop where
  within : ∀ drawn : Double, drawn.InUnit →
    ∃ index, (drawn * scale).floor = .ok index ∧ 0 ≤ index ∧ index < n
  monotone : ∀ (drawn drawn' : Double) (index index' : Int),
    drawn'.extent.lt drawn.extent = false → (drawn * scale).floor = .ok index →
      (drawn' * scale).floor = .ok index' → index ≤ index'

theorem scalesToIndices {n : Int} {scale : Double} (hn : 0 < n)
    (hscale : Double.ofInt? n = some scale) : ScalesToIndices n scale where
  within _ hunit := Double.floor_mul_ofInt hunit hn hscale
  monotone _ _ _ _ hle := by
    have hnonneg : (0 : ℚ) ≤ (n * Double.unitsPerOne : ℤ) := by
      exact_mod_cast Int.mul_nonneg hn.le (Int.natCast_nonneg _)
    exact Double.floor_mul_mono (Double.extent_ofInt hscale) (Double.rounded_nonneg hnonneg) hle

/-- A draw falls into a part of an integer unless the integer is too large to be rounded. -/
theorem partOf_int_or {drawn : Double} {n : Int} (hunit : drawn.InUnit) (hn : 0 < n) :
    (∃ index : Nat, partOf drawn (.int n) = .ok index ∧ index < n) ∨
      Double.ofInt? n = none ∧ partOf drawn (.int n) = .error .tooLarge := by
  cases hscale : Double.ofInt? n with
  | none =>
      refine .inr ⟨rfl, ?_⟩
      simp [partOf, Number.scale, Number.toDouble, hscale, Except.map, bind, Except.bind]
  | some scale =>
      obtain ⟨index, hfloor, hlow, hhigh⟩ := Double.floor_mul_ofInt hunit hn hscale
      obtain ⟨index, rfl⟩ := Int.eq_ofNat_of_zero_le hlow
      refine .inl ⟨index, partOf_eq_ok.mpr ⟨scale, ?_, hfloor⟩, hhigh⟩
      simp [Number.toDouble, hscale]

/-! ## Choices -/

variable {draws : Draws} {position : Nat}

/-- An element is chosen at an index of its list, if the length can be rounded. -/
theorem pick_apply {α : Type} {elements : List α} (hunit : (draws position).InUnit)
    (hne : elements ≠ []) :
    (∃ index : Fin elements.length,
      partOf (draws position) (.int elements.length) = .ok (index : Nat) ∧
        pick elements draws position = .value (elements.get index) (position + 1)) ∨
      Double.ofInt? elements.length = none ∧
        pick elements draws position = .failure (.fault .tooLarge) (position + 1) := by
  have hpos : (0 : Int) < elements.length := by exact_mod_cast List.length_pos_iff.mpr hne
  have hpick : pick elements draws position =
      evaluate (partOf (draws position) (.int elements.length) >>= elementAt elements) draws
        (position + 1) := rfl
  obtain ⟨index, hpart, hindex⟩ | ⟨hnone, hpart⟩ := partOf_int_or hunit hpos
  · rw [Nat.cast_lt] at hindex
    refine .inl ⟨⟨index, hindex⟩, hpart, ?_⟩
    have helement : elementAt elements (index : Nat) = .ok (elements.get ⟨index, hindex⟩) := by
      unfold elementAt
      dsimp only
      rw [if_neg (by omega), if_neg (by omega), Int.toNat_natCast,
        List.getElem?_eq_getElem hindex]
      rfl
    rw [hpick]
    exact evaluate_eq_value.mpr ⟨bind_eq_ok.mpr ⟨index, hpart, helement⟩, rfl⟩
  · refine .inr ⟨hnone, ?_⟩
    rw [hpick, hpart]
    rfl

/-- Results of one draw each are the results at the draws in order. -/
theorem repeatOnto_of_each {α ι : Type} {run : Run α} {result : ι → α} {chosen : Double → ι → Prop}
    (hrun : ∀ place, ∃ choice, chosen (draws place) choice ∧
      run draws place = .value (result choice) (place + 1)) (count : Nat) (made : List α) :
    ∃ choices : List ι, choices.length = count ∧
      repeatOnto run count made draws position =
        .value (made.reverse ++ choices.map result) (position + count) ∧
      ∀ place (hplace : place < choices.length),
        chosen (draws (position + place)) choices[place] := by
  induction count generalizing made position with
  | zero => exact ⟨[], rfl, by simp [repeatOnto], by simp⟩
  | succ count ih =>
      obtain ⟨choice, hchosen, hfirst⟩ := @hrun position
      obtain ⟨choices, hlength, hrest, hall⟩ := @ih (position + 1) (result choice :: made)
      refine ⟨choice :: choices, by simp [hlength], ?_, ?_⟩
      · rw [repeatOnto, bind_apply, hfirst]
        simpa [Nat.add_assoc, Nat.add_comm 1 count] using hrest
      · intro place hplace
        cases place with
        | zero => exact hchosen
        | succ place =>
            have hchosen := hall place (Nat.lt_of_succ_lt_succ hplace)
            rwa [Nat.add_assoc, Nat.add_comm 1 place] at hchosen

/-- The characters of a text are those of the alphabet at the indices of its draws. -/
theorem word_apply {length : Json} {count : Int} (hunit : draws.InUnit)
    (hlength : length.asInt = .ok count) :
    ∃ indices : List (Fin alphabet.length), indices.length = count.toNat ∧
      word length draws position =
        .value (String.ofList (indices.map alphabet.get)) (position + count.toNat) ∧
      ∀ place (hplace : place < indices.length),
        partOf (draws (position + place)) (.int alphabet.length) = .ok (indices[place] : Nat) := by
  have hletter : ∀ place, ∃ index : Fin alphabet.length,
      partOf (draws place) (.int alphabet.length) = .ok (index : Nat) ∧
        pick alphabet draws place = .value (alphabet.get index) (place + 1) := by
    intro place
    refine (pick_apply (hunit place) (List.ne_nil_of_length_pos ?_)).resolve_right ?_
    · rw [length_alphabet]
      decide
    · rintro ⟨hnone, -⟩
      rw [length_alphabet] at hnone
      exact absurd hnone (by decide +kernel)
  obtain ⟨indices, hcount, htimes, hindices⟩ := @repeatOnto_of_each draws position _ _
    (pick alphabet) alphabet.get
    (fun drawn index => partOf drawn (.int alphabet.length) = .ok (index : Nat)) hletter
    count.toNat []
  refine ⟨indices, hcount, ?_, hindices⟩
  rw [word, hlength]
  exact bind_eq_value.mpr ⟨count, position, rfl, bind_eq_value.mpr ⟨_, _, htimes, rfl⟩⟩

/-- A step between integers in order is an integer between them, if their distance and one can be
rounded. -/
theorem spread_apply {lower upper : Json} {low high : Int} (hunit : (draws position).InUnit)
    (hlower : lower.asInt = .ok low) (hupper : upper.asInt = .ok high) (hle : low ≤ high) :
    (∃ n, low ≤ n ∧ n ≤ high ∧
      spread lower upper draws position = .value (.int n) (position + 1)) ∨
      Double.ofInt? (high - low + 1) = none ∧
        spread lower upper draws position = .failure (.fault .tooLarge) (position + 1) := by
  have hspread : spread lower upper draws position =
      evaluate (partOf (draws position) (.int (high - low + 1)) >>= fun part =>
        Number.add (.int part) (.int low)) draws (position + 1) := by
    unfold spread
    rw [asNumber_of_asInt hlower, asNumber_of_asInt hupper]
    rfl
  obtain ⟨index, hpart, hindex⟩ | ⟨hnone, hpart⟩ :=
    @partOf_int_or _ (high - low + 1) hunit (by omega)
  · refine .inl ⟨index + low, by omega, by omega, ?_⟩
    rw [hspread, hpart]
    rfl
  · refine .inr ⟨hnone, ?_⟩
    rw [hspread, hpart]
    rfl

/-! ## Every choice is in range -/

/-- Whatever is chosen from a place in a supply on lies where it may be chosen from. A choice fails
only where a count is too large to be rounded. -/
structure ChoosesInRange (draws : Draws) (position : Nat) : Prop where
  element : ∀ {α : Type} (elements : List α), elements ≠ [] →
    (∃ index : Fin elements.length,
      partOf (draws position) (.int elements.length) = .ok (index : Nat) ∧
        pick elements draws position = .value (elements.get index) (position + 1)) ∨
      Double.ofInt? elements.length = none ∧
        pick elements draws position = .failure (.fault .tooLarge) (position + 1)
  text : ∀ (length : Json) (count : Int), length.asInt = .ok count →
    ∃ indices : List (Fin alphabet.length), indices.length = count.toNat ∧
      word length draws position =
        .value (String.ofList (indices.map alphabet.get)) (position + count.toNat) ∧
      ∀ place (hplace : place < indices.length),
        partOf (draws (position + place)) (.int alphabet.length) = .ok (indices[place] : Nat)
  integer : ∀ (config : Config) (child : Json → Run Json) (minimum maximum : Json) (low high : Int),
    (minimum.orElse config.defaultMinimum).asInt = .ok low →
    (maximum.orElse config.defaultMaximum).asInt = .ok high → low ≤ high →
    (∃ n, low ≤ n ∧ n ≤ high ∧ expand config child (.integer minimum maximum) draws position =
      .value (.number (.int n)) (position + 1)) ∨
      Double.ofInt? (high - low + 1) = none ∧
        expand config child (.integer minimum maximum) draws position =
          .failure (.fault .tooLarge) (position + 1)
  array : ∀ (config : Config) (child : Json → Run Json) (items minItems maxItems : Json)
    (low high : Int), items ≠ .null →
    (minItems.orElse config.defaultMinItems).asInt = .ok low →
    (maxItems.orElse config.defaultMaxItems).asInt = .ok high → low ≤ high →
    (∃ length, low ≤ length ∧ length ≤ high ∧
      expand config child (.array items minItems maxItems) draws position =
        (.arr <$> (child items).times length.toNat) draws (position + 1) ∧
      ∀ value final, expand config child (.array items minItems maxItems) draws position =
        .value value final → ∃ values, value = .arr values ∧ values.length = length.toNat) ∨
      Double.ofInt? (high - low + 1) = none ∧
        expand config child (.array items minItems maxItems) draws position =
          .failure (.fault .tooLarge) (position + 1)

theorem times_length {α : Type} {run : Run α} {count final : Nat} {results : List α}
    (hrun : run.times count draws position = .value results final) : results.length = count := by
  have hany : run.Ensures (fun _ => True) (fun _ => True) fun _ => True := ensures_true run
  have hend := hany.times count draws position fun _ => trivial
  rw [hrun] at hend
  exact hend.1

theorem choosesInRange (hunit : draws.InUnit) (position : Nat) : ChoosesInRange draws position where
  element _ hne := pick_apply (hunit position) hne
  text _ _ hlength := word_apply hunit hlength
  integer config child minimum maximum low high hlower hupper hle := by
    obtain ⟨n, hlow, hhigh, hspread⟩ | ⟨hnone, hspread⟩ :=
      spread_apply (hunit position) hlower hupper hle
    · exact .inl ⟨n, hlow, hhigh, map_eq_value.mpr ⟨_, hspread, rfl⟩⟩
    · refine .inr ⟨hnone, ?_⟩
      rw [expand, map_apply, hspread]
  array config child items minItems maxItems low high hitems hlower hupper hle := by
    rw [expand_array config child hitems]
    obtain ⟨length, hlow, hhigh, hspread⟩ | ⟨hnone, hspread⟩ :=
      spread_apply (hunit position) hlower hupper hle
    · refine .inl ⟨length, hlow, hhigh, ?_⟩
      have hrun := bind_apply (spread (minItems.orElse config.defaultMinItems)
        (maxItems.orElse config.defaultMaxItems)) (fun count => do
          let length ← evaluate (Json.number count).asInt
          Json.arr <$> (child items).times length.toNat) draws position
      rw [hspread] at hrun
      refine ⟨hrun, fun value final hvalue => ?_⟩
      obtain ⟨values, htimes, rfl⟩ := map_eq_value.mp (hrun.symm.trans hvalue)
      exact ⟨values, rfl, times_length htimes⟩
    · refine .inr ⟨hnone, ?_⟩
      rw [bind_apply, hspread]

/-- Scaled draws are indices: below any integer that can be rounded, in order of the draws, and none
left out up to `2 ^ 52`. Hence whatever is chosen by draws lies in its range. -/
theorem draws_index {draws : Draws} (hunit : draws.InUnit) :
    (∀ (n : Int) (scale : Double), 0 < n → Double.ofInt? n = some scale →
      ScalesToIndices n scale) ∧
    (∀ index count : Nat, index < count → count ≤ 2 ^ 52 →
      ∃ drawn scale : Double, drawn.InUnit ∧ Double.ofInt? count = some scale ∧
        (drawn * scale).floor = .ok index) ∧
    ∀ position, ChoosesInRange draws position := by
  refine ⟨fun _ _ => scalesToIndices, fun index count hindex hcount => ?_,
    choosesInRange hunit⟩
  exact Double.exists_floor_mul_eq hindex (by rwa [← Double.two_pow_52] at *)

namespace Sample

/-- The greatest number of the unit interval. -/
def lastBelowOne : Double := .finite false ⟨1023 * significandSpan - 1, by decide⟩

theorem lastBelowOne_inUnit : lastBelowOne.InUnit :=
  ⟨Double.unitsOfRank (1023 * significandSpan - 1), rfl, by decide +kernel, by decide +kernel⟩

end Sample

/-- The greatest draw and `2 ^ 53 + 3`, which is rounded up by one: the index stays below it. -/
theorem draws_index_sample : ∃ scale index,
    Double.ofInt? 9007199254740995 = some scale ∧
      (Sample.lastBelowOne * scale).floor = .ok index ∧ index < 9007199254740995 := by
  obtain ⟨scale, hscale⟩ : ∃ scale, Double.ofInt? 9007199254740995 = some scale :=
    Option.ne_none_iff_exists'.mp (by decide +kernel)
  have hindices := (draws_index (Draws.inUnit_constant Sample.lastBelowOne_inUnit)).1 _ scale
    (by decide) hscale
  obtain ⟨index, hindex, -, hlt⟩ := hindices.within _ Sample.lastBelowOne_inUnit
  exact ⟨scale, index, hscale, hindex, hlt⟩

end Exemplar
