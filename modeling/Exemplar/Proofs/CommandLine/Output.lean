import Exemplar.Proofs.Json.RoundTrip
import Exemplar.Proofs.Text.Sequences

/-!
# Documents as output

Output loses its control sequences. A document has none: within a quoted text the
character that would start one is escaped, and no other part of a value is written
with it.
-/

namespace Exemplar

open Text (Bare)

theorem Text.bare_of_blanks {text : List Char} (htext : ∀ c ∈ text, Json.isBlank c = true) :
    Bare text :=
  fun hmem => absurd (htext _ hmem) (by decide)

/-! ## Numbers -/

theorem Text.bare_of_numerals {text : List Char}
    (htext : ∀ c ∈ text, Decimal.isNumeral c = true) : Bare text :=
  fun hmem => absurd (htext _ hmem) (by decide)

namespace Json

theorem bare_numberText (value : Number) : Bare (numberText value).toList := by
  cases value with
  | int value => exact Text.bare_of_numerals (isNumeral_of_mem_toString value)
  | float value =>
      cases value with
      | nan => exact (by decide : Text.escape ∉ "NaN".toList)
      | infinite negative =>
          rw [numberText, Double.text, String.toList_append, Text.bare_append]
          refine ⟨?_, (by decide : Text.escape ∉ "Infinity".toList)⟩
          split <;> simp [Text.escape]
      | finite negative rank =>
          rw [numberText, Double.text, String.toList_ofList]
          exact Text.bare_of_numerals (Decimal.isNumeral_of_mem_chars _)

/-! ## Values -/

theorem hexDigit_ne_escape : ∀ value < 16, Text.hexDigit value ≠ Text.escape := by
  decide

theorem bare_hexDigits (width value : Nat) : Bare (Text.hexDigits width value) := by
  induction width generalizing value with
  | zero => exact Text.bare_nil
  | succ width ih =>
      rw [Text.hexDigits, Text.bare_append, Text.bare_cons]
      exact ⟨ih _, hexDigit_ne_escape _ (Nat.mod_lt _ (by decide)), Text.bare_nil⟩

/-- Of the characters that stand for themselves none starts a control sequence. -/
theorem bare_escapeChar (c : Char) : Bare (escapeChar c) := by
  unfold escapeChar
  split
  next => simp [Text.escape]
  split
  next => simp [Text.escape]
  split
  next => simp [Text.escape]
  split
  next => simp [Text.escape]
  split
  next => simp [Text.escape]
  split
  next => simp [Text.escape]
  split
  next => simp [Text.escape]
  split
  next => simp [bare_hexDigits, Text.escape]
  next hprinted =>
    refine Text.bare_cons.mpr ⟨?_, Text.bare_nil⟩
    rintro rfl
    exact hprinted (by decide)

theorem bare_escaped (text : Str) : Bare (escaped text) := by
  have hflatMap (text : List Char) : Bare (text.flatMap escapeChar) := by
    intro hmem
    obtain ⟨c, -, hc⟩ := List.mem_flatMap.mp hmem
    exact bare_escapeChar c hc
  induction text with
  | plain text => exact hflatMap _
  | broken before half after ih =>
      rw [escaped, Text.bare_append, Text.bare_append]
      exact ⟨⟨hflatMap _, by simp [Half.shown, bare_hexDigits, Text.escape]⟩, ih⟩

@[simp]
theorem bare_quote (text : Str) : Bare (quote text).toList := by
  rw [quote, String.toList_ofList, Text.bare_append, Text.bare_cons]
  exact ⟨⟨by decide, bare_escaped text⟩, by simp [Text.escape]⟩

variable {layout : Layout}

theorem bare_bracketed (hlayout : IndentsByBlanks layout) (level : Nat) {opening closing : String}
    (hopening : Bare opening.toList) (hclosing : Bare closing.toList) {items : List String}
    (hitems : ∀ item ∈ items, Bare item.toList) :
    Bare (bracketed layout level opening closing items).toList := by
  obtain ⟨blanks, hseparator, hblanks⟩ := hlayout.separator (level + 1)
  have hbetween : Bare (layout.separator (level + 1)).toList := by
    rw [hseparator, Text.bare_cons]
    exact ⟨by decide, Text.bare_of_blanks hblanks⟩
  unfold bracketed
  split
  · simp [hopening, hclosing]
  · have hjoined := Text.bare_intercalate hbetween hitems
    simp only [String.toList_append, Text.bare_append]
    exact ⟨⟨⟨⟨hopening, Text.bare_of_blanks (hlayout _)⟩, hjoined⟩,
      Text.bare_of_blanks (hlayout _)⟩, hclosing⟩

mutual

theorem bare_print (hlayout : IndentsByBlanks layout) (level : Nat) : (value : Json) →
    Bare (print layout level value).toList
  | null => by
      rw [print]
      simp [Text.escape]
  | bool value => by
      rw [print]
      split <;> simp [Text.escape]
  | number value => by
      rw [print]
      exact bare_numberText value
  | str text => by
      rw [print]
      exact bare_quote text
  | arr items => by
      rw [print]
      exact bare_bracketed hlayout level (by simp [Text.escape]) (by simp [Text.escape])
        (bare_printItems hlayout (level + 1) items)
  | obj fields => by
      rw [print]
      exact bare_bracketed hlayout level (by simp [Text.escape]) (by simp [Text.escape])
        (bare_printFields hlayout (level + 1) fields)

theorem bare_printItems (hlayout : IndentsByBlanks layout) (level : Nat) : (items : List Json) →
    ∀ item ∈ printItems layout level items, Bare item.toList
  | [] => by simp [printItems]
  | value :: rest => by
      rw [printItems, List.forall_mem_cons]
      exact ⟨bare_print hlayout level value, bare_printItems hlayout level rest⟩

theorem bare_printFields (hlayout : IndentsByBlanks layout) (level : Nat) :
    (fields : List (Str × Json)) → ∀ item ∈ printFields layout level fields, Bare item.toList
  | [] => by simp [printFields]
  | (name, value) :: rest => by
      have hvalue := bare_print hlayout level value
      have hrest := bare_printFields hlayout level rest
      rw [printFields, List.forall_mem_cons]
      exact ⟨by simp [hvalue, Text.escape], hrest⟩

end

/-- The text of a value is bare, unless it is indented by a text. -/
theorem bare_render {value indent : Json} {widest : Option Nat} {text : String}
    (hindent : ∀ unit, indent ≠ .str unit) (hrender : value.render indent widest = .ok text) :
    Bare text.toList := by
  unfold render at hrender
  split at hrender
  next content =>
    cases hrender
    exact bare_quote content
  next =>
    obtain ⟨layout, hlayout, hrender⟩ := bind_eq_ok.mp hrender
    split at hrender
    next =>
      cases hrender
      exact bare_print (indentsByBlanks_ofIndent hindent hlayout) 0 _
    next => cases hrender

/-- A document is bare, so that it is shown as it is. -/
theorem stripSequences_document {value indent : Json} {widest : Option Nat} {text : String}
    (hindent : ∀ unit, indent ≠ .str unit) (hdocument : value.document indent widest = .ok text) :
    Text.stripSequences text = text := by
  apply Text.stripSequences_eq_self
  obtain ⟨rendered, hrender, rfl⟩ := map_eq_ok.mp hdocument
  rw [String.toList_append, Text.bare_append]
  exact ⟨bare_render hindent hrender, by simp [Text.escape]⟩

end Json

end Exemplar
