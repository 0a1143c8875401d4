import Exemplar.Proofs.CommandLine.Output
import Exemplar.Proofs.Page.Escaping

/-!
# Pages as output

A page holds the schema's text as it was given, and with it the control sequences
in that text, which output does not show. Escaping neither makes nor breaks a
sequence, and none reaches from one text on a page into the next, so that a page is
shown in full just if no text on it holds a sequence.
-/

namespace Exemplar

namespace Page

open Text (Bare holdsSequence)

/-! ## Escaped texts -/

/-- A character that belongs to no control sequence. -/
def Foreign (c : Char) : Prop :=
  c ≠ Text.escape ∧ c ≠ '[' ∧ Text.isParameter c = false ∧ c.isAlpha = false

instance (c : Char) : Decidable (Foreign c) := inferInstanceAs (Decidable (_ ∧ _ ∧ _ ∧ _))

theorem reachesLetter_foreign {c : Char} (hc : Foreign c) (rest : List Char) :
    Text.reachesLetter (c :: rest) = false := by
  rw [Text.reachesLetter, hc.2.2.1, if_neg Bool.false_ne_true, hc.2.2.2]

theorem reachesLetter_append_foreign {c : Char} (hc : Foreign c) (text rest : List Char) :
    Text.reachesLetter (text ++ c :: rest) = Text.reachesLetter text := by
  induction text with
  | nil => exact reachesLetter_foreign hc rest
  | cons first text ih => rw [List.cons_append, Text.reachesLetter, Text.reachesLetter, ih]

/-- A sequence does not reach beyond a foreign character. -/
theorem holdsSequence_append_foreign {c : Char} (hc : Foreign c) (text rest : List Char) :
    holdsSequence (text ++ c :: rest) = (holdsSequence text || holdsSequence rest) := by
  induction text with
  | nil => exact Text.holdsSequence_cons hc.1 rest
  | cons first text ih =>
      have hstarts : Text.startsSequence (first :: (text ++ c :: rest)) =
          Text.startsSequence (first :: text) := by
        cases text with
        | nil => simp [Text.startsSequence, hc.2.1]
        | cons second text =>
            rw [List.cons_append, Text.startsSequence, Text.startsSequence,
              reachesLetter_append_foreign hc]
      rw [List.cons_append, Text.holdsSequence, Text.holdsSequence, hstarts, ih, Bool.or_assoc]

theorem foreign_of_mem_entities : ∀ entry ∈ entities, Foreign entry.1 ∧ Bare entry.2 := by
  decide

/-- A character stands for itself, or it is foreign to sequences and a name stands for it. -/
theorem escapeChar_cases (c : Char) :
    escapeChar c = [c] ∨ Foreign c ∧ ∃ name, Bare name ∧ escapeChar c = '&' :: name := by
  rcases escapeChar_eq c with ⟨name, hentry, hchar⟩ | ⟨-, hchar⟩
  · obtain ⟨hforeign, hbare⟩ := foreign_of_mem_entities _ hentry
    exact Or.inr ⟨hforeign, name, hbare, hchar⟩
  · exact Or.inl hchar

theorem reachesLetter_escaped (text : List Char) :
    Text.reachesLetter (text.flatMap escapeChar) = Text.reachesLetter text := by
  induction text with
  | nil => rfl
  | cons c rest ih =>
      rw [List.flatMap_cons]
      rcases escapeChar_cases c with hsame | ⟨hforeign, name, -, hname⟩
      · rw [hsame, List.singleton_append, Text.reachesLetter, Text.reachesLetter, ih]
      · rw [hname, List.cons_append, reachesLetter_foreign hforeign,
          reachesLetter_foreign (by decide)]

theorem startsSequence_escaped (c : Char) (text : List Char) :
    Text.startsSequence (c :: text.flatMap escapeChar) = Text.startsSequence (c :: text) := by
  cases text with
  | nil => rfl
  | cons second rest =>
      rw [List.flatMap_cons]
      rcases escapeChar_cases second with hsame | ⟨hforeign, name, -, hname⟩
      · rw [hsame, List.singleton_append, Text.startsSequence, Text.startsSequence,
          reachesLetter_escaped]
      · rw [hname, List.cons_append, Text.startsSequence, Text.startsSequence,
          beq_eq_false_iff_ne.mpr hforeign.2.1]
        simp

/-- Escaping neither makes nor breaks a sequence. -/
theorem holdsSequence_escaped (text : List Char) :
    holdsSequence (text.flatMap escapeChar) = holdsSequence text := by
  induction text with
  | nil => rfl
  | cons c rest ih =>
      rw [List.flatMap_cons]
      rcases escapeChar_cases c with hsame | ⟨hforeign, name, hbare, hname⟩
      · rw [hsame, List.singleton_append, Text.holdsSequence, Text.holdsSequence,
          startsSequence_escaped, ih]
      · rw [hname, List.cons_append, Text.holdsSequence_cons (by decide),
          Text.holdsSequence_bare_append hbare, Text.holdsSequence_cons hforeign.1, ih]

theorem holdsSequence_escape (text : String) :
    holdsSequence (escape text).toList = holdsSequence text.toList := by
  rw [escape, String.toList_ofList, holdsSequence_escaped]

/-! ## Blocks -/

/-- A block puts a text between bare ones, of which the second starts with a bracket. -/
def Encloses (block : String → String) : Prop :=
  ∃ before after : List Char, Bare before ∧ Bare after ∧
    ∀ shown, (block shown).toList = before ++ shown.toList ++ '<' :: after

theorem Encloses.holdsSequence_append {block : String → String} (hblock : Encloses block)
    (shown : String) (rest : List Char) :
    holdsSequence ((block shown).toList ++ rest) =
      (holdsSequence shown.toList || holdsSequence rest) := by
  obtain ⟨before, after, hbefore, hafter, htext⟩ := hblock
  rw [htext, List.append_assoc, List.append_assoc, Text.holdsSequence_bare_append hbefore,
    List.cons_append, holdsSequence_append_foreign (by decide),
    Text.holdsSequence_bare_append hafter]

theorem Encloses.holdsSequence_optional {block : String → String} (hblock : Encloses block)
    (text : String) (rest : List Char) :
    holdsSequence ((optionalBlock block text).toList ++ rest) =
      (holdsSequence text.toList || holdsSequence rest) := by
  unfold optionalBlock
  split
  next hempty =>
    rw [hempty]
    rfl
  next => rw [hblock.holdsSequence_append, holdsSequence_escape]

/-- The texts of a block are given by their characters, as reading these off a long text is slow. -/
theorem encloses_of_chars {before after : String} {first rest : List Char}
    (hbefore : before = String.ofList first) (hfirst : Bare first)
    (hafter : after = String.ofList ('<' :: rest)) (hrest : Bare rest) :
    Encloses fun shown => before ++ shown ++ after := by
  refine ⟨first, rest, hfirst, hrest, fun shown => ?_⟩
  rw [String.toList_append, String.toList_append, hbefore, hafter, String.toList_ofList,
    String.toList_ofList]

set_option maxRecDepth 4000 in
theorem titleBlock_encloses : Encloses fun shown => opening ++ shown ++ styles :=
  encloses_of_chars rfl (by decide +kernel) rfl (by decide +kernel)

theorem schemaBlock_encloses : Encloses schemaBlock :=
  encloses_of_chars rfl (by decide +kernel) rfl (by decide +kernel)

theorem valueBlock_encloses : Encloses valueBlock :=
  encloses_of_chars rfl (by decide +kernel) rfl (by decide +kernel)

theorem errorBlock_encloses : Encloses errorBlock :=
  encloses_of_chars rfl (by decide +kernel) rfl (by decide +kernel)

/-- A page holds a sequence just if a text on it does. -/
theorem holdsSequence_document (page : Page) (valueText : String) :
    holdsSequence (page.document valueText).toList =
      (holdsSequence page.title.toList || holdsSequence page.schemaText.toList ||
        holdsSequence valueText.toList || holdsSequence page.error.toList) := by
  have hclosing : holdsSequence closing.toList = false :=
    Text.holdsSequence_of_bare (by decide +kernel)
  have htitle := titleBlock_encloses.holdsSequence_append (escape page.title)
  simp only [document, String.toList_append, List.append_assoc] at htitle ⊢
  rw [htitle, schemaBlock_encloses.holdsSequence_optional, valueBlock_encloses.holdsSequence_append,
    errorBlock_encloses.holdsSequence_optional, hclosing, holdsSequence_escape,
    holdsSequence_escape, Bool.or_false, Bool.or_assoc, Bool.or_assoc]

end Page

/-- A page with blanks for indentation is shown in full just if neither the schema's text nor the
error on it holds a control sequence. -/
theorem Page.stripSequences_render {page : Page} {text : String}
    (hindent : ∀ unit, page.indent ≠ .str unit) (htitle : page.title = "Object based on schema")
    (hrender : page.render = .ok text) :
    Text.stripSequences text = text ↔
      Text.holdsSequence page.schemaText.toList = false ∧
        Text.holdsSequence page.error.toList = false := by
  obtain ⟨valueText, hvalue, rfl⟩ := map_eq_ok.mp hrender
  have hvalue := Text.holdsSequence_of_bare (Json.bare_render hindent hvalue)
  have htitle : Text.holdsSequence page.title.toList = false := by
    rw [htitle]
    decide +kernel
  rw [Text.stripSequences_eq_self_iff, holdsSequence_document, htitle, hvalue]
  simp

end Exemplar
