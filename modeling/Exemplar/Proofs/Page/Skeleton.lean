import Exemplar.Proofs.CommandLine.PageOutput
import Exemplar.Proofs.Json.Rendering
import Exemplar.Proofs.Page.Escaping

/-!
# The markup of a page

A page is one of four skeletons with four texts in its slots, two of which may be
missing together with the block around them. Every slot ends at a bracket, which no
escaped text holds, and each block starts unlike what may stand in its place, so that
the page can be taken apart again: its texts are determined by it.
-/

namespace Exemplar

namespace Page

/-! ## Skeletons -/

/-- The texts that a page is made for. -/
inductive Slot where
  | title
  | schemaText
  | value
  | error
deriving DecidableEq, Repr

/-- A skeleton consists of fixed markup and slots. -/
inductive Part where
  | fixed (markup : String)
  | slot (slot : Slot)
deriving DecidableEq, Repr

def schemaParts : List Part :=
  [.fixed "        <h2>Schema:</h2>
        <pre class=\"schema\">",
   .slot .schemaText,
   .fixed "</pre>
"]

def valueParts : List Part :=
  [.fixed "        <div>
            <h2>Result:</h2>
            <code>
                <pre class=\"result\">",
   .slot .value,
   .fixed "</pre>
            </code>
        </div>
"]

def errorParts : List Part :=
  [.fixed "        <div class=\"error\" role=\"alert\">
            <h3>An error occured:</h3>
            <p>",
   .slot .error,
   .fixed "</p>
        </div>
"]

/-- The markup of a page, which is fixed but for the two optional blocks. -/
def skeleton (showsSchema showsError : Bool) : List Part :=
  [.fixed opening, .slot .title, .fixed styles]
    ++ (if showsSchema then schemaParts else [])
    ++ valueParts
    ++ (if showsError then errorParts else [])
    ++ [.fixed closing]

/-- A skeleton with a text in each of its slots. -/
def fill (texts : Slot → String) : List Part → String
  | [] => ""
  | .fixed markup :: rest => markup ++ fill texts rest
  | .slot slot :: rest => texts slot ++ fill texts rest

/-- What a page shows, given how its value is written. -/
def texts (page : Page) (valueText : String) : Slot → String
  | .title => page.title
  | .schemaText => page.schemaText
  | .value => valueText
  | .error => page.error

theorem fill_append (texts : Slot → String) (first second : List Part) :
    fill texts (first ++ second) = fill texts first ++ fill texts second := by
  induction first with
  | nil => exact String.empty_append.symm
  | cons part rest ih =>
      cases part <;> rw [List.cons_append, fill, fill, ih, String.append_assoc]

/-- An optional block is there just if its text is not empty. -/
theorem optionalBlock_eq_fill {block : String → String} {texts : Slot → String} {parts : List Part}
    {text : String} (hblock : fill texts parts = block (escape text)) :
    optionalBlock block text = fill texts (if text != "" then parts else []) := by
  unfold optionalBlock
  by_cases hempty : text = ""
  · rw [if_pos hempty, hempty]
    rfl
  · rw [if_neg hempty, if_pos (bne_iff_ne.mpr hempty), hblock]

theorem fill_block (texts : Slot → String) (before after : String) (slot : Slot) :
    fill texts [.fixed before, .slot slot, .fixed after] = before ++ texts slot ++ after := by
  rw [fill, fill, fill, fill, String.append_empty, String.append_assoc]

/-- A page is the skeleton that its optional texts choose, with its texts in the slots. -/
theorem document_eq_fill (page : Page) (valueText : String) :
    page.document valueText =
      fill (fun slot => escape (page.texts valueText slot))
        (skeleton (page.schemaText != "") (page.error != "")) := by
  have htitle := fill_block (fun slot => escape (page.texts valueText slot)) opening styles .title
  have hschema : fill (fun slot => escape (page.texts valueText slot)) schemaParts =
      schemaBlock (escape page.schemaText) := fill_block _ _ _ _
  have hvalue : fill (fun slot => escape (page.texts valueText slot)) valueParts =
      valueBlock (escape valueText) := fill_block _ _ _ _
  have herror : fill (fun slot => escape (page.texts valueText slot)) errorParts =
      errorBlock (escape page.error) := fill_block _ _ _ _
  have hclosing :
      fill (fun slot => escape (page.texts valueText slot)) [.fixed closing] = closing :=
    String.append_empty
  rw [document, optionalBlock_eq_fill hschema, optionalBlock_eq_fill herror, skeleton, fill_append,
    fill_append, fill_append, fill_append, htitle, hvalue, hclosing]
  rfl

/-! ## Taking a page apart -/

theorem takeWhile_ne_bracket {text : List Char} (htext : '<' ∉ text) (rest : List Char) :
    (text ++ '<' :: rest).takeWhile (· != '<') = text := by
  have hne : ∀ c ∈ text, (c != '<') = true := fun c hc =>
    bne_iff_ne.mpr fun heq => htext (heq ▸ hc)
  rw [List.takeWhile_append_of_pos hne, List.takeWhile_cons_of_neg (by decide), List.append_nil]

/-- A text without brackets ends where the first bracket stands. -/
theorem cut_at_bracket {first second rest others : List Char} (hfirst : '<' ∉ first)
    (hsecond : '<' ∉ second) (heq : first ++ '<' :: rest = second ++ '<' :: others) :
    first = second ∧ rest = others := by
  have hsame : first = second := by
    rw [← takeWhile_ne_bracket hfirst rest, heq, takeWhile_ne_bracket hsecond]
  exact ⟨hsame, List.tail_eq_of_cons_eq (List.append_cancel_left (hsame ▸ heq))⟩

/-- The text of a block can be told, and so can what follows the block. -/
theorem Encloses.texts_eq {block : String → String} (hblock : Encloses block)
    {first second : String} {rest others : List Char}
    (heq : (block (escape first)).toList ++ rest = (block (escape second)).toList ++ others) :
    first = second ∧ rest = others := by
  obtain ⟨before, after, -, -, hchars⟩ := hblock
  simp only [hchars, List.append_assoc, List.cons_append, List.append_cancel_left_eq] at heq
  have hbracket : ∀ text : String, '<' ∉ (escape text).toList := fun text =>
    (inert_escape text).not_mem _ (by decide)
  obtain ⟨htext, hrest⟩ := cut_at_bracket (hbracket first) (hbracket second) heq
  exact ⟨escape_injective (String.toList_inj.mp htext), List.append_cancel_left hrest⟩

/-- So can they of an optional block, as what follows never starts like the block. -/
theorem Encloses.optional_texts_eq {block : String → String} (hblock : Encloses block)
    {mark rest others : List Char} (hmark : ∀ shown, mark <+: (block shown).toList)
    (hrest : ¬ mark <+: rest) (hothers : ¬ mark <+: others) {first second : String}
    (heq : (optionalBlock block first).toList ++ rest =
      (optionalBlock block second).toList ++ others) :
    first = second ∧ rest = others := by
  unfold optionalBlock at heq
  split at heq
  next hfirst =>
    split at heq
    next hsecond => exact ⟨hfirst.trans hsecond.symm, heq⟩
    next =>
      rw [String.toList_empty, List.nil_append] at heq
      exact absurd (heq ▸ (hmark _).trans (List.prefix_append _ _)) hrest
  next =>
    split at heq
    next =>
      rw [String.toList_empty, List.nil_append] at heq
      exact absurd (heq ▸ (hmark _).trans (List.prefix_append _ _)) hothers
    next => exact hblock.texts_eq heq

/-- Two texts do not start with different marks of one length. -/
theorem starts_otherwise {mark mark' text : List Char} (hlength : mark.length = mark'.length)
    (hne : mark ≠ mark') (hmark' : mark' <+: text) : ¬ mark <+: text := fun hmark =>
  hne ((List.prefix_of_prefix_length_le hmark hmark' hlength.le).eq_of_length hlength)

/-- How the schema starts, where the value might start at once. -/
def headingMark : List Char := "        <h".toList

/-- How the value and the error start. -/
def divisionMark : List Char := "        <d".toList

theorem starts_of_head {mark : List Char} {before after : String}
    (hbefore : mark <+: before.toList) (shown : String) :
    mark <+: (before ++ shown ++ after).toList := by
  rw [String.toList_append, String.toList_append, List.append_assoc]
  exact hbefore.trans (List.prefix_append _ _)

theorem schemaBlock_starts (shown : String) : headingMark <+: (schemaBlock shown).toList :=
  starts_of_head (by decide +kernel) shown

theorem valueBlock_starts (shown : String) :
    divisionMark <+: (valueBlock shown).toList :=
  starts_of_head (by decide +kernel) shown

theorem errorBlock_starts (shown : String) :
    divisionMark <+: (errorBlock shown).toList :=
  starts_of_head (by decide +kernel) shown

/-- The value does not start like the schema. -/
theorem value_starts_otherwise (shown : String) (rest : List Char) :
    ¬ headingMark <+: (valueBlock shown).toList ++ rest :=
  starts_otherwise (by decide +kernel) (by decide +kernel)
    ((valueBlock_starts shown).trans (List.prefix_append _ _))

/-- The end of the page does not start like the error. -/
theorem closing_starts_otherwise : ¬ divisionMark <+: closing.toList := by
  decide +kernel

/-- A page determines what it shows: its texts are read off one after another. -/
theorem texts_eq_of_document {page other : Page} {shown shown' : String}
    (heq : page.document shown = other.document shown') :
    page.texts shown = other.texts shown' := by
  have hchars := congrArg String.toList heq
  have htitle := @Encloses.texts_eq _ titleBlock_encloses page.title other.title
  simp only [document, String.toList_append, List.append_assoc] at hchars htitle
  obtain ⟨htitle, hchars⟩ := htitle hchars
  obtain ⟨hschema, hchars⟩ := schemaBlock_encloses.optional_texts_eq schemaBlock_starts
    (value_starts_otherwise _ _) (value_starts_otherwise _ _) hchars
  obtain ⟨hvalue, hchars⟩ := valueBlock_encloses.texts_eq hchars
  obtain ⟨herror, -⟩ := errorBlock_encloses.optional_texts_eq errorBlock_starts
    closing_starts_otherwise closing_starts_otherwise hchars
  funext slot
  cases slot with
  | title => exact htitle
  | schemaText => exact hschema
  | value => exact hvalue
  | error => exact herror

/-- No text alters the markup of a page, and none is lost on it. A page is rendered whenever its
value can be written, as one of the four skeletons with the escaped texts in its slots; what stands
there is no markup and stands for the text itself; and pages are the same only if they show the
same, where no schema or error shows as an empty one. -/
theorem render_determines_texts (page : Page) :
    (∀ text, page.render = .ok text ↔
      ∃ shown, page.value.render page.indent = .ok shown ∧
        text = fill (fun slot => escape (page.texts shown slot))
          (skeleton (page.schemaText != "") (page.error != ""))) ∧
    (page.value.writable = true → page.value.TakesIndent none page.indent →
      ∃ text, page.render = .ok text) ∧
    (∀ shown slot,
      Inert (escape (page.texts shown slot)).toList ∧
        unescape (escape (page.texts shown slot)).toList = (page.texts shown slot).toList) ∧
    ∀ (other : Page) (text : String), page.render = .ok text → other.render = .ok text →
      ∃ shown, page.value.render page.indent = .ok shown ∧
        other.value.render other.indent = .ok shown ∧ page.texts shown = other.texts shown := by
  refine ⟨fun text => ?_, fun hwritable htakes => ?_,
    fun shown slot => ⟨inert_escape _, unescape_escape _⟩, fun other text hpage hother => ?_⟩
  · simp only [render, map_eq_ok, ← document_eq_fill, eq_comm (a := text)]
  · obtain ⟨shown, hshown⟩ := Json.exists_render hwritable htakes
    exact ⟨_, map_eq_ok.mpr ⟨shown, hshown, rfl⟩⟩
  · obtain ⟨shown, hshown, rfl⟩ := map_eq_ok.mp hpage
    obtain ⟨shown', hshown', hsame⟩ := map_eq_ok.mp hother
    have htexts := texts_eq_of_document hsame.symm
    obtain rfl : shown = shown' := congrFun htexts .value
    exact ⟨shown, hshown, hshown', htexts⟩

end Page

end Exemplar
