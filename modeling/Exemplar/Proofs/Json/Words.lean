import Exemplar.Proofs.Json.Parts
import Exemplar.Proofs.Json.RoundTrip

/-!
# Words in a document

Outside its quoted texts a document consists of punctuation, blanks, the words for null
and truth values, and numbers. The words of numbers without digits are no JSON, and they
stand there just if the value holds such a number; within quoted texts anything may stand.
-/

namespace Exemplar

namespace Json

/-! ## Outside of quoted texts -/

/-- Where a reader of characters stands. -/
inductive Standpoint where
  | outside
  | quoted
  /-- Behind a backslash, in a quoted text. -/
  | escaped

/-- The characters of a text that stand outside of its quoted texts, which leave their quotation
marks. -/
def unquoted : Standpoint → List Char → List Char
  | _, [] => []
  | .outside, c :: rest => c :: unquoted (if c = '"' then .quoted else .outside) rest
  | .quoted, c :: rest =>
      if c = '"' then c :: unquoted .outside rest
      else unquoted (if c = '\\' then .escaped else .quoted) rest
  | .escaped, _ :: rest => unquoted .quoted rest

theorem unquoted_append_of_not_mem {piece : List Char} (hpiece : '"' ∉ piece) (rest : List Char) :
    unquoted .outside (piece ++ rest) = piece ++ unquoted .outside rest := by
  induction piece with
  | nil => rfl
  | cons c piece ih =>
      rw [List.mem_cons, not_or] at hpiece
      rw [List.cons_append, unquoted, if_neg (Ne.symm hpiece.1), ih hpiece.2, List.cons_append]

theorem unquoted_plain {piece : List Char} (hpiece : ∀ c ∈ piece, c ≠ '"' ∧ c ≠ '\\')
    (rest : List Char) : unquoted .quoted (piece ++ rest) = unquoted .quoted rest := by
  induction piece with
  | nil => rfl
  | cons c piece ih =>
      rw [List.forall_mem_cons] at hpiece
      rw [List.cons_append, unquoted, if_neg hpiece.1.1, if_neg hpiece.1.2, ih hpiece.2]

theorem hexDigit_plain : ∀ value < 16, Text.hexDigit value ≠ '"' ∧ Text.hexDigit value ≠ '\\' := by
  decide

theorem hexDigits_plain (width value : Nat) :
    ∀ c ∈ Text.hexDigits width value, c ≠ '"' ∧ c ≠ '\\' := by
  induction width generalizing value with
  | zero => exact nofun
  | succ width ih =>
      rw [Text.hexDigits, List.forall_mem_append, List.forall_mem_singleton]
      exact ⟨ih _, hexDigit_plain _ (Nat.mod_lt _ (by decide))⟩

/-- A character within a quoted text does not end it, however it is escaped. -/
theorem unquoted_escapeChar (c : Char) (rest : List Char) :
    unquoted .quoted (escapeChar c ++ rest) = unquoted .quoted rest := by
  unfold escapeChar
  split
  next => rfl
  split
  next => rfl
  split
  next => rfl
  split
  next => rfl
  split
  next => rfl
  split
  next => rfl
  split
  next => rfl
  split
  next => exact unquoted_plain (hexDigits_plain 4 c.toNat) rest
  next hquote hslash _ _ _ _ _ _ => exact unquoted_plain (by simpa using ⟨hquote, hslash⟩) rest

theorem unquoted_escaped (text : Str) (rest : List Char) :
    unquoted .quoted (escaped text ++ rest) = unquoted .quoted rest := by
  have hflatMap (content rest : List Char) :
      unquoted .quoted (content.flatMap escapeChar ++ rest) = unquoted .quoted rest := by
    induction content with
    | nil => rfl
    | cons c content ih => rw [List.flatMap_cons, List.append_assoc, unquoted_escapeChar, ih]
  induction text with
  | plain text => exact hflatMap _ rest
  | broken before half after ih =>
      have hhalf : unquoted .quoted (half.shown ++ (escaped after ++ rest)) =
          unquoted .quoted (escaped after ++ rest) :=
        unquoted_plain (hexDigits_plain 4 half.code) _
      rw [escaped, List.append_assoc, List.append_assoc, hflatMap, hhalf, ih]

theorem unquoted_quote (text : Str) (rest : List Char) :
    unquoted .outside ((quote text).toList ++ rest) = '"' :: '"' :: unquoted .outside rest := by
  rw [toList_quote]
  exact congrArg _ (unquoted_escaped text _)

/-! ## Pieces of a document -/

/-- A piece of a text shows a word outside of its quoted texts, or not even the letter that the word
begins with. A quoted text is closed in the piece that it is opened in. -/
structure Shows (letter : Char) (word piece : List Char) (shown : Prop) : Prop where
  closed : ∀ rest, unquoted .outside (piece ++ rest) =
    unquoted .outside piece ++ unquoted .outside rest
  silent : ¬shown → letter ∉ unquoted .outside piece
  shows : shown → word <:+: unquoted .outside piece

theorem isNumeral_of_mem_numberText {value : Number} (hfinite : value.Finite) :
    ∀ c ∈ (numberText value).toList, Decimal.isNumeral c = true := by
  cases value with
  | int value => exact isNumeral_of_mem_toString value
  | float value =>
      obtain ⟨count, hcount⟩ := hfinite
      obtain ⟨negative, rank, rfl, -⟩ := Double.exists_finite_of_extent hcount
      rw [numberText, Double.text, String.toList_ofList]
      exact Decimal.isNumeral_of_mem_chars _

/-- The capital letters that words for numbers begin with. -/
def isInitial (c : Char) : Bool := c == 'N' || c == 'I'

/-- A character that is neither one of these letters nor a quotation mark. -/
def isOrdinary (c : Char) : Bool := c != '"' && !isInitial c

section Pieces

variable {letter : Char} {word piece piece' : List Char} {shown shown' : Prop}

namespace Shows

theorem congr (hpiece : Shows letter word piece shown) (hshown : shown ↔ shown') :
    Shows letter word piece shown' where
  closed := hpiece.closed
  silent hnot := hpiece.silent (mt hshown.mp hnot)
  shows hholds := hpiece.shows (hshown.mpr hholds)

theorem append (hpiece : Shows letter word piece shown)
    (hpiece' : Shows letter word piece' shown') :
    Shows letter word (piece ++ piece') (shown ∨ shown') where
  closed rest := by
    rw [List.append_assoc, hpiece.closed, hpiece'.closed, hpiece.closed, List.append_assoc]
  silent hnot := by
    rw [not_or] at hnot
    rw [hpiece.closed, List.mem_append, not_or]
    exact ⟨hpiece.silent hnot.1, hpiece'.silent hnot.2⟩
  shows heither := by
    rw [hpiece.closed]
    rcases heither with hfirst | hsecond
    · exact (hpiece.shows hfirst).trans (List.prefix_append _ _).isInfix
    · exact (hpiece'.shows hsecond).trans (List.suffix_append _ _).isInfix

/-- The word shows just if it is said to. -/
theorem infix_iff (hpiece : Shows letter word piece shown) (hmem : letter ∈ word) :
    word <:+: unquoted .outside piece ↔ shown := by
  refine ⟨fun hshown => ?_, hpiece.shows⟩
  by_contra hnot
  exact hpiece.silent hnot (hshown.subset hmem)

/-- A piece without quotation marks stands outside as a whole. -/
theorem of_not_mem (hpiece : '"' ∉ piece) (hsilent : ¬shown → letter ∉ piece)
    (hshows : shown → word <:+: piece) : Shows letter word piece shown := by
  have hwhole : unquoted .outside piece = piece := by
    simpa [unquoted] using unquoted_append_of_not_mem hpiece []
  refine ⟨fun rest => ?_, ?_, ?_⟩
  · rw [unquoted_append_of_not_mem hpiece, hwhole]
  · rwa [hwhole]
  · rwa [hwhole]

variable (hletter : isInitial letter = true)

include hletter

/-- A piece of other characters than quotation marks and these letters shows nothing. -/
theorem of_ordinary (hpiece : piece.all isOrdinary = true) : Shows letter word piece False := by
  rw [List.all_eq_true] at hpiece
  refine of_not_mem (fun hmem => ?_) (fun _ hmem => ?_) nofun
  · exact absurd (hpiece _ hmem) (by decide)
  · have hordinary := hpiece _ hmem
    rw [isOrdinary, hletter, Bool.not_true, Bool.and_false] at hordinary
    cases hordinary

theorem of_quote (text : Str) : Shows letter word (quote text).toList False := by
  have hquote := unquoted_quote text []
  rw [List.append_nil] at hquote
  refine ⟨fun rest => ?_, fun _ hmem => ?_, nofun⟩
  · rw [unquoted_quote, hquote]
    rfl
  · rw [hquote] at hmem
    simp only [unquoted, List.mem_cons, List.not_mem_nil, or_false, or_self] at hmem
    subst hmem
    exact absurd hletter (by decide)

theorem of_numerals (hpiece : ∀ c ∈ piece, Decimal.isNumeral c = true) :
    Shows letter word piece False := by
  refine of_ordinary hletter (List.all_eq_true.mpr fun c hc => ?_)
  have hother {other : Char} (hother : Decimal.isNumeral other = false) : c ≠ other := by
    rintro rfl
    exact absurd (hpiece _ hc) (Bool.eq_false_iff.mp hother)
  simp only [isOrdinary, isInitial, Bool.and_eq_true, bne_iff_ne, Bool.not_eq_true',
    Bool.or_eq_false_iff, beq_eq_false_iff_ne]
  exact ⟨hother (by decide), hother (by decide), hother (by decide)⟩

theorem of_finite {value : Number} (hfinite : value.Finite) (hnot : ¬shown) :
    Shows letter word (numberText value).toList shown :=
  (of_numerals hletter (isNumeral_of_mem_numberText hfinite)).congr (iff_of_false id hnot)

theorem of_blanks (hpiece : ∀ c ∈ piece, isBlank c = true) : Shows letter word piece False := by
  refine of_ordinary hletter (List.all_eq_true.mpr fun c hc => ?_)
  have hblank := hpiece c hc
  simp only [isBlank, Bool.or_eq_true, beq_iff_eq] at hblank
  rcases hblank with ((rfl | rfl) | rfl) | rfl <;> decide

theorem of_intercalate {α : Type} {shown : α → Prop} {separator : String}
    (hseparator : Shows letter word separator.toList False) {values : List α} {pieces : List String}
    (hpieces : List.Forall₂ (fun value piece => Shows letter word piece.toList (shown value)) values
      pieces) :
    Shows letter word (String.intercalate separator pieces).toList
      (∃ value ∈ values, shown value) := by
  induction hpieces with
  | nil => exact (of_ordinary hletter rfl).congr (by simp)
  | cons hpiece hrest ih =>
      cases hrest with
      | nil =>
          rw [String.intercalate_singleton]
          exact hpiece.congr (by simp)
      | cons hnext hlater =>
          rw [String.intercalate_cons_cons, String.toList_append, String.toList_append]
          refine ((hpiece.append hseparator).append ih).congr ?_
          rw [or_false]
          exact (List.exists_mem_cons_iff ..).symm

theorem of_bracketed {layout : Layout} (hlayout : IndentsByBlanks layout) (level : Nat)
    {opening closing : String} (hopening : Shows letter word opening.toList False)
    (hclosing : Shows letter word closing.toList False) {α : Type} {shown : α → Prop}
    {values : List α} {pieces : List String}
    (hpieces : List.Forall₂ (fun value piece => Shows letter word piece.toList (shown value)) values
      pieces) :
    Shows letter word (bracketed layout level opening closing pieces).toList
      (∃ value ∈ values, shown value) := by
  obtain ⟨blanks, hseparator, hblanks⟩ := hlayout.separator (level + 1)
  have hbetween : Shows letter word (layout.separator (level + 1)).toList False := by
    have hcomma : Shows letter word [','] False := of_ordinary hletter (by decide)
    rw [hseparator]
    exact (hcomma.append (of_blanks hletter hblanks)).congr (or_self_iff)
  unfold bracketed
  split
  next hempty =>
    rw [List.isEmpty_iff] at hempty
    subst hempty
    cases hpieces
    rw [String.toList_append]
    exact (hopening.append hclosing).congr (by simp)
  next =>
    have hindent (level : Nat) : Shows letter word (layout.lineBreak level).toList False :=
      of_blanks hletter (hlayout level)
    simp only [String.toList_append]
    refine ((((hopening.append (hindent _)).append (of_intercalate hletter hbetween hpieces)).append
      (hindent _)).append hclosing).congr ?_
    rw [or_false, or_false, false_or, false_or]

end Shows

end Pieces

/-! ## Values -/

/-- A value holds a number of a kind. -/
def Holds (kind : Number → Prop) (value : Json) : Prop :=
  ∃ number, kind number ∧ PartOf (.number number) value

section Holds

variable {kind : Number → Prop}

theorem holds_number {value : Number} : Holds kind (.number value) ↔ kind value := by
  constructor
  · rintro ⟨number, hkind, hpart⟩
    cases hpart
    exact hkind
  · exact fun hkind => ⟨value, hkind, .self⟩

theorem holds_arr {items : List Json} :
    Holds kind (.arr items) ↔ ∃ item ∈ items, Holds kind item := by
  constructor
  · rintro ⟨number, hkind, hpart⟩
    cases hpart with
    | item hmem hpart => exact ⟨_, hmem, number, hkind, hpart⟩
  · rintro ⟨item, hmem, number, hkind, hpart⟩
    exact ⟨number, hkind, .item hmem hpart⟩

theorem holds_obj {fields : Fields} :
    Holds kind (.obj fields) ↔ ∃ field ∈ fields, Holds kind field.2 := by
  constructor
  · rintro ⟨number, hkind, hpart⟩
    cases hpart with
    | field hmem hpart => exact ⟨_, hmem, number, hkind, hpart⟩
  · rintro ⟨field, hmem, number, hkind, hpart⟩
    exact ⟨number, hkind, .field hmem hpart⟩

end Holds

section Documents

variable {letter : Char} {word : List Char} {kind : Number → Prop} {layout : Layout}

mutual

theorem shows_print (hletter : isInitial letter = true)
    (hnumber : ∀ number, Shows letter word (numberText number).toList (kind number))
    (hlayout : IndentsByBlanks layout) (level : Nat) : (value : Json) →
    Shows letter word (print layout level value).toList (Holds kind value)
  | null => by
      rw [print]
      exact (Shows.of_ordinary hletter (by decide)).congr (iff_of_false id nofun)
  | bool value => by
      have htruth : Shows letter word (if value then "true" else "false").toList False := by
        cases value <;> exact .of_ordinary hletter (by decide)
      rw [print]
      exact htruth.congr (iff_of_false id nofun)
  | number value => by
      rw [print]
      exact (hnumber value).congr holds_number.symm
  | str text => by
      rw [print]
      exact (Shows.of_quote hletter text).congr (iff_of_false id nofun)
  | arr items => by
      rw [print]
      exact (Shows.of_bracketed hletter hlayout level (.of_ordinary hletter (by decide))
        (.of_ordinary hletter (by decide))
        (shows_printItems hletter hnumber hlayout (level + 1) items)).congr holds_arr.symm
  | obj fields => by
      rw [print]
      exact (Shows.of_bracketed hletter hlayout level (.of_ordinary hletter (by decide))
        (.of_ordinary hletter (by decide))
        (shows_printFields hletter hnumber hlayout (level + 1) fields)).congr holds_obj.symm

theorem shows_printItems (hletter : isInitial letter = true)
    (hnumber : ∀ number, Shows letter word (numberText number).toList (kind number))
    (hlayout : IndentsByBlanks layout) (level : Nat) : (items : List Json) →
    List.Forall₂ (fun value piece => Shows letter word piece.toList (Holds kind value)) items
      (printItems layout level items)
  | [] => by
      rw [printItems]
      exact .nil
  | value :: rest => by
      rw [printItems]
      exact .cons (shows_print hletter hnumber hlayout level value)
        (shows_printItems hletter hnumber hlayout level rest)

theorem shows_printFields (hletter : isInitial letter = true)
    (hnumber : ∀ number, Shows letter word (numberText number).toList (kind number))
    (hlayout : IndentsByBlanks layout) (level : Nat) : (fields : List (Str × Json)) →
    List.Forall₂ (fun field piece => Shows letter word piece.toList (Holds kind field.2)) fields
      (printFields layout level fields)
  | [] => by
      rw [printFields]
      exact .nil
  | (name, value) :: rest => by
      have hcolon : Shows letter word ": ".toList False := .of_ordinary hletter (by decide)
      have hvalue := shows_print hletter hnumber hlayout level value
      have hfield : Shows letter word (quote name ++ ": " ++ print layout level value).toList
          (Holds kind value) := by
        rw [String.toList_append, String.toList_append]
        refine (((Shows.of_quote hletter name).append hcolon).append hvalue).congr ?_
        rw [or_false, false_or]
      rw [printFields]
      exact .cons hfield (shows_printFields hletter hnumber hlayout level rest)

end

theorem shows_document (hletter : isInitial letter = true)
    (hnumber : ∀ number, Shows letter word (numberText number).toList (kind number))
    {value indent : Json} {text : String} (hindent : ∀ unit, indent ≠ .str unit)
    (hdocument : value.document indent = .ok text) :
    Shows letter word text.toList (Holds kind value) := by
  obtain ⟨rendered, hrender, rfl⟩ := map_eq_ok.mp hdocument
  have hrendered : Shows letter word rendered.toList (Holds kind value) := by
    unfold render at hrender
    split at hrender
    next content =>
      cases hrender
      exact (Shows.of_quote hletter content).congr (iff_of_false id nofun)
    next =>
      obtain ⟨layout, hlayout, hrender⟩ := bind_eq_ok.mp hrender
      split at hrender
      next =>
        cases hrender
        exact shows_print hletter hnumber (indentsByBlanks_ofIndent hindent hlayout) 0 _
      next => cases hrender
  have hend : Shows letter word "\n".toList False := .of_ordinary hletter (by decide)
  rw [String.toList_append]
  exact (hrendered.append hend).congr (iff_of_eq (or_false _))

end Documents

/-! ## Words for numbers -/

/-- A number is NaN just if its text shows the word for it. -/
theorem shows_nan : (value : Number) →
    Shows 'N' "NaN".toList (numberText value).toList (value = .float .nan)
  | .int _ => .of_finite rfl ⟨_, rfl⟩ nofun
  | .float (.finite _ _) => .of_finite rfl ⟨_, rfl⟩ nofun
  | .float .nan => .of_not_mem (by decide) (fun hnot => absurd rfl hnot) fun _ => List.infix_rfl
  | .float (.infinite negative) =>
      .of_not_mem (by cases negative <;> decide) (fun _ => by cases negative <;> decide) nofun

/-- A number is infinite just if its text shows the word for that. -/
theorem shows_infinity : (value : Number) →
    Shows 'I' "Infinity".toList (numberText value).toList
      (∃ negative, value = .float (.infinite negative))
  | .int _ => .of_finite rfl ⟨_, rfl⟩ nofun
  | .float (.finite _ _) => .of_finite rfl ⟨_, rfl⟩ nofun
  | .float .nan => .of_not_mem (by decide) (fun _ => by decide) nofun
  | .float (.infinite negative) =>
      .of_not_mem (by cases negative <;> decide) (fun hnot => absurd ⟨_, rfl⟩ hnot)
        fun _ => by cases negative <;> decide

/-- Outside of its quoted texts a document shows the words for NaN and infinities just if the value
holds such numbers. -/
theorem document_words {value indent : Json} {text : String} (hindent : ∀ unit, indent ≠ .str unit)
    (hdocument : value.document indent = .ok text) :
    ("NaN".toList <:+: unquoted .outside text.toList ↔
        PartOf (.number (.float .nan)) value) ∧
      ("Infinity".toList <:+: unquoted .outside text.toList ↔
        ∃ negative, PartOf (.number (.float (.infinite negative))) value) := by
  have hnan := (shows_document rfl shows_nan hindent hdocument).infix_iff (by decide)
  have hinfinity := (shows_document rfl shows_infinity hindent hdocument).infix_iff (by decide)
  rw [hnan, hinfinity]
  constructor
  · exact exists_eq_left
  · constructor
    · rintro ⟨_, ⟨negative, rfl⟩, hpart⟩
      exact ⟨negative, hpart⟩
    · rintro ⟨negative, hpart⟩
      exact ⟨_, ⟨negative, rfl⟩, hpart⟩

end Json

end Exemplar
