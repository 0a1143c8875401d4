import Exemplar.Page
import Mathlib.Data.List.Basic
import Mathlib.Data.List.Infix

/-!
# Escaped texts

Five characters mean something in a page, and an entity stands for each of them in a
text. What is left of an escaped text is no markup, and reading the entities back
gives the text again, whatever it held before, entities of its own included.
-/

namespace Exemplar

namespace Page

/-- The characters that are not shown as they are, each with its entity after the ampersand. -/
def entities : List (Char × List Char) :=
  [('&', ['a', 'm', 'p', ';']),
   ('<', ['l', 't', ';']),
   ('>', ['g', 't', ';']),
   ('"', ['#', '3', '4', ';']),
   ('\'', ['#', '3', '9', ';'])]

/-- The text that an escaped text stands for. -/
def unescape : List Char → List Char
  | '&' :: 'a' :: 'm' :: 'p' :: ';' :: rest => '&' :: unescape rest
  | '&' :: 'l' :: 't' :: ';' :: rest => '<' :: unescape rest
  | '&' :: 'g' :: 't' :: ';' :: rest => '>' :: unescape rest
  | '&' :: '#' :: '3' :: '4' :: ';' :: rest => '"' :: unescape rest
  | '&' :: '#' :: '3' :: '9' :: ';' :: rest => '\'' :: unescape rest
  | c :: rest => c :: unescape rest
  | [] => []

/-- A text without markup: it holds no bracket and no quotation mark, and each of its ampersands
starts an entity. -/
structure Inert (text : List Char) : Prop where
  not_mem : ∀ c ∈ ['<', '>', '"', '\''], c ∉ text
  entity : ∀ rest, '&' :: rest <:+ text → ∃ entry ∈ entities, entry.2 <+: rest

/-! ## One character -/

/-- An entity stands for a character, or the character for itself. -/
theorem escapeChar_eq (c : Char) :
    (∃ name, (c, name) ∈ entities ∧ escapeChar c = '&' :: name) ∨
      c ∉ entities.map Prod.fst ∧ escapeChar c = [c] := by
  unfold escapeChar
  split_ifs with hamp hless hgreater hquote happ
  · exact .inl ⟨['a', 'm', 'p', ';'], hamp ▸ by decide, rfl⟩
  · exact .inl ⟨['l', 't', ';'], hless ▸ by decide, rfl⟩
  · exact .inl ⟨['g', 't', ';'], hgreater ▸ by decide, rfl⟩
  · exact .inl ⟨['#', '3', '4', ';'], hquote ▸ by decide, rfl⟩
  · exact .inl ⟨['#', '3', '9', ';'], happ ▸ by decide, rfl⟩
  · exact .inr ⟨by simp [entities, hamp, hless, hgreater, hquote, happ], rfl⟩

/-- No entity holds a character that has one. -/
theorem not_mem_name : ∀ entry ∈ entities, ∀ c ∈ entities.map Prod.fst, c ∉ entry.2 := by
  simp [entities]

theorem unescape_cons {c : Char} (hc : c ≠ '&') (rest : List Char) :
    unescape (c :: rest) = c :: unescape rest := by
  conv_lhs => unfold unescape
  split <;> simp_all

theorem unescape_entity (rest : List Char) : ∀ entry ∈ entities,
    unescape ('&' :: entry.2 ++ rest) = entry.1 :: unescape rest := by
  simp only [entities, List.forall_mem_cons, List.not_mem_nil, false_implies, implies_true,
    and_true]
  exact ⟨rfl, rfl, rfl, rfl, rfl⟩

/-! ## Whole texts -/

/-- Escaping is undone, also for a text that looks escaped already. -/
theorem unescape_escaped (text : List Char) : unescape (text.flatMap escapeChar) = text := by
  induction text with
  | nil => rfl
  | cons c rest ih =>
      rw [List.flatMap_cons]
      rcases escapeChar_eq c with ⟨name, hentry, hchar⟩ | ⟨hplain, hchar⟩
      · rw [hchar, unescape_entity _ _ hentry, ih]
      · have hc : c ≠ '&' := fun heq => hplain (heq ▸ by decide)
        rw [hchar, List.singleton_append, unescape_cons hc, ih]

/-- No bracket and no quotation mark is left of a character. -/
theorem not_mem_escapeChar {c : Char} (hc : c ∈ ['<', '>', '"', '\'']) (shown : Char) :
    c ∉ escapeChar shown := by
  have hspecial : c ∈ entities.map Prod.fst := List.mem_of_mem_tail hc
  rcases escapeChar_eq shown with ⟨name, hentry, hchar⟩ | ⟨hplain, hchar⟩
  · have hne : c ≠ '&' := by
      rintro rfl
      exact absurd hc (by decide)
    rw [hchar, List.mem_cons, not_or]
    exact ⟨hne, not_mem_name _ hentry c hspecial⟩
  · rw [hchar, List.mem_singleton]
    rintro rfl
    exact hplain hspecial

/-- A suffix lies within the second text if the first does not hold its first character. -/
theorem suffix_of_append {c : Char} {first second rest : List Char} (hfirst : c ∉ first)
    (hsuffix : c :: rest <:+ first ++ second) : c :: rest <:+ second := by
  induction first with
  | nil => exact hsuffix
  | cons head tail ih =>
      rw [List.mem_cons, not_or] at hfirst
      rw [List.cons_append, List.suffix_cons_iff] at hsuffix
      rcases hsuffix with hwhole | htail
      · exact absurd (List.cons.inj hwhole).1 hfirst.1
      · exact ih hfirst.2 htail

/-- An ampersand of an escaped text is the first character of an entity: it is neither one of the
other characters of an entity nor a character that stands for itself. -/
theorem entity_of_suffix {text rest : List Char}
    (hsuffix : '&' :: rest <:+ text.flatMap escapeChar) :
    ∃ entry ∈ entities, entry.2 <+: rest := by
  induction text with
  | nil => exact absurd (List.suffix_nil.mp hsuffix) (List.cons_ne_nil _ _)
  | cons c text ih =>
      rw [List.flatMap_cons] at hsuffix
      rcases escapeChar_eq c with ⟨name, hentry, hchar⟩ | ⟨hplain, hchar⟩
      · rw [hchar, List.cons_append, List.suffix_cons_iff] at hsuffix
        rcases hsuffix with hwhole | hsuffix
        · exact ⟨_, hentry, (List.cons.inj hwhole).2 ▸ List.prefix_append name _⟩
        · have hname : '&' ∉ name := not_mem_name _ hentry '&' (by decide)
          exact ih (suffix_of_append hname hsuffix)
      · have hc : '&' ∉ escapeChar c := by
          rw [hchar, List.mem_singleton]
          rintro rfl
          exact hplain (by decide)
        exact ih (suffix_of_append hc hsuffix)

/-- An escaped text holds no markup. -/
theorem inert_escaped (text : List Char) : Inert (text.flatMap escapeChar) where
  not_mem c hc hmem := by
    obtain ⟨shown, -, hshown⟩ := List.mem_flatMap.mp hmem
    exact not_mem_escapeChar hc shown hshown
  entity _ hsuffix := entity_of_suffix hsuffix

theorem toList_escape (text : String) : (escape text).toList = text.toList.flatMap escapeChar :=
  String.toList_ofList

theorem inert_escape (text : String) : Inert (escape text).toList :=
  toList_escape text ▸ inert_escaped text.toList

theorem unescape_escape (text : String) : unescape (escape text).toList = text.toList := by
  rw [toList_escape, unescape_escaped]

/-- A text that is an entity already is escaped like any other. -/
example : escape "&lt;" = "&amp;lt;" := by decide +kernel

/-- Different texts stay different. -/
theorem escape_injective : Function.Injective escape := by
  intro first second heq
  have hchars : first.toList = second.toList := by
    rw [← unescape_escape first, ← unescape_escape second, heq]
  exact String.toList_inj.mp hchars

end Page

end Exemplar
