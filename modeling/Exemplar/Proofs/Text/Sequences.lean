import Exemplar.Text.Lines
import Mathlib.Logic.Basic

/-!
# Texts without control sequences

Stripping a text leaves out its control sequences and nothing else, so that it
leaves a text as it is just if the text holds none. A text without the character
that starts one is bare.
-/

namespace Exemplar.Text

/-! ## Bare texts -/

/-- No control sequence starts in a text. -/
def Bare (text : List Char) : Prop := escape ∉ text

instance (text : List Char) : Decidable (Bare text) := inferInstanceAs (Decidable (escape ∉ text))

@[simp]
theorem bare_nil : Bare [] := List.not_mem_nil

@[simp]
theorem bare_cons {c : Char} {text : List Char} : Bare (c :: text) ↔ c ≠ escape ∧ Bare text := by
  rw [Bare, List.mem_cons, not_or, ne_comm, Bare]

@[simp]
theorem bare_append {first second : List Char} :
    Bare (first ++ second) ↔ Bare first ∧ Bare second := by
  rw [Bare, List.mem_append, not_or, Bare, Bare]

theorem bare_intercalate {separator : String} (hseparator : Bare separator.toList)
    {items : List String} (hitems : ∀ item ∈ items, Bare item.toList) :
    Bare (String.intercalate separator items).toList := by
  induction items with
  | nil => simp
  | cons item rest ih =>
      rw [List.forall_mem_cons] at hitems
      cases rest with
      | nil => simpa using hitems.1
      | cons next later =>
          rw [String.intercalate_cons_cons, String.toList_append, String.toList_append,
            bare_append, bare_append]
          exact ⟨⟨hitems.1, hseparator⟩, ih hitems.2⟩

/-! ## Control sequences -/

/-- A character that may stand between the bracket and the letter of a control sequence. -/
def isParameter (c : Char) : Bool := c == ';' || c == '?' || c.isDigit

/-- Whether a text has a letter behind any number of parameters. -/
def reachesLetter : List Char → Bool
  | [] => false
  | c :: rest => if isParameter c then reachesLetter rest else c.isAlpha

/-- Whether a text starts with a control sequence. -/
def startsSequence : List Char → Bool
  | first :: second :: rest => first == escape && second == '[' && reachesLetter rest
  | _ => false

/-- Whether there is a control sequence anywhere in a text. -/
def holdsSequence : List Char → Bool
  | [] => false
  | c :: rest => startsSequence (c :: rest) || holdsSequence rest

theorem startsSequence_cons {c : Char} (hc : c ≠ escape) (rest : List Char) :
    startsSequence (c :: rest) = false := by
  cases rest with
  | nil => rfl
  | cons second rest => simp [startsSequence, hc]

theorem holdsSequence_cons {c : Char} (hc : c ≠ escape) (rest : List Char) :
    holdsSequence (c :: rest) = holdsSequence rest := by
  rw [holdsSequence, startsSequence_cons hc, Bool.false_or]

theorem holdsSequence_bare_append {before : List Char} (hbefore : Bare before) (text : List Char) :
    holdsSequence (before ++ text) = holdsSequence text := by
  induction before with
  | nil => rfl
  | cons c rest ih =>
      obtain ⟨hc, hrest⟩ := bare_cons.mp hbefore
      rw [List.cons_append, holdsSequence_cons hc, ih hrest]

theorem holdsSequence_of_bare {text : List Char} (htext : Bare text) :
    holdsSequence text = false := by
  rw [← List.append_nil text, holdsSequence_bare_append htext, holdsSequence]

/-! ## Stripping -/

/-- The start of a control sequence, with the last character first, or nothing yet. -/
inductive Begun : List Char → Prop
  | nothing : Begun []
  | escaped : Begun [escape]
  | bracket {parameters : List Char} (hparameters : ∀ c ∈ parameters, isParameter c = true) :
      Begun (parameters ++ ['[', escape])

theorem continuesSequence_bracket (parameters : List Char) (c : Char) :
    continuesSequence (parameters ++ ['[', escape]) c = isParameter c := by
  cases parameters with
  | nil => rfl
  | cons first rest => cases rest <;> rfl

theorem endsSequence_bracket (parameters : List Char) (c : Char) :
    endsSequence (parameters ++ ['[', escape]) c = c.isAlpha := by
  simp [endsSequence]

theorem reachesLetter_parameters {parameters : List Char}
    (hparameters : ∀ c ∈ parameters, isParameter c = true) (text : List Char) :
    reachesLetter (parameters ++ text) = reachesLetter text := by
  induction parameters with
  | nil => rfl
  | cons c rest ih =>
      rw [List.forall_mem_cons] at hparameters
      rw [List.cons_append, reachesLetter, if_pos hparameters.1, ih hparameters.2]

/-- What follows upon a bracket and parameters decides whether they are part of a sequence. -/
theorem holdsSequence_bracket {parameters : List Char}
    (hparameters : ∀ c ∈ parameters, isParameter c = true) (text : List Char) :
    holdsSequence ((parameters ++ ['[', escape]).reverse ++ text) =
      (reachesLetter text || holdsSequence text) := by
  have hreverse : ∀ c ∈ parameters.reverse, isParameter c = true := by simpa using hparameters
  have hbare : Bare parameters.reverse := fun hmem => absurd (hreverse _ hmem) (by decide)
  rw [List.reverse_append, List.append_assoc]
  change holdsSequence (escape :: '[' :: (parameters.reverse ++ text)) = _
  rw [holdsSequence, startsSequence, reachesLetter_parameters hreverse,
    holdsSequence_cons (by decide), holdsSequence_bare_append hbare]
  rfl

namespace Begun

variable {held : List Char} {c : Char}

theorem cons (hbegun : Begun held) (hcontinues : continuesSequence held c = true) :
    Begun (c :: held) := by
  cases hbegun with
  | nothing => cases hcontinues
  | escaped =>
      have hc : c = '[' := eq_of_beq hcontinues
      subst hc
      exact @bracket [] (by simp)
  | @bracket parameters hparameters =>
      rw [continuesSequence_bracket] at hcontinues
      rw [← List.cons_append]
      exact .bracket (List.forall_mem_cons.mpr ⟨hcontinues, hparameters⟩)

/-- The start of a sequence is none yet. -/
theorem holdsSequence_eq_false (hbegun : Begun held) : holdsSequence held.reverse = false := by
  cases hbegun with
  | nothing => rfl
  | escaped => rfl
  | bracket hparameters =>
      simpa [reachesLetter, holdsSequence] using holdsSequence_bracket hparameters []

/-- A start that is not continued is as good as left out. -/
theorem holdsSequence_broken (hbegun : Begun held) (hcontinues : continuesSequence held c = false)
    (hends : endsSequence held c = false) (rest : List Char) :
    holdsSequence (held.reverse ++ c :: rest) = holdsSequence (c :: rest) := by
  cases hbegun with
  | nothing => rfl
  | escaped =>
      have hc : (c == '[') = false := hcontinues
      change holdsSequence (escape :: c :: rest) = _
      rw [holdsSequence, startsSequence, hc, Bool.and_false, Bool.false_and, Bool.false_or]
  | bracket hparameters =>
      rw [continuesSequence_bracket] at hcontinues
      rw [endsSequence_bracket] at hends
      rw [holdsSequence_bracket hparameters, reachesLetter, hcontinues, if_neg Bool.false_ne_true,
        hends, Bool.false_or]

theorem holdsSequence_ended (hbegun : Begun held) (hcontinues : continuesSequence held c = false)
    (hends : endsSequence held c = true) (rest : List Char) :
    holdsSequence (held.reverse ++ c :: rest) = true := by
  cases hbegun with
  | nothing => cases hends
  | escaped => cases hends
  | bracket hparameters =>
      rw [continuesSequence_bracket] at hcontinues
      rw [endsSequence_bracket] at hends
      rw [holdsSequence_bracket hparameters, reachesLetter, hcontinues, if_neg Bool.false_ne_true,
        hends, Bool.true_or]

end Begun

theorem length_stripSequencesOnto_le (done held text : List Char) :
    (stripSequencesOnto done held text).length ≤ done.length + held.length + text.length := by
  induction text generalizing done held with
  | nil => simp [stripSequencesOnto]
  | cons c rest ih =>
      have hstep (done' held' : List Char)
          (hle : done'.length + held'.length ≤ done.length + held.length + 1) :
          (stripSequencesOnto done' held' rest).length ≤
            done.length + held.length + (c :: rest).length := by
        have hrest := ih done' held'
        rw [List.length_cons]
        omega
      rw [stripSequencesOnto]
      split
      · exact hstep _ _ (by simp [Nat.add_assoc])
      split
      · exact hstep _ _ (by simp [Nat.le_add_right_of_le])
      split
      · exact hstep _ _ (by simp [Nat.add_comm])
      · exact hstep _ _ (by simp [Nat.add_comm])

/-- Stripping leaves out nothing just where there is no sequence, be it one that has begun. -/
theorem stripSequencesOnto_eq_iff {held : List Char} (hbegun : Begun held) (done text : List Char) :
    stripSequencesOnto done held text = (held ++ done).reverse ++ text ↔
      holdsSequence (held.reverse ++ text) = false := by
  -- what is held is always the start of a sequence, and what is done holds none that is open
  induction text generalizing done held with
  | nil => simp [stripSequencesOnto, hbegun.holdsSequence_eq_false]
  | cons c rest ih =>
      rw [stripSequencesOnto]
      cases hcontinues : continuesSequence held c with
      | true => simpa using ih (hbegun.cons hcontinues) done
      | false =>
          rw [if_neg Bool.false_ne_true]
          cases hends : endsSequence held c with
          | true =>
              -- a sequence ends here and is left out, so that the text has become shorter
              have hlength := length_stripSequencesOnto_le done [] rest
              rw [if_pos rfl, hbegun.holdsSequence_ended hcontinues hends]
              refine iff_of_false (fun heq => ?_) (by decide)
              rw [heq] at hlength
              simp at hlength
              omega
          | false =>
              rw [if_neg Bool.false_ne_true, hbegun.holdsSequence_broken hcontinues hends]
              by_cases hescape : c = escape
              · subst hescape
                simpa using ih .escaped (held ++ done)
              · rw [if_neg hescape, holdsSequence_cons hescape]
                simpa using ih .nothing (c :: held ++ done)

/-- A text is shown in full just if it holds no control sequence. -/
theorem stripSequences_eq_self_iff {text : String} :
    stripSequences text = text ↔ holdsSequence text.toList = false := by
  rw [stripSequences, ← String.toList_inj, String.toList_ofList]
  exact stripSequencesOnto_eq_iff .nothing [] text.toList

/-- A bare text is shown as it is. -/
theorem stripSequences_eq_self {text : String} (htext : Bare text.toList) :
    stripSequences text = text :=
  stripSequences_eq_self_iff.mpr (holdsSequence_of_bare htext)

end Exemplar.Text
