import Exemplar.Proofs.Files.Validation
import Exemplar.Proofs.Json.RoundTrip
import Exemplar.Session

/-!
# Documents

A document is the text of a value on lines of its own. Which indentations a value
takes is a matter of their size alone; with each of them its document reads as the
value, passes the check of a writer, and asks for the same example as the value.
-/

namespace Exemplar

namespace Json

/-- The indentations with which a value is written: none at all, or a number of blanks that is a
word and not more than memory allows, where that is bounded. The indentation of a text is not looked
at. -/
inductive TakesIndent (value : Json) (widest : Option Nat) : Json → Prop where
  | oneLine : TakesIndent value widest null
  | blanks {count : Int} (hword : Layout.isWord count = true)
      (hroom : ∀ bound ∈ widest, count ≤ bound) : TakesIndent value widest (int count)
  | unseen {content : Str} (htext : value = str content) (count : Int) :
      TakesIndent value widest (int count)

section Indentation

variable {value indent : Json} {widest : Option Nat} {count : Int} {layout : Layout} {text : String}

theorem any_lt_eq_false :
    widest.any (· < count.toNat) = false ↔ ∀ bound ∈ widest, count ≤ bound := by
  cases widest with
  | none => simp
  | some bound =>
      simp only [Option.any_some, decide_eq_false_iff_not, Option.mem_def, Option.some.injEq,
        forall_eq']
      omega

theorem blanks_eq_ok : Layout.blanks widest count = .ok layout ↔
    (Layout.isWord count = true ∧ ∀ bound ∈ widest, count ≤ bound) ∧
      layout = .lines " " count.toNat := by
  rw [Layout.blanks, ← any_lt_eq_false]
  cases Layout.isWord count with
  | false => simp
  | true => cases widest.any (· < count.toNat) <;> simp [eq_comm]

/-- Beside a text, a value is rendered by the layout of its indentation. -/
theorem render_eq (htext : ∀ content, value ≠ str content) (indent : Json) :
    value.render indent widest = Layout.ofIndent widest indent >>= fun layout =>
      if value.writable then .ok (value.text layout) else .error .noSuchValue := by
  cases value with
  | str content => exact absurd rfl (htext content)
  | _ => rfl

theorem exists_render (hwritable : value.writable = true)
    (htakes : value.TakesIndent widest indent) : ∃ text, value.render indent widest = .ok text := by
  by_cases htext : ∃ content, value = str content
  · obtain ⟨content, rfl⟩ := htext
    exact ⟨_, rfl⟩
  · rw [render_eq (not_exists.mp htext), hwritable]
    cases htakes with
    | oneLine => exact ⟨_, rfl⟩
    | blanks hword hroom =>
        exact ⟨_, bind_eq_ok.mpr ⟨_, blanks_eq_ok.mpr ⟨⟨hword, hroom⟩, rfl⟩, rfl⟩⟩
    | unseen htext' count => exact absurd ⟨_, htext'⟩ htext

theorem exists_document (hwritable : value.writable = true)
    (htakes : value.TakesIndent widest indent) :
    ∃ text, value.document indent widest = .ok text := by
  obtain ⟨text, hrender⟩ := exists_render hwritable htakes
  exact ⟨_, map_eq_ok.mpr ⟨text, hrender, rfl⟩⟩

theorem takesIndent_of_document (hindent : indent = null ∨ ∃ count, indent = int count)
    (hdocument : value.document indent widest = .ok text) : value.TakesIndent widest indent := by
  rcases hindent with rfl | ⟨count, rfl⟩
  · exact .oneLine
  · by_cases htext : ∃ content, value = str content
    · obtain ⟨content, rfl⟩ := htext
      exact .unseen rfl count
    · obtain ⟨rendered, hrender, -⟩ := map_eq_ok.mp hdocument
      rw [render_eq (not_exists.mp htext)] at hrender
      obtain ⟨layout, hlayout, -⟩ := bind_eq_ok.mp hrender
      obtain ⟨⟨hword, hroom⟩, -⟩ := blanks_eq_ok.mp hlayout
      exact .blanks hword hroom

theorem ne_str_of_indent (hindent : indent = null ∨ ∃ count, indent = int count) (unit : Str) :
    indent ≠ str unit := by
  rcases hindent with rfl | ⟨count, rfl⟩ <;> exact fun heq => nomatch heq

end Indentation

end Json

/-- The check of a writer accepts what can be read. -/
theorem ContentCheck.json_of_read {content : String} {value : Json}
    (hread : Json.read content = .ok value) : ContentCheck.json content = .ok () := by
  unfold ContentCheck.json
  rw [hread]

/-- A text that reads as a value asks for the example of the value within itself. -/
theorem Request.answer_text {text : String} {value : Json} (hread : Json.read text = .ok value)
    (config : Config) (draws : Draws) (position allowance : Nat) :
    (Request.text text).answer config draws position allowance =
      (Request.schema value value).answer config draws position allowance := by
  unfold Request.answer
  dsimp only
  rw [hread]

namespace Json

/-- A value without halves of pairs whose integers are short enough has a document with just the
indentations that it takes, and the document stands for the value: it reads as the value, a writer's
check changes nothing about writing it, and as a schema it has the answers of the value. -/
theorem document_stands_for_value {value indent : Json} {widest : Option Nat}
    (hnames : value.DistinctNames) (hplain : value.isPlain = true)
    (hwritable : value.writable = true) (hindent : indent = null ∨ ∃ count, indent = int count) :
    (value.TakesIndent widest indent ↔ ∃ text, value.document indent widest = .ok text) ∧
      ∀ text, value.document indent widest = .ok text →
        read text = .ok value ∧ ContentCheck.json text = .ok () ∧
        (∀ (tree : FileTree) (target : Path) (mishap : Option WriteError),
          ({} : Writer).write tree target text "json" true mishap =
            ({} : Writer).write tree target text "json" false mishap) ∧
        ∀ (config : Config) (draws : Draws) (position allowance : Nat),
          (Request.text text).answer config draws position allowance =
            (Request.schema value value).answer config draws position allowance := by
  refine ⟨⟨exists_document hwritable,
    fun ⟨text, hdocument⟩ => takesIndent_of_document hindent hdocument⟩, ?_⟩
  intro text hdocument
  have hread : read text = .ok value := by
    rw [read_document hplain (ne_str_of_indent hindent) hdocument, merged_eq_self value hnames]
  have haccepts := ContentCheck.json_of_read hread
  refine ⟨hread, haccepts, fun tree target mishap => ?_, Request.answer_text hread⟩
  exact ({} : Writer).write_eq_unchecked haccepts tree target "json" true mishap

/-- A value with a text to be escaped as a name, a fraction and a negative integer. -/
theorem document_sample : ∃ text,
    (obj [("\"", arr [float .half, int (-3)]), ("é", str "\n")]).document (int 1) = .ok text ∧
      text = "\x7b\n \"\\\"\": [\n  0.5,\n  -3\n ],\n \"é\": \"\\n\"\n\x7d\n" ∧
      read text = .ok (obj [("\"", arr [float .half, int (-3)]), ("é", str "\n")]) := by
  obtain ⟨-, hstands⟩ := @document_stands_for_value
    (obj [("\"", arr [float .half, int (-3)]), ("é", str "\n")]) (int 1) none
    ⟨by decide, ⟨trivial, trivial, trivial⟩, trivial, trivial⟩ (by decide) (by decide)
    (Or.inr ⟨1, rfl⟩)
  have hdocument : (obj [("\"", arr [float .half, int (-3)]), ("é", str "\n")]).document (int 1) =
      .ok "\x7b\n \"\\\"\": [\n  0.5,\n  -3\n ],\n \"é\": \"\\n\"\n\x7d\n" := by
    decide +kernel
  exact ⟨_, hdocument, rfl, (hstands _ hdocument).1⟩

/-- An integer that is no word is no indentation of a number. -/
theorem no_document_of_long_indent : (int 1).DistinctNames ∧ (int 1).isPlain = true ∧
    (int 1).writable = true ∧ ∀ text, (int 1).document (int 100000000000000000000) ≠ .ok text := by
  refine ⟨trivial, rfl, by decide, ?_⟩
  intro text hdocument
  have htakes := takesIndent_of_document (Or.inr ⟨_, rfl⟩) hdocument
  generalize hcount : int 100000000000000000000 = indent at htakes
  cases htakes with
  | oneLine => cases hcount
  | blanks hword _ =>
      cases hcount
      exact absurd hword (by decide)
  | unseen htext count => cases htext

end Json

end Exemplar
