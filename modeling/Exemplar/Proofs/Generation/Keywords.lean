import Exemplar.Proofs.Generation.Allowance
import Exemplar.Proofs.Generation.Bisimulation
import Exemplar.Proofs.Schema.Equivalence

/-!
# The keywords that matter

Equivalent schemas are run alike within equivalent roots: at every level they have
shapes that are alike, whether these are their own or those of definitions. So
nothing but the known keywords shows in a run.
-/

namespace Exemplar

/-- Equivalent schemas have shapes that are alike, each in the scope of its root. -/
theorem bisimulation_equivalent {root root' : Json} (hroots : EquivalentRoots root root')
    {scope scope' : Scope} (hscope : Scope.ofRoot root = .ok scope)
    (hscope' : Scope.ofRoot root' = .ok scope') : Bisimulation scope scope' Equivalent := by
  intro schema schema' hequivalent
  apply levelAlike_iff.mpr
  exact FailAlike.shapeIn (fun _ _ => Equivalent.ofSchema)
    (hroots.resolve hscope hscope') hequivalent hequivalent.reference?

/-- Equivalent schemas within equivalent roots give the same run: the same value or failure after
the same draws, whatever the configuration. -/
theorem run_of_equivalent {schema schema' root root' : Json} (hschema : Equivalent schema schema')
    (hroots : EquivalentRoots root root') (allowance : Nat) (config : Config) :
    exampleWithin allowance config schema root = exampleWithin allowance config schema' root' := by
  funext draws position
  apply exampleWithin_eq_of_scopes hroots.identifiable_iff
  intro scope scope' hscope hscope'
  rw [(bisimulation_equivalent hroots hscope hscope').exampleAt_eq config allowance 0 hschema]

namespace Sample

/-- An object with a referring property and a pair of remarks. -/
def pairing : Json :=
  .obj
    [("title", .str "pairing"), ("type", .str "object"),
      ("required", .arr [.str "pair", .int 7, .str "choice"]),
      ("properties", .obj
        [("choice", .obj [("$ref", .str "choice")]),
          ("pair", .obj [("type", .str "array"), ("minItems", .int 2), ("maxItems", .int 2),
            ("items", .int 5)])])]

/-- The same with other requirements that name the same properties, other remarks, and keywords that
are not known. -/
def pairing' : Json :=
  .obj
    [("required", .arr [.str "choice", .str "pair", .str "choice"]),
      ("properties", .obj
        [("choice", .obj [("description", .null), ("$ref", .str "choice")]),
          ("pair", .obj [("maxItems", .int 2), ("type", .str "array"), ("minItems", .int 2),
            ("items", .str "anything")])]),
      ("type", .str "object"), ("allOf", .arr [.obj [("type", .str "boolean")]])]

def choiceRoot : Json :=
  .obj
    [("definitions", .obj
      [("a", .obj [("$id", .str "choice"),
        ("anyOf", .arr [.obj [("type", .str "boolean")], .obj [("enum", .arr [.int 3])]])])])]

/-- The same definition under another name, with the older identifier and beside a remark. -/
def choiceRoot' : Json :=
  .obj
    [("type", .str "object"),
      ("definitions", .obj
        [("remark", .str "choices"),
          ("b", .obj [("id", .str "choice"),
            ("anyOf", .arr [.obj [("type", .str "boolean"), ("title", .str "either")],
              .obj [("enum", .arr [.int 3])]])])])]

theorem equivalent_pairing : Equivalent pairing pairing' := by
  refine .object (by decide +kernel) (.listed fun name => ?_) (.same (by rintro _ ⟨⟩))
    (.declared rfl (.cons ?_ (.cons ?_ .nil))) .absent
  · simp only [List.mem_cons, List.not_mem_nil, Json.str.injEq, Json.int, reduceCtorEq, false_or,
      or_false]
    tauto
  · exact .object (by decide +kernel) (.same _) (.same (by rintro _ ⟨⟩)) (.same (by rintro _ ⟨⟩))
      .absent
  · exact .object (by decide +kernel) (.same _) (.same (by rintro _ ⟨⟩)) (.same (by rintro _ ⟨⟩))
      (.present (by decide +kernel) (by decide +kernel)
        (.remark (by rintro _ ⟨⟩) (by rintro _ ⟨⟩)))

theorem equivalentRoots_choice : EquivalentRoots choiceRoot choiceRoot' := by
  refine .some (.cons ⟨rfl, ?_⟩ .nil)
  refine .object (by decide +kernel) (.same _) (.listed (.cons ?_ (.cons (.refl _) .nil)))
    (.same (by rintro _ ⟨⟩)) .absent
  exact .object (by decide +kernel) (.same _) (.same (by rintro _ ⟨⟩)) (.same (by rintro _ ⟨⟩))
    .absent

end Sample

theorem equivalent_sample :
    Equivalent Sample.pairing Sample.pairing' ∧
    EquivalentRoots Sample.choiceRoot Sample.choiceRoot' ∧
    exampleWithin 3 Config.standard Sample.pairing' Sample.choiceRoot' (.constant .half) 0 =
      .value (.obj [("choice", .int 3), ("pair", .arr [.null, .null])]) 3 := by
  refine ⟨Sample.equivalent_pairing, Sample.equivalentRoots_choice, ?_⟩
  rw [← run_of_equivalent Sample.equivalent_pairing Sample.equivalentRoots_choice 3 .standard]
  decide +kernel

end Exemplar
