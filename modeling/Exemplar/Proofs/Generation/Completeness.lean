import Exemplar.Proofs.Generation.Allowance
import Exemplar.Proofs.Generation.Conformance
import Exemplar.Proofs.Generation.Reach

/-!
# Completeness

The rules by which a schema stands for values leave choices open, and a run under
the standard configuration can make each of them in every way: whatever value the
rules derive without a rounded point, some draws lead a run to it. The integers
that are chosen from must not be too many for a draw to tell them apart.
-/

namespace Exemplar

open Run

/-- A schema derives a value in the scope of a root schema under the standard configuration.
`follows` tells whether a reference of the schema itself counts. Every choice has at most `2 ^ 52`
ways, and numbers are left out. -/
inductive Derives (root : Json) : (follows : Bool) → (schema value : Json) → Prop
  | remark {follows : Bool} {schema : Json} (hother : ∀ fields, schema ≠ .obj fields) :
      Derives root follows schema .null
  | reference {fields definition : Fields} {value : Json}
      (hpresent : (fields.get "$ref").truthy = true)
      (hnames : Names root (fields.get "$ref") definition)
      (hvalue : Derives root false (.obj definition) value) :
      Derives root true (.obj fields) value
  | variant {follows : Bool} {fields : Fields} {variants : List Json} {variant value : Json}
      (hreference : follows = true → (fields.get "$ref").truthy = false)
      (hpresent : (fields.get "anyOf").truthy = true)
      (hvariants : (fields.get "anyOf").elements = .ok variants)
      (hlength : variants.length ≤ significandSpan) (hmem : variant ∈ variants)
      (hvalue : Derives root true variant value) :
      Derives root follows (.obj fields) value
  | listed {follows : Bool} {fields : Fields} {values : List Json} {value : Json}
      (hreference : follows = true → (fields.get "$ref").truthy = false)
      (hvariants : (fields.get "anyOf").truthy = false)
      (hpresent : (fields.get "enum").truthy = true)
      (hvalues : (fields.get "enum").elements = .ok values)
      (hlength : values.length ≤ significandSpan) (hmem : value ∈ values) :
      Derives root follows (.obj fields) value
  | object {follows : Bool} {fields declared : Fields} {required : List Json}
      {members : List (Member Json)} (hplain : Plain follows fields)
      (htype : fields.get "type" = .str "object")
      (hproperties : (fields.get "properties").presentOr (.obj []) = .obj declared)
      (hrequired : ((fields.get "required").presentOr (.arr [])).elements = .ok required)
      (hselects : Selects required declared members)
      (hvalues : ∀ member ∈ members, Derives root true member.schema member.value) :
      Derives root follows (.obj fields) (.obj (members.map Member.field))
  | emptyArray {follows : Bool} {fields : Fields} (hplain : Plain follows fields)
      (htype : fields.get "type" = .str "array") (hitems : fields.get "items" = .null) :
      Derives root follows (.obj fields) (.arr [])
  | array {follows : Bool} {fields : Fields} {low high count : Int} {values : List Json}
      (hplain : Plain follows fields) (htype : fields.get "type" = .str "array")
      (hitems : fields.get "items" ≠ .null)
      (hminItems :
        ((fields.get "minItems").orElse Config.standard.defaultMinItems).asInt = .ok low)
      (hmaxItems :
        ((fields.get "maxItems").orElse Config.standard.defaultMaxItems).asInt = .ok high)
      (hlow : low ≤ count) (hhigh : count ≤ high) (hwidth : high - low + 1 ≤ significandSpan)
      (hlength : values.length = count.toNat)
      (hvalues : ∀ value ∈ values, Derives root true (fields.get "items") value) :
      Derives root follows (.obj fields) (.arr values)
  | boolean {follows : Bool} {fields : Fields} {value : Bool} (hplain : Plain follows fields)
      (htype : fields.get "type" = .str "boolean") :
      Derives root follows (.obj fields) (.bool value)
  | integer {follows : Bool} {fields : Fields} {low high n : Int} (hplain : Plain follows fields)
      (htype : fields.get "type" = .str "integer")
      (hminimum :
        ((fields.get "minimum").orElse Config.standard.defaultMinimum).asInt = .ok low)
      (hmaximum :
        ((fields.get "maximum").orElse Config.standard.defaultMaximum).asInt = .ok high)
      (hlow : low ≤ n) (hhigh : n ≤ high) (hwidth : high - low + 1 ≤ significandSpan) :
      Derives root follows (.obj fields) (.int n)
  | placeholder {follows : Bool} {fields : Fields} (hplain : Plain follows fields)
      (htype : fields.get "type" = .str "string")
      (hpattern : (fields.get "pattern").truthy = true) :
      Derives root follows (.obj fields) Config.standard.patternPlaceholder
  | text {follows : Bool} {fields : Fields} {text : String} (hplain : Plain follows fields)
      (htype : fields.get "type" = .str "string")
      (hpattern : (fields.get "pattern").truthy = false) (hlength : text.length = 10)
      (hletters : ∀ c ∈ text.toList, c.isAlphanum = true) :
      Derives root follows (.obj fields) (.str text)
  | constant {follows : Bool} {fields : Fields} (hplain : Plain follows fields)
      (htype : fields.get "type" ∉ typeNames) :
      Derives root follows (.obj fields) (fields.get "default")

/-! ## The shapes of the rules -/

theorem reference?_obj (fields : Fields) :
    Node.reference? (.obj fields) =
      if (fields.get "$ref").truthy then some (fields.get "$ref") else none := rfl

/-- The shape of a schema, or of the definition that it refers to where that counts. -/
def shapeOf (scope : Scope) (follows : Bool) (schema : Json) : Except Failure Shape :=
  if follows then shapeIn scope schema else (Shape.ofSchema schema).mapError .fault

theorem shapeOf_of_not_reference {scope : Scope} {follows : Bool} {schema : Json} {shape : Shape}
    (hreference : follows = true → Node.reference? schema = none)
    (hshape : Shape.ofSchema schema = .ok shape) : shapeOf scope follows schema = .ok shape := by
  unfold shapeOf
  cases follows with
  | false => rw [if_neg Bool.false_ne_true, hshape]; rfl
  | true => rw [if_pos rfl, shapeIn_eq, hreference rfl, hshape]; rfl

theorem shapeOf_of_plain {scope : Scope} {follows : Bool} {fields : Fields} {shape : Shape}
    (hplain : Plain follows fields) (hshape : Shape.ofType fields = .ok shape) :
    shapeOf scope follows (.obj fields) = .ok shape := by
  refine shapeOf_of_not_reference (fun hfollows => ?_) ?_
  · simp [reference?_obj, hplain.reference hfollows]
  · simp [Shape.ofSchema, hplain.variants, hplain.values, hshape]

theorem ofType_object {fields declared : Fields} {required : List Json}
    (htype : fields.get "type" = .str "object")
    (hproperties : (fields.get "properties").presentOr (.obj []) = .obj declared)
    (hrequired : ((fields.get "required").presentOr (.arr [])).elements = .ok required) :
    Shape.ofType fields = .ok (.object (.obj declared) required) := by
  have hlisted : (if (fields.get "required").truthy then (fields.get "required").elements
      else .ok []) = .ok required := by
    unfold Json.presentOr at hrequired
    split
    next hpresent => rwa [if_pos hpresent] at hrequired
    next habsent => rwa [if_neg habsent] at hrequired
  unfold Json.presentOr at hproperties
  simp only [Shape.ofType, htype, if_true, hproperties, hlisted]
  rfl

theorem ofType_constant {fields : Fields} (htype : fields.get "type" ∉ typeNames) :
    Shape.ofType fields = .ok (.constant (fields.get "default")) := by
  simp only [typeNames, List.mem_cons, List.not_mem_nil, or_false,
    not_or] at htype
  obtain ⟨hobject, harray, hboolean, hinteger, hnumber, hstring⟩ := htype
  simp only [Shape.ofType, if_neg hobject, if_neg harray, if_neg hboolean, if_neg hinteger,
    if_neg hnumber, if_neg hstring]

/-! ## Reaching what is derived -/

/-- A run of some allowance reaches the value of a schema at every depth. -/
def Reachable (scope : Scope) (follows : Bool) (schema value : Json) : Prop :=
  ∃ shape, shapeOf scope follows schema = .ok shape ∧
    ∃ allowance, ∀ depth,
      (expand Config.standard (exampleAt Config.standard scope allowance depth) shape).Reaches value

theorem Reachable.exists_allowance {scope : Scope} {schema value : Json}
    (hreachable : Reachable scope true schema value) :
    ∃ allowance, ∀ depth,
      (exampleAt Config.standard scope allowance depth schema).Reaches value := by
  obtain ⟨shape, hshape, allowance, hreaches⟩ := hreachable
  refine ⟨allowance + 1, fun depth => ?_⟩
  change shapeIn scope schema = .ok shape at hshape
  have hlevel : exampleAt Config.standard scope (allowance + 1) depth schema =
      expand Config.standard (exampleAt Config.standard scope allowance (depth + 1)) shape := by
    rw [exampleAt, hshape]
    rfl
  rw [hlevel]
  exact hreaches (depth + 1)

theorem reaches_of_extends {α : Type} {short long : Run α} {result : α}
    (hextends : short.Extends long) (hreaches : short.Reaches result) : long.Reaches result := by
  obtain ⟨taken, hunit, hruns⟩ := hreaches
  refine ⟨taken, hunit, fun draws position hsupplies => ?_⟩
  have hruns := hruns draws position hsupplies
  rw [hextends draws position (by simp [hruns]), hruns]

/-- What is reached one by one is reached under a common allowance. -/
theorem exists_common_allowance {α : Type} {scope : Scope} {schemaOf valueOf : α → Json}
    {elements : List α}
    (hreachable : ∀ element ∈ elements, Reachable scope true (schemaOf element) (valueOf element)) :
    ∃ allowance, ∀ element ∈ elements, ∀ depth,
      (exampleAt Config.standard scope allowance depth (schemaOf element)).Reaches
        (valueOf element) := by
  induction elements with
  | nil => exact ⟨0, by simp⟩
  | cons element rest ih =>
      obtain ⟨allowance, hfirst⟩ := (hreachable element List.mem_cons_self).exists_allowance
      obtain ⟨allowance', hrest⟩ :=
        ih fun later hlater => hreachable later (List.mem_cons_of_mem _ hlater)
      refine ⟨max allowance allowance', ?_⟩
      intro later hlater depth
      rcases List.mem_cons.mp hlater with rfl | hlater
      · exact reaches_of_extends (exampleAt_extends _ _ (Nat.le_max_left _ _) _ _) (hfirst depth)
      · exact reaches_of_extends (exampleAt_extends _ _ (Nat.le_max_right _ _) _ _)
          (hrest later hlater depth)

/-- A run reaches whatever its schema derives. -/
theorem reachable_of_derives {root : Json} {scope : Scope} (hscope : Scope.ofRoot root = .ok scope)
    {follows : Bool} {schema value : Json} (hderives : Derives root follows schema value) :
    Reachable scope follows schema value := by
  induction hderives with
  | @remark follows schema hother =>
      refine ⟨.constant .null, shapeOf_of_not_reference (fun _ => ?_) ?_, 0,
        fun _ => reaches_pure _⟩
      all_goals
        cases schema with
        | obj fields => exact absurd rfl (hother fields)
        | _ => rfl
  | @reference fields definition value hpresent hnames hvalue ih =>
      obtain ⟨shape, hshape, hreaches⟩ := ih
      refine ⟨shape, ?_, hreaches⟩
      change shapeIn scope (.obj fields) = .ok shape
      rw [shapeIn_eq, reference?_obj, if_pos hpresent]
      dsimp only
      rw [hnames.resolve hscope]
      exact hshape
  | @variant follows fields variants variant value hreference hpresent hvariants hlength hmem hvalue
      ih =>
      obtain ⟨allowance, hreaches⟩ := ih.exists_allowance
      refine ⟨.anyOf variants, shapeOf_of_not_reference (fun hfollows => ?_) ?_, allowance,
        fun depth => (reaches_pick hmem hlength).bind (hreaches depth)⟩
      · simp [reference?_obj, hreference hfollows]
      · simp [Shape.ofSchema, hpresent, hvariants, Except.map]
  | @listed follows fields values value hreference hvariants hpresent hvalues hlength hmem =>
      refine ⟨.enumeration values, shapeOf_of_not_reference (fun hfollows => ?_) ?_, 0,
        fun _ => reaches_pick hmem hlength⟩
      · simp [reference?_obj, hreference hfollows]
      · simp [Shape.ofSchema, hvariants, hpresent, hvalues, Except.map]
  | @object follows fields declared required members hplain htype hproperties hrequired hselects
      hvalues ih =>
      obtain ⟨allowance, hreaches⟩ := exists_common_allowance ih
      refine ⟨.object (.obj declared) required, shapeOf_of_plain hplain ?_, allowance,
        fun depth => ?_⟩
      · exact ofType_object htype hproperties hrequired
      · exact (reaches_fieldsOnto hselects (fun member hmem => hreaches member hmem depth) []).map _
  | @emptyArray follows fields hplain htype hitems =>
      refine ⟨.array .null (fields.get "minItems") (fields.get "maxItems"),
        shapeOf_of_plain hplain ?_, 0, fun _ => reaches_pure _⟩
      simp [Shape.ofType, htype, hitems]
  | @array follows fields low high count values hplain htype hitems hminItems hmaxItems hlow hhigh
      hwidth hlength hvalues ih =>
      obtain ⟨allowance, hreaches⟩ :=
        @exists_common_allowance Json scope (fun _ => fields.get "items") id values ih
      refine ⟨.array (fields.get "items") (fields.get "minItems") (fields.get "maxItems"),
        shapeOf_of_plain hplain ?_, allowance, fun depth => ?_⟩
      · simp [Shape.ofType, htype]
      · rw [expand_array _ _ hitems]
        refine (reaches_spread hminItems hmaxItems hlow hhigh hwidth).bind ?_
        refine (reaches_evaluate rfl).bind ?_
        rw [← hlength]
        exact (reaches_times fun value hmem => hreaches value hmem depth).map _
  | @boolean follows fields value hplain htype =>
      refine ⟨.boolean, shapeOf_of_plain hplain ?_, 0, fun _ => reaches_boolean _ value⟩
      simp [Shape.ofType, htype]
  | @integer follows fields low high n hplain htype hminimum hmaximum hlow hhigh hwidth =>
      refine ⟨.integer (fields.get "minimum") (fields.get "maximum"), shapeOf_of_plain hplain ?_, 0,
        fun _ => (reaches_spread hminimum hmaximum hlow hhigh hwidth).map _⟩
      simp [Shape.ofType, htype]
  | @placeholder follows fields hplain htype hpattern =>
      refine ⟨.string (fields.get "pattern"), shapeOf_of_plain hplain ?_, 0, fun _ => ?_⟩
      · simp [Shape.ofType, htype]
      · rw [expand, if_pos hpattern]
        exact reaches_pure _
  | @text follows fields text hplain htype hpattern hlength hletters =>
      refine ⟨.string (fields.get "pattern"), shapeOf_of_plain hplain ?_, 0, fun _ => ?_⟩
      · simp [Shape.ofType, htype]
      · rw [expand, hpattern, if_neg Bool.false_ne_true]
        refine (reaches_word ?_ hletters).map _
        rw [hlength]
        rfl
  | @constant follows fields hplain htype =>
      exact ⟨.constant (fields.get "default"), shapeOf_of_plain hplain (ofType_constant htype), 0,
        fun _ => reaches_pure _⟩

/-- Whatever a schema derives in the scope of a root, some draws lead a run to it, and the run takes
them all. -/
theorem derived_value_reached {root : Json} {scope : Scope} (hscope : Scope.ofRoot root = .ok scope)
    {schema value : Json} (hderives : Derives root true schema value) :
    ∃ taken : List Double, (∀ drawn ∈ taken, drawn.InUnit) ∧
      ∀ draws position, Draws.Supplies draws position taken →
        Ends Config.standard schema root draws position
          (.value value (position + taken.length)) := by
  obtain ⟨allowance, hreaches⟩ := (reachable_of_derives hscope hderives).exists_allowance
  obtain ⟨taken, hunit, hruns⟩ := hreaches 0
  refine ⟨taken, hunit, ?_⟩
  intro draws position hsupplies
  refine @ends_of_exampleWithin _ _ _ _ _ allowance _ (by simp) ?_
  rw [exampleWithin_of_scope hscope]
  exact hruns draws position hsupplies

namespace Sample

/-- The keywords of a chain: a link and, optionally, the rest of the chain. -/
def chain : Fields :=
  [("$id", .str "chain"), ("type", .str "object"), ("required", .arr [.str "link"]),
    ("properties", .obj
      [("link", .obj [("type", .str "integer")]), ("rest", .obj [("$ref", .str "chain")])])]

def chainRoot : Json := .obj [("definitions", .obj [("a", .obj chain)])]

def toChain : Json := .obj [("$ref", .str "chain")]

/-- The chain of some links. -/
def chainOf : Int → List Int → Json
  | link, [] => .obj [("link", .int link)]
  | link, next :: rest => .obj [("link", .int link), ("rest", chainOf next rest)]

theorem derives_link {n : Int} (hlow : 1 ≤ n) (hhigh : n ≤ 100) :
    Derives chainRoot true (.obj [("type", .str "integer")]) (.int n) :=
  .integer ⟨fun _ => rfl, rfl, rfl⟩ rfl rfl rfl hlow hhigh (by decide)

theorem chain_plain : Plain false chain where
  reference hfollows := nomatch hfollows
  variants := rfl
  values := rfl

theorem chain_named : Names chainRoot (.str "chain") chain :=
  ⟨[⟨"a", .str "chain", chain⟩], .text "chain", rfl, rfl, rfl⟩

/-- Chains of every length are derived, although the definition refers to itself. -/
theorem derives_chainOf {link : Int} {rest : List Int}
    (hlinks : ∀ n ∈ link :: rest, 1 ≤ n ∧ n ≤ 100) :
    Derives chainRoot true toChain (chainOf link rest) := by
  refine @Derives.reference _ _ chain _ rfl chain_named ?_
  obtain ⟨hlow, hhigh⟩ := hlinks link List.mem_cons_self
  have hlink := derives_link hlow hhigh
  induction rest generalizing link with
  | nil =>
      have hoptional : Json.str "rest" ∉ [Json.str "link"] := by decide
      refine .object chain_plain rfl rfl rfl
        (.made ⟨"link", .obj [("type", .str "integer")], .int link⟩ (.left hoptional .nil)) ?_
      simpa using hlink
  | cons next later ih =>
      obtain ⟨hlow', hhigh'⟩ := hlinks next (List.mem_cons_of_mem _ List.mem_cons_self)
      have hlater := ih (fun n hn => hlinks n (List.mem_cons_of_mem _ hn)) hlow' hhigh'
        (derives_link hlow' hhigh')
      refine .object chain_plain rfl rfl rfl
        (.made ⟨"link", .obj [("type", .str "integer")], .int link⟩
          (.made ⟨"rest", toChain, chainOf next later⟩ .nil)) ?_
      simpa using ⟨hlink, @Derives.reference _ _ chain _ rfl chain_named hlater⟩

theorem derives_threeLinks : Derives chainRoot true toChain (chainOf 7 [1, 100]) :=
  derives_chainOf (by decide)

end Sample

theorem derived_value_sample :
    (∃ scope, Scope.ofRoot Sample.chainRoot = .ok scope) ∧
      Derives Sample.chainRoot true Sample.toChain (Sample.chainOf 7 [1, 100]) ∧
      ∃ taken : List Double, (∀ drawn ∈ taken, drawn.InUnit) ∧
        ∀ draws position, Draws.Supplies draws position taken →
          Ends Config.standard Sample.toChain Sample.chainRoot draws position
            (.value (Sample.chainOf 7 [1, 100]) (position + taken.length)) :=
  ⟨⟨_, rfl⟩, Sample.derives_threeLinks, derived_value_reached rfl Sample.derives_threeLinks⟩

end Exemplar
