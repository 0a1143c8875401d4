import Exemplar.Config

/-!
# Reading configurations

A configuration is a record of nine values that is read by giving names values in
order, so that the last value of a name counts. Reading is told by two facts of a
single assignment: it replaces the value of its own field, and it says nothing about
the others. Four names are no fields and are not ignored either.
-/

namespace Exemplar

namespace Fields

/-- The fields of two objects; a value of the second one counts before one of the first. -/
def overlay (fields others : Fields) : Fields :=
  others.foldl (fun fields field => fields.set field.1 field.2) fields

theorem names_cons (field : Str × Json) (rest : Fields) :
    names (field :: rest) = field.1 :: names rest := rfl

theorem names_set (fields : Fields) (name : Str) (value : Json) :
    (fields.set name value).names =
      if name ∈ fields.names then fields.names else fields.names ++ [name] := by
  induction fields with
  | nil => rfl
  | cons field rest ih =>
      rw [set]
      by_cases hname : field.1 = name
      · rw [if_pos hname, names_cons, names_cons, hname, if_pos List.mem_cons_self]
      · simp only [if_neg hname, names_cons, ih, List.mem_cons, Ne.symm hname, false_or]
        split <;> rfl

theorem mem_names_set {fields : Fields} {name other : Str} {value : Json} :
    other ∈ (fields.set name value).names ↔ other ∈ fields.names ∨ other = name := by
  rw [names_set]
  split
  next hmem =>
    constructor
    · exact Or.inl
    · rintro (hother | rfl)
      · exact hother
      · exact hmem
  next => rw [List.mem_append, List.mem_singleton]

theorem nodup_names_set {fields : Fields} (hnames : fields.names.Nodup) (name : Str)
    (value : Json) : (fields.set name value).names.Nodup := by
  rw [names_set]
  split
  next => exact hnames
  next hnew =>
    refine List.nodup_append.mpr ⟨hnames, by simp, ?_⟩
    rintro other hother _ hmem rfl
    exact hnew (List.mem_singleton.mp hmem ▸ hother)

theorem overlay_cons (fields : Fields) (field : Str × Json) (rest : Fields) :
    fields.overlay (field :: rest) = (fields.set field.1 field.2).overlay rest := rfl

theorem mem_names_overlay {fields others : Fields} {name : Str} :
    name ∈ (fields.overlay others).names ↔ name ∈ fields.names ∨ name ∈ others.names := by
  induction others generalizing fields with
  | nil => simp [overlay, names]
  | cons field rest ih => rw [overlay_cons, ih, mem_names_set, names_cons, List.mem_cons, or_assoc]

theorem get?_cons (field : Str × Json) (rest : Fields) (name : Str) :
    get? (field :: rest) name = if field.1 = name then some field.2 else get? rest name := by
  by_cases hname : field.1 = name <;> simp [get?, hname]

theorem get?_eq_none {fields : Fields} {name : Str} (hname : name ∉ fields.names) :
    fields.get? name = none := by
  induction fields with
  | nil => rfl
  | cons field rest ih =>
      rw [names_cons, List.mem_cons, not_or] at hname
      rw [get?_cons, if_neg (Ne.symm hname.1), ih hname.2]

end Fields

namespace Config

/-! ## One assignment -/

/-- The names of the nine fields. -/
def fieldNames : List Str := standard.fields.names

theorem names_fields (config : Config) : config.fields.names = fieldNames := rfl

theorem ext_fields {config config' : Config} (hfields : config.fields = config'.fields)
    (hlistable : config.listable = config'.listable) : config = config' := by
  obtain ⟨⟩ := config
  obtain ⟨⟩ := config'
  simp_all [fields]

/-- A name of no field changes nothing, unless it is the name of the listing. -/
theorem set_of_unknown {name : Str} (hname : name ∉ fieldNames)
    (hlisting : name ≠ "to_dict")
    (config : Config) (value : Json) : config.set name value = config := by
  unfold set
  split
  case h_10 => exact absurd rfl hlisting
  case h_11 => rfl
  all_goals exact absurd (by decide) hname

/-- Giving a name a value replaces the value of its field, if it has one. -/
theorem fields_set (config : Config) (name : Str) (value : Json) :
    (config.set name value).fields =
      config.fields.map fun field => (field.1, if field.1 = name then value else field.2) := by
  by_cases hname : name ∈ fieldNames
  · simp only [fieldNames, Fields.names, standard, fields, List.map_cons, List.map_nil,
      List.mem_cons, List.not_mem_nil, or_false] at hname
    rcases hname with rfl | rfl | rfl | rfl | rfl | rfl | rfl | rfl | rfl <;> simp [set, fields]
  · have hkeep : (config.set name value).fields = config.fields := by
      by_cases hlisting : name = "to_dict"
      · rw [hlisting]
        rfl
      · rw [set_of_unknown hname hlisting]
    rw [hkeep]
    refine ((List.map_congr_left fun field hfield => ?_).trans (List.map_id _)).symm
    have hother : field.1 ≠ name := by
      rintro rfl
      exact hname (names_fields config ▸ List.mem_map_of_mem hfield)
    rw [if_neg hother]
    rfl

theorem listable_set (config : Config) (name : Str) (value : Json) :
    (config.set name value).listable = (config.listable && decide (name ≠ "to_dict")) := by
  unfold set
  split
  case h_11 hother => simp [show name ≠ "to_dict" from hother]
  all_goals simp

theorem set_set (config : Config) (name : Str) (old value : Json) :
    (config.set name old).set name value = config.set name value := by
  refine ext_fields ?_ ?_
  · rw [fields_set, fields_set, fields_set, List.map_map]
    refine List.map_congr_left fun field _ => ?_
    simp only [Function.comp]
    split <;> rfl
  · simp [listable_set]

theorem set_comm (config : Config) {name other : Str} (hne : name ≠ other)
    (value value' : Json) :
    (config.set name value).set other value' = (config.set other value').set name value := by
  refine ext_fields ?_ ?_
  · rw [fields_set, fields_set, fields_set, fields_set, List.map_map, List.map_map]
    refine List.map_congr_left fun field _ => ?_
    by_cases hname : field.1 = name <;> simp [hname, hne]
  · simp only [listable_set]
    exact Bool.and_right_comm ..

/-! ## A sequence of assignments -/

theorem setAll_cons (config : Config) (field : Str × Json) (rest : Fields) :
    config.setAll (field :: rest) = (config.set field.1 field.2).setAll rest := rfl

/-- A value may as well be given before values of other names. -/
theorem setAll_set_comm {fields : Fields} {name : Str} (hname : name ∉ fields.names)
    (config : Config) (value : Json) :
    (config.set name value).setAll fields = (config.setAll fields).set name value := by
  induction fields generalizing config with
  | nil => rfl
  | cons field rest ih =>
      rw [Fields.names_cons, List.mem_cons, not_or] at hname
      rw [setAll_cons, setAll_cons, set_comm config hname.1, ih hname.2]

/-- Setting a field of an object and then reading it reads the object and then sets the field. -/
theorem setAll_set {fields : Fields} (hnames : fields.names.Nodup) (config : Config)
    (name : Str) (value : Json) :
    config.setAll (fields.set name value) = (config.setAll fields).set name value := by
  induction fields generalizing config with
  | nil => rfl
  | cons field rest ih =>
      obtain ⟨hnew, hrest⟩ := List.nodup_cons.mp hnames
      rw [Fields.set]
      by_cases hname : field.1 = name
      · subst hname
        rw [if_pos rfl, setAll_cons, setAll_cons, ← setAll_set_comm hnew, set_set]
      · rw [if_neg hname]
        exact ih hrest _

/-- Reading an overlay reads one object onto the other. -/
theorem setAll_overlay {fields : Fields} (hnames : fields.names.Nodup) (others : Fields)
    (config : Config) :
    config.setAll (fields.overlay others) = (config.setAll fields).setAll others := by
  induction others generalizing fields with
  | nil => rfl
  | cons field rest ih =>
      rw [Fields.overlay_cons, ih (Fields.nodup_names_set hnames _ _), setAll_set hnames,
        setAll_cons]

/-- The fields of an object that name a field of configurations. -/
def known (fields : Fields) : Fields := fields.filter fun field => decide (field.1 ∈ fieldNames)

theorem setAll_known {fields : Fields} (hlisting : ("to_dict" : Str) ∉ fields.names)
    (config : Config) :
    config.setAll (known fields) = config.setAll fields := by
  induction fields generalizing config with
  | nil => rfl
  | cons field rest ih =>
      rw [Fields.names_cons, List.mem_cons, not_or] at hlisting
      rw [known, List.filter_cons, setAll_cons]
      by_cases hname : field.1 ∈ fieldNames
      · rw [if_pos (decide_eq_true hname)]
        exact ih hlisting.2 _
      · rw [if_neg (by simpa using hname), set_of_unknown hname (Ne.symm hlisting.1)]
        exact ih hlisting.2 _

/-- The fields of a configuration with the values that an object has for them. -/
def overridden (config : Config) (fields : Fields) : Fields :=
  config.fields.map fun field => (field.1, (fields.get? field.1).getD field.2)

theorem fields_setAll {fields : Fields} (hnames : fields.names.Nodup) (config : Config) :
    (config.setAll fields).fields = config.overridden fields := by
  induction fields generalizing config with
  | nil => exact (List.map_id _).symm
  | cons field rest ih =>
      obtain ⟨hnew, hrest⟩ := List.nodup_cons.mp hnames
      rw [setAll_cons, ih hrest, overridden, fields_set, List.map_map]
      refine List.map_congr_left fun own _ => ?_
      simp only [Function.comp, Fields.get?_cons]
      by_cases hname : field.1 = own.1
      · rw [← hname, Fields.get?_eq_none hnew]
        simp
      · simp [hname, Ne.symm hname]

theorem listable_setAll (config : Config) (fields : Fields) :
    (config.setAll fields).listable =
      (config.listable && decide (("to_dict" : Str) ∉ fields.names)) := by
  induction fields generalizing config with
  | nil => simp [setAll, Fields.names]
  | cons field rest ih =>
      rw [setAll_cons, ih, listable_set, Fields.names_cons]
      simp [Bool.and_assoc, eq_comm]

/-- A configuration is read back from its own fields. -/
theorem setAll_fields {config : Config} (hlistable : config.listable) :
    standard.setAll config.fields = config := by
  refine ext_fields ?_ ?_
  · rw [fields_setAll (names_fields config ▸ by decide)]
    simp [overridden, standard, fields, Fields.get?]
  · rw [listable_setAll, hlistable, names_fields]
    decide

/-! ## Reading -/

/-- The names that stand for the record as a whole. -/
def wholeNames : List Str := ["__class__", "__weakref__", "__dict__"]

/-- The names of no field that reading does not ignore. -/
def reservedNames : List Str := "to_dict" :: wholeNames

/-- A field that cannot be assigned to any configuration. -/
def Refused (field : Str × Json) : Prop :=
  field.1 = "__class__" ∨ field.1 = "__weakref__" ∨
    field.1 = "__dict__" ∧ ∀ inner, field.2 ≠ .obj inner

theorem assign_eq_set {name : Str} (hname : name ∉ wholeNames) (config : Config)
    (value : Json) : config.assign name value = .ok (config.set name value) := by
  unfold assign
  split
  case h_5 => rfl
  all_goals exact absurd (by decide) hname

theorem assign_eq_error {config : Config} {name : Str} {value : Json} :
    (∃ cause, config.assign name value = .error cause) ↔ Refused (name, value) := by
  unfold assign Refused
  split
  case h_4 hcontent => simpa using hcontent
  case h_5 hclass hweak hcontent _ =>
    simp [show name ≠ "__class__" from hclass, show name ≠ "__weakref__" from hweak,
      show name ≠ "__dict__" from hcontent]
  all_goals simp

/-- Reading fails just where some field is refused. -/
theorem foldlM_assign_eq_error {fields : Fields} {config : Config} :
    (∃ cause, fields.foldlM (fun config field => config.assign field.1 field.2) config =
        .error cause) ↔ ∃ field ∈ fields, Refused field := by
  induction fields generalizing config with
  | nil => simp [pure, Except.pure]
  | cons field rest ih =>
      obtain ⟨name, value⟩ := field
      have hfirst := @assign_eq_error config name value
      simp only [List.foldlM_cons, List.mem_cons, exists_eq_or_imp, ← hfirst]
      cases config.assign name value with
      | error cause => exact iff_of_true ⟨cause, rfl⟩ (Or.inl ⟨cause, rfl⟩)
      | ok next => exact ih.trans (or_iff_right (by simp)).symm

theorem foldlM_assign {fields : Fields} (hnames : ∀ name ∈ fields.names, name ∉ wholeNames)
    (config : Config) :
    fields.foldlM (fun config field => config.assign field.1 field.2) config =
      .ok (config.setAll fields) := by
  induction fields generalizing config with
  | nil => rfl
  | cons field rest ih =>
      rw [Fields.names_cons, List.forall_mem_cons] at hnames
      rw [List.foldlM_cons, assign_eq_set hnames.1]
      exact ih hnames.2 _

/-- What reading an object is documented to give: the nine fields in order, each with the value
that the object has for it or else the standard one; nothing is due to any other field. The
configuration is read back from its own fields, and reading it overlaid with an object reads what
it was read from overlaid with that object. -/
structure ReadsAs (fields : Fields) (config : Config) : Prop where
  read : ofFields fields = .ok config
  values : config.fields = standard.overridden fields
  names : config.fields.names = fieldNames
  ignored : ofFields (known fields) = .ok config
  listed : config.toJson = .ok (.obj config.fields)
  again : ofFields config.fields = .ok config
  overlaid (others : Fields) (hothers : ∀ name ∈ others.names, name ∉ reservedNames) :
    ofFields (fields.overlay others) = ofFields (config.fields.overlay others)

theorem readsAs {fields : Fields} (hnames : fields.names.Nodup)
    (hreserved : ∀ name ∈ fields.names, name ∉ reservedNames) :
    ReadsAs fields (standard.setAll fields) := by
  have hwhole : ∀ name ∈ fields.names, name ∉ wholeNames :=
    fun name hname hmem => hreserved name hname (List.mem_cons_of_mem _ hmem)
  have hlisting : ("to_dict" : Str) ∉ fields.names :=
    fun hmem => hreserved _ hmem List.mem_cons_self
  have hlistable : (standard.setAll fields).listable := by
    simpa [listable_setAll, standard] using hlisting
  have hown : ∀ name ∈ (standard.setAll fields).fields.names, name ∉ wholeNames := by
    rw [names_fields]
    decide
  refine ⟨foldlM_assign hwhole _, fields_setAll hnames _, rfl, ?_, if_pos hlistable, ?_, ?_⟩
  · rw [← setAll_known hlisting]
    refine foldlM_assign (fun name hname => hwhole name ?_) _
    obtain ⟨field, hfield, rfl⟩ := List.mem_map.mp hname
    exact List.mem_map_of_mem (List.mem_filter.mp hfield).1
  · rw [ofFields, foldlM_assign hown, setAll_fields hlistable]
  · intro others hothers
    have hwhole' (first : Fields) (hfirst : ∀ name ∈ first.names, name ∉ wholeNames) :
        ∀ name ∈ (first.overlay others).names, name ∉ wholeNames := by
      intro name hname hmem
      rcases Fields.mem_names_overlay.mp hname with hname | hname
      · exact hfirst name hname hmem
      · exact hothers name hname (List.mem_cons_of_mem _ hmem)
    rw [ofFields, ofFields, foldlM_assign (hwhole' _ hwhole), foldlM_assign (hwhole' _ hown),
      setAll_overlay hnames, setAll_overlay (names_fields _ ▸ by decide), setAll_fields hlistable]

/-- What was read before the content of a record was replaced does not count. -/
theorem ofFields_content {before after inner : Fields}
    (hbefore : ∀ field ∈ before, ¬ Refused field) :
    ofFields (before ++ (.plain "__dict__", .obj inner) :: after) =
      after.foldlM (fun config field => config.assign field.1 field.2) (standard.setAll inner) := by
  rw [ofFields, List.foldlM_append]
  cases hread : before.foldlM (fun config field => config.assign field.1 field.2) standard with
  | error cause =>
      obtain ⟨field, hmem, hrefused⟩ := foldlM_assign_eq_error.mp ⟨cause, hread⟩
      exact absurd hrefused (hbefore field hmem)
  | ok config => rfl

end Config

/-- Reading an object without reserved names overrides the standard configuration and does nothing
else. Of the reserved names, the type and the reference count of the record cannot be given a
value at all, and its content only an object, which takes the place of what was read before; a
value under the name of the listing leaves the fields alone, but they can no longer be listed. -/
theorem config_overrides {fields : Fields} (hnames : fields.names.Nodup) :
    ((∀ name ∈ fields.names, name ∉ Config.reservedNames) →
        ∃ config, Config.ReadsAs fields config) ∧
      ((∃ cause, Config.ofFields fields = .error cause) ↔
        ∃ field ∈ fields, Config.Refused field) ∧
      ((∀ name ∈ fields.names, name ∉ Config.wholeNames) → ("to_dict" : Str) ∈ fields.names →
        ∃ config, Config.ofFields fields = .ok config ∧
          config.fields = Config.standard.overridden fields ∧
          config.toJson = .error .wrongKind) ∧
      ∀ before inner after, fields = before ++ (.plain "__dict__", .obj inner) :: after →
        (∀ field ∈ before, ¬ Config.Refused field) →
        Config.ofFields fields =
          after.foldlM (fun config field => config.assign field.1 field.2)
            (Config.standard.setAll inner) := by
  refine ⟨fun hreserved => ⟨_, Config.readsAs hnames hreserved⟩, Config.foldlM_assign_eq_error, ?_,
    fun _ _ _ hfields hbefore => hfields ▸ Config.ofFields_content hbefore⟩
  intro hwhole hlisting
  refine ⟨_, Config.foldlM_assign hwhole _, Config.fields_setAll hnames _, if_neg ?_⟩
  simpa [Config.listable_setAll] using fun _ => hlisting

namespace Sample

/-- Two fields, one of them with a value of no use, and a name of no field. -/
def settings : Fields :=
  [("string_length", .int 4), ("not_an_option", .bool true), ("default_maximum", .null)]

/-- An object to overlay `settings` with. -/
def laterSettings : Fields := [("default_minimum", .float .half), ("string_length", .int 7)]

end Sample

theorem config_overrides_sample :
    ∃ config, Config.ofFields Sample.settings = .ok config ∧
      config.stringLength = .int 4 ∧ config.defaultMaximum = .null ∧
      config.defaultMinimum = .int 1 ∧
      Config.ofFields (Sample.settings.overlay Sample.laterSettings) =
        Config.ofFields (config.fields.overlay Sample.laterSettings) := by
  obtain ⟨config, hreads⟩ := (@config_overrides Sample.settings (by decide)).1 (by decide)
  have hconfig : config = Config.standard.setAll Sample.settings := by
    have hread := hreads.read
    rw [Config.ofFields, Config.foldlM_assign (by decide)] at hread
    cases hread
    rfl
  refine ⟨config, hreads.read, ?_, ?_, ?_, hreads.overlaid _ (by decide)⟩
  all_goals
    rw [hconfig]
    rfl

/-- Three names that a configuration does not have as fields, and none of which is ignored. -/
theorem reserved_names_not_ignored :
    Config.ofFields [("__class__", .int 1)] = .error .wrongKind ∧
      (Config.ofFields [("to_dict", .int 0)]).bind Config.toJson = .error .wrongKind ∧
      Config.ofFields [("string_length", .int 5), ("__dict__", .obj [])] = .ok .standard :=
  ⟨rfl, rfl, rfl⟩

end Exemplar
