import Exemplar.Proofs.Json.Numbers

/-!
# Values read back

The text of a value without halves of pairs reads as the value, on one line and on
lines that are indented by blanks; of a name that an object repeats the first place
and the last value are left. The reader takes a value from the front of a text and leaves the
rest, so that the induction over values goes through with any rest that does not
continue a number.
-/

namespace Exemplar.Json

/-! ## Quoted texts -/

theorem hexValue?_hexDigit : ∀ value < 16, hexValue? (Text.hexDigit value) = some value := by
  decide

/-- Four hexadecimal digits are read as the code that they were written for. -/
theorem hexCode?_hexDigits {code : Nat} (hcode : code < 65536) :
    ∃ a b c d, Text.hexDigits 4 code = [a, b, c, d] ∧ hexCode? a b c d = some code := by
  refine ⟨_, _, _, _, rfl, ?_⟩
  rw [hexCode?, hexValue?_hexDigit _ (Nat.mod_lt _ (by decide)),
    hexValue?_hexDigit _ (Nat.mod_lt _ (by decide)),
    hexValue?_hexDigit _ (Nat.mod_lt _ (by decide)),
    hexValue?_hexDigit _ (Nat.mod_lt _ (by decide))]
  exact congrArg some (by omega)

theorem pairedChar?_of_not_high {code : Nat} (hcode : isHighHalf code = false)
    (text : List Char) : pairedChar? code text = .ok none := by
  unfold pairedChar?
  split
  · simp [hcode]
  · rfl

/-- A character is read back from how it stands in a quoted text. -/
theorem readString_escapeChar (start : List Char) (c : Char) {rest : List Char} (hrest : rest ≠ [])
    (read : List Char) :
    readString start (escapeChar c ++ rest) read = readString start rest (c :: read) := by
  unfold escapeChar
  split
  next heq => rw [heq]; rfl
  split
  next heq => rw [heq]; rfl
  split
  next heq => rw [heq]; rfl
  split
  next heq => rw [heq]; rfl
  split
  next heq => rw [heq]; rfl
  split
  next heq => rw [heq]; rfl
  split
  next heq => rw [heq]; rfl
  split
  next hcontrol =>
    obtain ⟨a, b, c', d, hdigits, hcode⟩ := @hexCode?_hexDigits c.toNat (by omega)
    have hempty : rest.isEmpty = false := by simp [hrest]
    have hcharacter : (isHighHalf c.toNat || isLowHalf c.toNat) = false := by
      simp [isHighHalf, isLowHalf]
      omega
    have hhigh : isHighHalf c.toNat = false := (Bool.or_eq_false_iff.mp hcharacter).1
    have hhalf : half? c.toNat = none := if_neg (by rw [hcharacter]; exact Bool.false_ne_true)
    rw [hdigits]
    simp only [List.cons_append, List.nil_append]
    rw [readString]
    simp only [hempty, hcode, pairedChar?_of_not_high hhigh, hhalf, Char.ofNat_toNat]
  next hquote hbackslash _ _ _ _ _ hprinted =>
    rw [List.singleton_append, readString]
    · rw [if_neg hprinted]
    · exact fun heq => hquote heq
    · exact fun heq => hbackslash heq

theorem readString_flatMap (start text rest read : List Char) :
    readString start (text.flatMap escapeChar ++ '"' :: rest) read =
      .ok (String.ofList (read.reverse ++ text), rest) := by
  induction text generalizing read with
  | nil => simp [readString]
  | cons c later ih =>
      rw [List.flatMap_cons, List.append_assoc, readString_escapeChar start c (by simp), ih]
      simp

theorem toList_quote (text : Str) (rest : List Char) :
    (quote text).toList ++ rest = '"' :: (escaped text ++ '"' :: rest) := by
  simp [quote]

theorem readString_quote (start rest : List Char) {text : Str} (hplain : text.isPlain = true) :
    readString start (escaped text ++ '"' :: rest) [] = .ok (text, rest) := by
  cases text with
  | plain text =>
      rw [escaped, readString_flatMap, List.reverse_nil, List.nil_append, String.ofList_toList]
  | broken before half after => exact absurd hplain Bool.false_ne_true

/-! ## Blanks -/

theorem skipBlanks_append {blanks : List Char} (hblanks : ∀ c ∈ blanks, isBlank c = true)
    (text : List Char) : skipBlanks (blanks ++ text) = skipBlanks text :=
  List.dropWhile_append_of_pos hblanks

theorem skipBlanks_cons {c : Char} (hc : isBlank c = false) (text : List Char) :
    skipBlanks (c :: text) = c :: text :=
  List.dropWhile_cons_of_neg (by simp [hc])

/-- A text that starts neither with a blank nor with a bracket that closes, nor with a mark of the
order of bytes. -/
def StartsValue : List Char → Prop
  | [] => False
  | c :: _ => isBlank c = false ∧ c ≠ ']' ∧ c ≠ '\uFEFF'

theorem startsValue_of_readValue {allowance : Nat} {text : List Char}
    {result : Json × List Char} (hread : readValue allowance text = .ok result) :
    StartsValue text := by
  cases allowance with
  | zero => cases hread
  | succ allowance =>
      cases text with
      | nil => cases hread
      | cons c later =>
          refine ⟨?_, ?_, ?_⟩
          · by_contra hblank
            simp only [isBlank, Bool.not_eq_false, Bool.or_eq_true, beq_iff_eq] at hblank
            rcases hblank with ((rfl | rfl) | rfl) | rfl <;> cases hread
          · rintro rfl
            cases hread
          · rintro rfl
            cases hread

theorem StartsValue.skipBlanks_eq {text : List Char} (hstarts : StartsValue text) :
    skipBlanks text = text := by
  cases text with
  | nil => rfl
  | cons c later => exact skipBlanks_cons hstarts.1 later

/-! ## Arrays and objects -/

section Brackets

variable {allowance : Nat} {blanks text rest : List Char} {value : Json}

theorem startsValue_of_readItems {read : List Json} {result : Json × List Char}
    (hread : readItems allowance text read = .ok result) : StartsValue text := by
  cases allowance with
  | zero => cases hread
  | succ allowance =>
      rw [readItems] at hread
      split at hread
      next => cases hread
      next hvalue => exact startsValue_of_readValue hvalue

theorem quote_of_readFields {read : List (Str × Json)} {result : Json × List Char}
    (hread : readFields allowance text read = .ok result) : ∃ later, text = '"' :: later := by
  cases allowance with
  | zero => cases hread
  | succ allowance =>
      rw [readFields.eq_def] at hread
      split at hread
      next => cases hread
      next => exact ⟨_, rfl⟩
      next => cases hread

variable (hblanks : ∀ c ∈ blanks, isBlank c = true)

include hblanks

theorem readValue_bracket {result : Json × List Char}
    (hread : readItems allowance text [] = .ok result) :
    readValue (allowance + 1) ('[' :: (blanks ++ text)) = .ok result := by
  have hstarts := startsValue_of_readItems hread
  rw [readValue, skipBlanks_append hblanks, hstarts.skipBlanks_eq]
  split
  next => exact absurd rfl hstarts.2.1
  next => exact hread

theorem readItems_last {read : List Json}
    (hvalue : readValue allowance text = .ok (value, blanks ++ ']' :: rest)) :
    readItems (allowance + 1) text read = .ok (arr (read.reverse ++ [value]), rest) := by
  rw [readItems, hvalue]
  dsimp only
  rw [skipBlanks_append hblanks, skipBlanks_cons rfl]
  simp

theorem readItems_more {later : List Char} {read : List Json}
    (hvalue : readValue allowance text = .ok (value, ',' :: (blanks ++ later)))
    (hlater : StartsValue later) :
    readItems (allowance + 1) text read = readItems allowance later (value :: read) := by
  rw [readItems, hvalue]
  dsimp only
  rw [skipBlanks_cons rfl]
  simp only [skipBlanks_append hblanks, hlater.skipBlanks_eq]

theorem readValue_brace {result : Json × List Char}
    (hread : readFields allowance text [] = .ok result) :
    readValue (allowance + 1) ('\x7b' :: (blanks ++ text)) = .ok result := by
  obtain ⟨later, rfl⟩ := quote_of_readFields hread
  rw [readValue, skipBlanks_append hblanks, skipBlanks_cons rfl]
  exact hread

omit hblanks in
theorem skipBlanks_value {tail : List Char}
    (hvalue : readValue allowance text = .ok (value, tail)) : skipBlanks (' ' :: text) = text :=
  (@skipBlanks_append [' '] (by simp [isBlank]) text).trans
    (startsValue_of_readValue hvalue).skipBlanks_eq

theorem readFields_last {name : Str} (hname : name.isPlain = true) {read : List (Str × Json)}
    (hvalue : readValue allowance text = .ok (value, blanks ++ '\x7d' :: rest)) :
    readFields (allowance + 1) ((quote name).toList ++ ':' :: ' ' :: text) read =
      .ok (obj (Fields.ofPairs (read.reverse ++ [(name, value)])), rest) := by
  rw [toList_quote, readFields, readString_quote _ _ hname]
  simp only [skipBlanks_cons (show isBlank ':' = false from rfl), skipBlanks_value hvalue, hvalue,
    skipBlanks_append hblanks, skipBlanks_cons (show isBlank '\x7d' = false from rfl),
    List.reverse_cons]

theorem readFields_more {name : Str} (hname : name.isPlain = true) {later : List Char}
    {read : List (Str × Json)}
    (hvalue : readValue allowance text = .ok (value, ',' :: (blanks ++ '"' :: later))) :
    readFields (allowance + 1) ((quote name).toList ++ ':' :: ' ' :: text) read =
      readFields allowance ('"' :: later) ((name, value) :: read) := by
  rw [toList_quote, readFields, readString_quote _ _ hname]
  simp only [skipBlanks_cons (show isBlank ':' = false from rfl), skipBlanks_value hvalue, hvalue,
    skipBlanks_cons (show isBlank ',' = false from rfl), skipBlanks_append hblanks,
    skipBlanks_cons (show isBlank '"' = false from rfl)]

end Brackets

/-! ## Layouts -/

/-- Only blanks stand at the start of a line. -/
def IndentsByBlanks (layout : Layout) : Prop :=
  ∀ level, ∀ c ∈ (layout.lineBreak level).toList, isBlank c = true

theorem indentsByBlanks_oneLine : IndentsByBlanks .oneLine := by
  intro level c hc
  simp [Layout.lineBreak] at hc

theorem indentsByBlanks_lines (count : Nat) : IndentsByBlanks (.lines " " count) := by
  intro level c hc
  rw [Layout.lineBreak, String.toList_ofList, List.mem_cons, List.mem_flatten] at hc
  rcases hc with rfl | ⟨blanks, hblanks, hc⟩
  · rfl
  · rw [(List.mem_replicate.mp hblanks).2] at hc
    rw [List.mem_singleton.mp hc]
    rfl

theorem IndentsByBlanks.separator {layout : Layout} (hlayout : IndentsByBlanks layout)
    (level : Nat) : ∃ blanks, (layout.separator level).toList = ',' :: blanks ∧
      ∀ c ∈ blanks, isBlank c = true := by
  cases layout with
  | oneLine => exact ⟨[' '], by simp [Layout.separator], by simp [isBlank]⟩
  | lines unit count =>
      refine ⟨((Layout.lines unit count).lineBreak level).toList, ?_, hlayout level⟩
      rw [Layout.separator, String.toList_append]
      rfl

theorem endsNumber_append {blanks : List Char} (hblanks : ∀ c ∈ blanks, isBlank c = true)
    {text : List Char} (htext : EndsNumber text) : EndsNumber (blanks ++ text) := by
  cases blanks with
  | nil => exact htext
  | cons c later =>
      have hc := hblanks c List.mem_cons_self
      simp only [isBlank, Bool.or_eq_true, beq_iff_eq] at hc
      rcases hc with ((rfl | rfl) | rfl) | rfl <;> exact ⟨rfl, by decide, by decide, by decide⟩

/-! ## Repeated names -/

mutual

/-- The value with the fields of each object as they are read: of a repeated name the first place
and the last value. -/
def merged : Json → Json
  | arr items => arr (mergedItems items)
  | obj fields => obj (Fields.ofPairs (mergedFields fields))
  | value => value

/-- `merged` of every value of a list. -/
def mergedItems : List Json → List Json
  | [] => []
  | value :: rest => value.merged :: mergedItems rest

/-- `merged` of every value of a list of fields. -/
def mergedFields : List (Str × Json) → List (Str × Json)
  | [] => []
  | (name, value) :: rest => (name, value.merged) :: mergedFields rest

end

theorem set_of_not_mem {fields : Fields} {name : Str} (hname : name ∉ fields.names)
    (value : Json) : fields.set name value = fields ++ [(name, value)] := by
  induction fields with
  | nil => rfl
  | cons field rest ih =>
      rw [Fields.names, List.map_cons, List.mem_cons, not_or] at hname
      rw [Fields.set, if_neg (Ne.symm hname.1), ih hname.2, List.cons_append]

theorem foldl_set {pairs fields : Fields} (hnames : (Fields.names (fields ++ pairs)).Nodup) :
    pairs.foldl (fun fields pair => Fields.set fields pair.1 pair.2) fields = fields ++ pairs := by
  induction pairs generalizing fields with
  | nil => simp
  | cons pair rest ih =>
      have hnew : pair.1 ∉ fields.names := by
        rw [Fields.names, List.map_append] at hnames
        intro hmem
        exact (List.nodup_append.mp hnames).2.2 _ hmem _ List.mem_cons_self rfl
      rw [List.foldl_cons, set_of_not_mem hnew, ih]
      · simp
      · simpa using hnames

theorem ofPairs_eq_self {fields : Fields} (hnames : fields.names.Nodup) :
    Fields.ofPairs fields = fields :=
  @foldl_set fields [] hnames

mutual

theorem merged_eq_self : (value : Json) → value.DistinctNames → value.merged = value
  | null, _ => rfl
  | bool _, _ => rfl
  | number _, _ => rfl
  | str _, _ => rfl
  | arr items, hnames => by rw [merged, mergedItems_eq_self items hnames]
  | obj fields, hnames => by
      rw [merged, mergedFields_eq_self fields hnames.2, ofPairs_eq_self hnames.1]

theorem mergedItems_eq_self : (items : List Json) → DistinctNamesItems items →
    mergedItems items = items
  | [], _ => rfl
  | value :: rest, hnames => by
      rw [mergedItems, merged_eq_self value hnames.1, mergedItems_eq_self rest hnames.2]

theorem mergedFields_eq_self : (fields : List (Str × Json)) → DistinctNamesFields fields →
    mergedFields fields = fields
  | [], _ => rfl
  | (name, value) :: rest, hnames => by
      rw [mergedFields, merged_eq_self value hnames.1, mergedFields_eq_self rest hnames.2]

end

/-! ## Values -/

theorem readValue_of_readScalar {allowance : Nat} {text : List Char} {result : Json × List Char}
    (hread : readScalar text = .ok result) : readValue (allowance + 1) text = .ok result := by
  rw [readValue]
  · exact hread
  all_goals
    rintro later rfl
    cases hread

theorem toList_bracketed_nil (layout : Layout) (level : Nat) (opening closing : String)
    (rest : List Char) :
    (bracketed layout level opening closing []).toList ++ rest =
      opening.toList ++ (closing.toList ++ rest) := by
  simp [bracketed]

theorem toList_bracketed (layout : Layout) (level : Nat) {opening closing : String}
    {items : List String} (hne : items ≠ []) (rest : List Char) :
    (bracketed layout level opening closing items).toList ++ rest =
      opening.toList ++ ((layout.lineBreak (level + 1)).toList ++
        ((String.intercalate (layout.separator (level + 1)) items).toList ++
          ((layout.lineBreak level).toList ++ (closing.toList ++ rest)))) := by
  have hempty : items.isEmpty = false := by simp [hne]
  simp [bracketed, hempty]

theorem toList_field (name : Str) (text : String) (rest : List Char) :
    (quote name ++ ": " ++ text).toList ++ rest =
      (quote name).toList ++ ':' :: ' ' :: (text.toList ++ rest) := by
  simp

theorem length_field (name : Str) (text : String) :
    text.toList.length ≤ (quote name ++ ": " ++ text).toList.length := by
  simp only [String.toList_append, List.length_append]
  omega

theorem length_bracketed (layout : Layout) (level : Nat) {opening closing : String}
    {items : List String} (hne : items ≠ []) :
    opening.toList.length +
        (String.intercalate (layout.separator (level + 1)) items).toList.length +
        closing.toList.length ≤
      (bracketed layout level opening closing items).toList.length := by
  have hparts := @toList_bracketed layout level opening closing items hne []
  rw [List.append_nil] at hparts
  rw [hparts]
  simp only [List.length_append]
  omega

section Values

variable {layout : Layout} (hlayout : IndentsByBlanks layout)

include hlayout

mutual

/-- The text of a value without halves reads as the value and leaves what follows. -/
theorem readValue_print : (value : Json) → value.writable = true → value.isPlain = true →
    ∀ (level allowance : Nat) (rest : List Char),
      2 * (print layout level value).toList.length ≤ allowance → EndsNumber rest →
      readValue (allowance + 1) ((print layout level value).toList ++ rest) =
        .ok (value.merged, rest)
  | null, _, _, _, allowance, _, _, _ => by
      rw [print]
      rfl
  | bool value, _, _, _, allowance, _, _, _ => by
      rw [print]
      cases value <;> rfl
  | number value, hwritable, _, level, allowance, rest, _, hends => by
      rw [print]
      exact readValue_of_readScalar (readScalar_numberText hwritable hends)
  | str text, _, hplain, level, allowance, rest, _, _ => by
      rw [print, toList_quote, readValue, readString_quote _ _ hplain]
      rfl
  | arr [], _, _, level, allowance, rest, _, _ => by
      rw [print, printItems, toList_bracketed_nil]
      rfl
  | arr (first :: later), hwritable, hplain, level, allowance, rest, hallowance, _ => by
      have hne : printItems layout (level + 1) (first :: later) ≠ [] := by simp [printItems]
      have hlength := @length_bracketed layout level "[" "]" _ hne
      have hopen : "[".toList.length = 1 := rfl
      have hclose : "]".toList.length = 1 := rfl
      rw [print] at hallowance ⊢
      obtain ⟨allowance, rfl⟩ : ∃ less, allowance = less + 1 := ⟨allowance - 1, by omega⟩
      have hitems := readItems_print (first :: later) (by simp) hwritable hplain level (level + 1)
        allowance rest [] (by omega)
      rw [toList_bracketed layout level hne]
      exact readValue_bracket (hlayout (level + 1)) hitems
  | obj [], _, _, level, allowance, rest, _, _ => by
      rw [print, printFields, toList_bracketed_nil]
      rfl
  | obj (first :: later), hwritable, hplain, level, allowance, rest, hallowance, _ => by
      have hne : printFields layout (level + 1) (first :: later) ≠ [] := by simp [printFields]
      have hlength := @length_bracketed layout level "\x7b" "\x7d" _ hne
      have hopen : "\x7b".toList.length = 1 := rfl
      have hclose : "\x7d".toList.length = 1 := rfl
      rw [print] at hallowance ⊢
      obtain ⟨allowance, rfl⟩ : ∃ less, allowance = less + 1 := ⟨allowance - 1, by omega⟩
      have hfields := readFields_print (first :: later) (by simp) hwritable hplain level
        (level + 1) allowance rest [] (by omega)
      rw [toList_bracketed layout level hne]
      exact readValue_brace (hlayout (level + 1)) hfields

/-- The texts of items read as the items of an array, behind those read before. -/
theorem readItems_print : (items : List Json) → items ≠ [] → writableItems items = true →
    isPlainItems items = true →
      ∀ (outer level allowance : Nat) (rest : List Char) (read : List Json),
      2 * (String.intercalate (layout.separator level)
        (printItems layout level items)).toList.length
        + 1 ≤ allowance →
      readItems (allowance + 1)
        ((String.intercalate (layout.separator level) (printItems layout level items)).toList ++
          ((layout.lineBreak outer).toList ++ ']' :: rest)) read =
        .ok (arr (read.reverse ++ mergedItems items), rest)
  | [], hne, _, _, _, _, _, _, _, _ => absurd rfl hne
  | [value], _, hwritable, hplain, outer, level, allowance, rest, read, hallowance => by
      rw [printItems, printItems, String.intercalate_singleton] at hallowance ⊢
      obtain ⟨allowance, rfl⟩ : ∃ less, allowance = less + 1 := ⟨allowance - 1, by omega⟩
      have hends : EndsNumber ((layout.lineBreak outer).toList ++ ']' :: rest) :=
        endsNumber_append (hlayout outer) ⟨rfl, by decide, by decide, by decide⟩
      rw [writableItems, Bool.and_eq_true] at hwritable
      rw [isPlainItems, Bool.and_eq_true] at hplain
      exact readItems_last (hlayout outer)
        (readValue_print value hwritable.1 hplain.1 level allowance _ (by omega) hends)
  | value :: next :: later, _, hwritable, hplain, outer, level, allowance, rest, read,
      hallowance => by
      obtain ⟨blanks, hseparator, hblanks⟩ := hlayout.separator level
      rw [writableItems, Bool.and_eq_true] at hwritable
      rw [isPlainItems, Bool.and_eq_true] at hplain
      rw [printItems, printItems, String.intercalate_cons_cons, String.toList_append,
        String.toList_append, hseparator] at hallowance ⊢
      rw [List.length_append, List.length_append, List.length_cons] at hallowance
      obtain ⟨allowance, rfl⟩ : ∃ less, allowance = less + 1 := ⟨allowance - 1, by omega⟩
      have hlater := readItems_print (next :: later) (by simp) hwritable.2 hplain.2 outer level
        allowance rest (value.merged :: read) (by rw [printItems]; omega)
      rw [printItems] at hlater
      have hvalue := readValue_print value hwritable.1 hplain.1 level allowance
        (',' :: (blanks ++ ((String.intercalate (layout.separator level)
          (print layout level next :: printItems layout level later)).toList ++
            ((layout.lineBreak outer).toList ++ ']' :: rest)))) (by omega)
        ⟨rfl, by decide, by decide, by decide⟩
      have hmore := @readItems_more _ _ _ _ hblanks _ read hvalue (startsValue_of_readItems hlater)
      simp only [List.append_assoc, List.cons_append] at hmore ⊢
      rw [hmore, hlater]
      simp [mergedItems]

/-- The texts of fields read as the fields of an object, behind those read before. -/
theorem readFields_print : (fields : List (Str × Json)) → fields ≠ [] →
    writableFields fields = true → isPlainFields fields = true →
    ∀ (outer level allowance : Nat) (rest : List Char) (read : List (Str × Json)),
      2 * (String.intercalate (layout.separator level)
        (printFields layout level fields)).toList.length + 1 ≤ allowance →
      readFields (allowance + 1)
        ((String.intercalate (layout.separator level) (printFields layout level fields)).toList ++
          ((layout.lineBreak outer).toList ++ '\x7d' :: rest)) read =
        .ok (obj (Fields.ofPairs (read.reverse ++ mergedFields fields)), rest)
  | [], hne, _, _, _, _, _, _, _, _ => absurd rfl hne
  | (name, value) :: later, _, hwritable, hplain, outer, level, allowance, rest, read,
      hallowance => by
      have hvalue := readValue_print value
      have hlater := readFields_print later
      obtain ⟨allowance, rfl⟩ : ∃ less, allowance = less + 1 := ⟨allowance - 1, by omega⟩
      rw [writableFields, Bool.and_eq_true] at hwritable
      rw [isPlainFields, Bool.and_eq_true, Bool.and_eq_true] at hplain
      cases later with
      | nil =>
          rw [printFields, printFields, String.intercalate_singleton] at hallowance ⊢
          have hends : EndsNumber ((layout.lineBreak outer).toList ++ '\x7d' :: rest) :=
            endsNumber_append (hlayout outer) ⟨rfl, by decide, by decide, by decide⟩
          have hlength := length_field name (print layout level value)
          rw [toList_field]
          exact readFields_last (hlayout outer) hplain.1.1
            (hvalue hwritable.1 hplain.1.2 level allowance _ (by omega) hends)
      | cons field further =>
          obtain ⟨name', value'⟩ := field
          obtain ⟨blanks, hseparator, hblanks⟩ := hlayout.separator level
          rw [printFields, printFields, String.intercalate_cons_cons, String.toList_append,
            String.toList_append, hseparator] at hallowance ⊢
          rw [List.length_append, List.length_append, List.length_cons] at hallowance
          have hlength := length_field name (print layout level value)
          have hread := hlater (by simp) hwritable.2 hplain.2 outer level allowance rest
            ((name, value.merged) :: read) (by rw [printFields]; omega)
          rw [printFields] at hread
          obtain ⟨after, hafter⟩ := quote_of_readFields hread
          have hmore := @readFields_more _ _ _ _ hblanks name hplain.1.1 after read
            (hvalue hwritable.1 hplain.1.2 level allowance _ (by omega)
              ⟨rfl, by decide, by decide, by decide⟩)
          rw [List.append_assoc, List.append_assoc, hafter, toList_field, List.cons_append, hmore,
            ← hafter, hread]
          simp [mergedFields]

end

end Values

/-- The text of a value without halves and the end of its last line read as the value. -/
theorem readWhole_text {layout : Layout} (hlayout : IndentsByBlanks layout) {value : Json}
    (hwritable : value.writable = true) (hplain : value.isPlain = true) :
    readWhole (value.text layout ++ "\n").toList = .ok value.merged := by
  have htext : (value.text layout ++ "\n").toList = (print layout 0 value).toList ++ ['\n'] :=
    String.toList_append ..
  have hread := readValue_print hlayout value hwritable hplain 0
    (2 * ((print layout 0 value).toList ++ ['\n']).length + 1) ['\n']
    (by rw [List.length_append]; omega) ⟨rfl, by decide, by decide, by decide⟩
  have hstarts := startsValue_of_readValue hread
  rw [htext, readWhole]
  · rw [hstarts.skipBlanks_eq, hread]
    rfl
  · intro later heq
    rw [heq] at hstarts
    exact hstarts.2.2 rfl

theorem indentsByBlanks_ofIndent {indent : Json} {widest : Option Nat} {layout : Layout}
    (hindent : ∀ unit, indent ≠ .str unit) (hlayout : Layout.ofIndent widest indent = .ok layout) :
    IndentsByBlanks layout := by
  unfold Layout.ofIndent at hlayout
  split at hlayout
  next =>
    cases hlayout
    exact indentsByBlanks_oneLine
  next unit => exact absurd rfl (hindent unit)
  next =>
    obtain ⟨count, -, hblanks⟩ := bind_eq_ok.mp hlayout
    unfold Layout.blanks at hblanks
    split at hblanks
    next => cases hblanks
    next =>
    split at hblanks
    next => cases hblanks
    next =>
      cases hblanks
      exact indentsByBlanks_lines _

theorem read_of_readWhole {text : String} {value : Json}
    (hread : readWhole text.toList = .ok value) :
    read text = .ok value := by
  unfold read
  rw [hread]

/-- The document of a value without halves reads as the value, with repeated names merged. -/
theorem read_document {value indent : Json} {widest : Option Nat} {text : String}
    (hplain : value.isPlain = true) (hindent : ∀ unit, indent ≠ .str unit)
    (hdocument : value.document indent widest = .ok text) : read text = .ok value.merged := by
  obtain ⟨rendered, hrender, rfl⟩ := map_eq_ok.mp hdocument
  apply read_of_readWhole
  unfold render at hrender
  split at hrender
  next content =>
    cases hrender
    exact @readWhole_text .oneLine indentsByBlanks_oneLine (.str content) rfl hplain
  next =>
    obtain ⟨layout, hlayout, hrender⟩ := bind_eq_ok.mp hrender
    split at hrender
    next hwritable =>
      cases hrender
      exact readWhole_text (indentsByBlanks_ofIndent hindent hlayout) hwritable hplain
    next => cases hrender

end Exemplar.Json
