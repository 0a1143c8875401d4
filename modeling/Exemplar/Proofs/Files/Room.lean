import Mathlib.Algebra.Group.Nat.Defs
import Mathlib.Data.List.Nodup
import Mathlib.Data.List.Perm.Subperm
import Exemplar.Proofs.Files.Atomicity
import Exemplar.Proofs.Files.Following

/-!
# Room for a temporary file

Names of temporary files differ in their tags alone. All tags have the same size,
so that either each of the names fits beside the target or none does. A write
takes a tag that is free, and it fails for want of one only where all are taken.
-/

namespace Exemplar

/-- Where something stands below the top there is an entry. -/
theorem FileTree.mem_places {tree : FileTree} {place : Place} (hplace : place ≠ [])
    (hused : tree.get? place ≠ none) : place ∈ tree.entries.map (·.1) := by
  rw [get?, if_neg hplace, ne_eq, Option.map_eq_none_iff, ← ne_eq,
    Option.ne_none_iff_exists'] at hused
  obtain ⟨entry, hfound⟩ := hused
  have hentry : entry.1 = place := by simpa using List.find?_some hfound
  exact List.mem_map.mpr ⟨entry, List.mem_of_find?_eq_some hfound, hentry⟩

/-- Whether a path can be looked up depends on the size of its last name, not on the name. -/
theorem FileTree.checkPath_concat_congr {path : Path} {name name' : String}
    (hsize : name.utf8ByteSize = name'.utf8ByteSize)
    (hnull : name.toList.contains '\x00' = name'.toList.contains '\x00') :
    checkPath (path ++ [name]) = checkPath (path ++ [name']) := by
  obtain ⟨before, -, hconcat⟩ := Path.utf8ByteSize_text_concat path
  rw [checkPath, checkPath, hconcat, hconcat, hsize, Path.holdsNull_concat,
    Path.holdsNull_concat, hnull]

namespace Write

variable {write : Write} {tree tree' : FileTree} {tag tag' : String} {temporary : Place}

/-! ## Tags -/

/-- A text is one of the tags. -/
def IsTag (tag : String) : Prop :=
  tag.length = tagLength ∧ ∀ char ∈ tag.toList, char ∈ tagAlphabet

-- Tests the characters of the text. A search among all characters would not end.
instance (tag : String) : Decidable (IsTag tag) :=
  @instDecidableAnd _ _ _ (List.decidableBAll _ _)

theorem getD_tagAlphabet {digit : Nat} (hdigit : digit < tagAlphabet.length) :
    tagAlphabet.getD digit 'a' = tagAlphabet[digit] := by
  rw [List.getD_eq_getElem?_getD, List.getElem?_eq_getElem hdigit, Option.getD_some]

theorem nodup_tagAlphabet : tagAlphabet.Nodup := by decide

theorem tagChars_injective {length first second : Nat}
    (hfirst : first < tagAlphabet.length ^ length)
    (hsecond : second < tagAlphabet.length ^ length)
    (heq : tagChars length first = tagChars length second) : first = second := by
  have hpos : 0 < tagAlphabet.length := by decide
  induction length generalizing first second with
  | zero =>
      rw [Nat.pow_zero, Nat.lt_one_iff] at hfirst hsecond
      rw [hfirst, hsecond]
  | succ length ih =>
      obtain ⟨hdigit, hrest⟩ := List.cons.inj heq
      have hless {number : Nat} (hnumber : number < tagAlphabet.length ^ (length + 1)) :
          number / tagAlphabet.length < tagAlphabet.length ^ length :=
        Nat.div_lt_of_lt_mul (Nat.pow_succ' ▸ hnumber)
      have hmod : first % tagAlphabet.length = second % tagAlphabet.length := by
        rw [getD_tagAlphabet (Nat.mod_lt _ hpos), getD_tagAlphabet (Nat.mod_lt _ hpos)] at hdigit
        exact (nodup_tagAlphabet.getElem_inj_iff).mp hdigit
      rw [← Nat.div_add_mod first tagAlphabet.length, ← Nat.div_add_mod second tagAlphabet.length,
        ih (hless hfirst) (hless hsecond) hrest, hmod]

/-- Characters of the alphabet are the digits of a number. -/
theorem exists_tagChars {chars : List Char} (hchars : ∀ char ∈ chars, char ∈ tagAlphabet) :
    ∃ number < tagAlphabet.length ^ chars.length, tagChars chars.length number = chars := by
  have hpos : 0 < tagAlphabet.length := by decide
  induction chars with
  | nil => exact ⟨0, by decide, rfl⟩
  | cons char rest ih =>
      obtain ⟨hchar, hrest⟩ := List.forall_mem_cons.mp hchars
      obtain ⟨number, hnumber, heq⟩ := ih hrest
      obtain ⟨digit, hdigit, rfl⟩ := List.getElem_of_mem hchar
      refine ⟨digit + tagAlphabet.length * number, ?_, ?_⟩
      · rw [List.length_cons, Nat.pow_succ']
        calc digit + tagAlphabet.length * number
            < tagAlphabet.length * (number + 1) := by rw [Nat.mul_add, Nat.mul_one]; omega
          _ ≤ tagAlphabet.length * tagAlphabet.length ^ rest.length :=
              Nat.mul_le_mul_left _ hnumber
      · rw [List.length_cons, tagChars, Nat.add_mul_mod_self_left, Nat.mod_eq_of_lt hdigit,
          Nat.add_mul_div_left _ _ hpos, Nat.div_eq_of_lt hdigit, Nat.zero_add, heq,
          getD_tagAlphabet hdigit]

theorem length_tagChars (length number : Nat) : (tagChars length number).length = length := by
  induction length generalizing number with
  | zero => rfl
  | succ length ih => rw [tagChars, List.length_cons, ih]

theorem mem_tagAlphabet_of_mem_tagChars {length number : Nat} {char : Char}
    (hchar : char ∈ tagChars length number) : char ∈ tagAlphabet := by
  induction length generalizing number with
  | zero => cases hchar
  | succ length ih =>
      rcases List.mem_cons.mp hchar with rfl | hrest
      · rw [getD_tagAlphabet (Nat.mod_lt _ (by decide))]
        exact List.getElem_mem _
      · exact ih hrest

/-- The tags are those of the numbers below their count. -/
theorem isTag_iff : IsTag tag ↔ ∃ number < tagCount, tagOf number = tag := by
  constructor
  · rintro ⟨hlength, hchars⟩
    obtain ⟨number, hnumber, heq⟩ := exists_tagChars hchars
    rw [String.length_toList, hlength] at hnumber heq
    exact ⟨number, hnumber, by rw [tagOf, heq, String.ofList_toList]⟩
  · rintro ⟨number, -, rfl⟩
    refine ⟨?_, fun char hchar => ?_⟩
    · rw [tagOf, String.length_ofList, length_tagChars]
    · rw [tagOf, String.toList_ofList] at hchar
      exact mem_tagAlphabet_of_mem_tagChars hchar

theorem tagOf_injOn {first second : Nat} (hfirst : first < tagCount) (hsecond : second < tagCount)
    (heq : tagOf first = tagOf second) : first = second :=
  tagChars_injective hfirst hsecond (String.ofList_injective heq)

theorem temporaryName_injective (write : Write) : Function.Injective write.temporaryName := by
  intro first second heq
  unfold temporaryName at heq
  rwa [String.append_left_inj, String.append_right_inj] at heq

/-! ## Sizes -/

theorem utf8Size_of_mem_tagAlphabet {char : Char} (hchar : char ∈ tagAlphabet) :
    char.utf8Size = 1 := by
  have hall : tagAlphabet.all (fun char => char.utf8Size == 1) = true := by decide
  exact beq_iff_eq.mp (List.all_eq_true.mp hall char hchar)

theorem utf8ByteSize_ofList {chars : List Char} (hchars : ∀ char ∈ chars, char ∈ tagAlphabet) :
    (String.ofList chars).utf8ByteSize = chars.length := by
  induction chars with
  | nil => rfl
  | cons char rest ih =>
      obtain ⟨hchar, hrest⟩ := List.forall_mem_cons.mp hchars
      rw [← List.singleton_append, String.ofList_append, String.utf8ByteSize_append, ih hrest,
        ← String.singleton_eq_ofList, String.utf8ByteSize_singleton,
        utf8Size_of_mem_tagAlphabet hchar, List.length_append, List.length_singleton]

theorem IsTag.utf8ByteSize_eq (htag : IsTag tag) : tag.utf8ByteSize = tagLength := by
  rw [← @String.ofList_toList tag, utf8ByteSize_ofList htag.2, String.length_toList, htag.1]

theorem IsTag.not_holdsNull (htag : IsTag tag) : tag.toList.contains '\x00' = false := by
  rw [List.contains_eq_mem, decide_eq_false_iff_not]
  exact fun hnull => absurd (htag.2 _ hnull) (by decide)

theorem utf8ByteSize_temporaryName (write : Write) (htag : IsTag tag) (htag' : IsTag tag') :
    (write.temporaryName tag).utf8ByteSize = (write.temporaryName tag').utf8ByteSize := by
  unfold temporaryName
  simp only [String.utf8ByteSize_append, htag.utf8ByteSize_eq, htag'.utf8ByteSize_eq]

theorem holdsNull_temporaryName (write : Write) (htag : IsTag tag) (htag' : IsTag tag') :
    (write.temporaryName tag).toList.contains '\x00' =
      (write.temporaryName tag').toList.contains '\x00' := by
  unfold temporaryName
  simp only [String.toList_append, List.contains_append, htag.not_holdsNull, htag'.not_holdsNull]

/-- Where the name with one tag fits, that with any other does. -/
theorem locateBelow_of_isTag (htag : IsTag tag) (htag' : IsTag tag')
    (hlocate : tree.locateBelow write.folder (write.temporaryName tag) = .ok temporary)
    (hhome : tree'.home = tree.home) {directory : Place}
    (hfollow : tree'.follow write.folder = .ok directory) :
    tree'.locateBelow write.folder (write.temporaryName tag') =
      .ok (directory ++ [write.temporaryName tag']) := by
  obtain ⟨_, hcheck, -, hshort, -⟩ := FileTree.locateBelow_eq_ok.mp hlocate
  refine FileTree.locateBelow_eq_ok.mpr ⟨directory, ?_, hfollow, ?_, rfl⟩
  · rw [hhome, ← hcheck]
    exact FileTree.checkPath_concat_congr (write.utf8ByteSize_temporaryName htag' htag)
      (write.holdsNull_temporaryName htag' htag)
  · rwa [write.utf8ByteSize_temporaryName htag' htag]

/-! ## Free tags -/

/-- Something stands under the name with a tag. -/
def Taken (write : Write) (tree : FileTree) (tag : String) : Prop :=
  ∃ temporary, tree.locateBelow write.folder (write.temporaryName tag) = .ok temporary ∧
    tree.get? temporary ≠ none

/-- There are no more taken tags than entries. -/
theorem le_length_of_taken {count : Nat} (hcount : count ≤ tagCount)
    (htaken : ∀ number < count, write.Taken tree (tagOf number)) :
    count ≤ tree.entries.length := by
  cases hfollow : tree.follow write.folder with
  | error error =>
      cases count with
      | zero => exact Nat.zero_le _
      | succ count =>
          obtain ⟨_, hlocate, -⟩ := htaken 0 (Nat.succ_pos _)
          obtain ⟨_, -, hother, -⟩ := FileTree.locateBelow_eq_ok.mp hlocate
          rw [hfollow] at hother
          cases hother
  | ok directory =>
      have hplaces : ((List.range count).map fun number =>
          directory ++ [write.temporaryName (tagOf number)]).Subperm
            (tree.entries.map fun entry => entry.1) := by
        apply List.Nodup.subperm
        · refine List.Nodup.map_on (fun first hfirst second hsecond heq => ?_) List.nodup_range
          have hname := List.singleton_injective (List.append_cancel_left heq)
          exact tagOf_injOn (Nat.lt_of_lt_of_le (List.mem_range.mp hfirst) hcount)
            (Nat.lt_of_lt_of_le (List.mem_range.mp hsecond) hcount)
            (write.temporaryName_injective hname)
        · intro place hplace
          obtain ⟨number, hnumber, rfl⟩ := List.mem_map.mp hplace
          obtain ⟨temporary, hlocate, hused⟩ := htaken number (List.mem_range.mp hnumber)
          obtain ⟨_, -, hother, -, rfl⟩ := FileTree.locateBelow_eq_ok.mp hlocate
          rw [hfollow] at hother
          cases hother
          exact FileTree.mem_places (List.append_ne_nil_of_right_ne_nil _ (List.cons_ne_nil _ _))
            hused
      have hlength := hplaces.length_le
      rwa [List.length_map, List.length_map, List.length_range] at hlength

theorem isFree_iff : write.isFree tree tag = true ↔ ¬ write.Taken tree tag := by
  unfold isFree Taken
  split
  next temporary hlocate => simp [hlocate]
  next error hlocate => simp [hlocate]

theorem freeTag?_eq_some (hfree : write.freeTag? tree = some tag) :
    IsTag tag ∧ ¬ write.Taken tree tag := by
  have hmem := List.mem_of_find?_eq_some hfree
  obtain ⟨number, hnumber, rfl⟩ := List.mem_map.mp hmem
  refine ⟨isTag_iff.mpr ⟨number, ?_, rfl⟩, isFree_iff.mp (List.find?_some hfree)⟩
  exact Nat.lt_of_lt_of_le (List.mem_range.mp hnumber) (Nat.min_le_right _ _)

theorem freeTag?_eq_none (hnone : write.freeTag? tree = none) (htag : IsTag tag) :
    write.Taken tree tag := by
  have htaken (number : Nat) (hnumber : number < min (tree.entries.length + 1) tagCount) :
      write.Taken tree (tagOf number) := by
    have hused := List.find?_eq_none.mp hnone (tagOf number)
      (List.mem_map.mpr ⟨number, List.mem_range.mpr hnumber, rfl⟩)
    exact not_not.mp fun hfree => hused (isFree_iff.mpr hfree)
  -- more tags than entries cannot be taken, so that all of them have been tried
  have hmin := le_length_of_taken (Nat.min_le_right _ _) htaken
  obtain ⟨number, hnumber, rfl⟩ := isTag_iff.mp htag
  exact htaken number (by omega)

/-- There is a free name that fits. -/
def HasRoom (write : Write) (tree : FileTree) : Prop :=
  ∃ tag temporary, IsTag tag ∧
    tree.locateBelow write.folder (write.temporaryName tag) = .ok temporary ∧
    tree.get? temporary = none

/-- Where there is room for a temporary file, one step makes it under a free name. -/
theorem place_of_hasRoom (hroom : write.HasRoom tree) :
    ∃ temporary filled,
      write.place (write.freeTag? tree) tree = (filled, .filling temporary write.pieces) ∧
        write.Beside tree temporary "" filled := by
  obtain ⟨tag, temporary, htag, hlocate, hnone⟩ := hroom
  cases hfree : write.freeTag? tree with
  | none =>
      obtain ⟨_, hlocate', hused⟩ := freeTag?_eq_none hfree htag
      rw [hlocate] at hlocate'
      cases hlocate'
      exact absurd hnone hused
  | some tag' =>
      obtain ⟨htag', huntaken⟩ := freeTag?_eq_some hfree
      obtain ⟨directory, -, hfollow, -⟩ := FileTree.locateBelow_eq_ok.mp hlocate
      have hlocate' := locateBelow_of_isTag htag htag' hlocate rfl hfollow
      have hnone' : tree.get? (directory ++ [write.temporaryName tag']) = none :=
        not_not.mp fun hused => huntaken ⟨_, hlocate', hused⟩
      refine ⟨_, tree.put (directory ++ [write.temporaryName tag']) (.file ""), ?_, rfl, hnone',
        tree.get?_put (List.append_ne_nil_of_right_ne_nil _ (List.cons_ne_nil _ _)) _, directory,
        tag', hfollow, rfl⟩
      unfold place
      dsimp only
      rw [hlocate']
      dsimp only
      rw [hnone']
      rfl

/-- Where there is none, the write ends at once: no name fits, or all of them are taken. -/
theorem place_of_not_hasRoom (hroom : ¬ write.HasRoom tree) :
    ∃ error, write.place (write.freeTag? tree) tree = (tree, .finished (.error error)) ∧
      (error = .noFreeName ∧ (∀ tag, IsTag tag → write.Taken tree tag) ∨
        ∃ tag cause, IsTag tag ∧
          tree.locateBelow write.folder (write.temporaryName tag) = .error cause ∧
          error = .file cause (write.folder.absolute tree.home ++ [write.temporaryName tag])) := by
  cases hfree : write.freeTag? tree with
  | none => exact ⟨_, rfl, Or.inl ⟨rfl, fun tag htag => freeTag?_eq_none hfree htag⟩⟩
  | some tag =>
      obtain ⟨htag, huntaken⟩ := freeTag?_eq_some hfree
      cases hlocate : tree.locateBelow write.folder (write.temporaryName tag) with
      | error cause =>
          refine ⟨_, ?_, Or.inr ⟨tag, cause, htag, hlocate, rfl⟩⟩
          unfold place
          dsimp only
          rw [hlocate]
      | ok temporary =>
          have hnone : tree.get? temporary = none :=
            not_not.mp fun hused => huntaken ⟨temporary, hlocate, hused⟩
          exact absurd ⟨tag, temporary, htag, hlocate, hnone⟩ hroom

end Write

end Exemplar
