import Exemplar.Json.Printer
import Exemplar.Json.Reader
import Exemplar.Proofs.Decimal.Reading

/-!
# Number texts read back

The text of a number is a sign, digits before a point, digits behind it and an
exponent, most of which may be missing, and the reader takes it apart at the same
places, provided that nothing behind the text would continue it. What is read of a
floating-point number is its shortest decimal, with the point possibly at another
place.
-/

namespace Exemplar

/-! ## Digits -/

namespace Decimal

theorem digits_eq (n : Nat) : digits n = Nat.toDigits 10 n := Nat.toList_repr

theorem isDigit_of_mem_digits {n : Nat} : ∀ c ∈ digits n, c.isDigit = true := by
  intro c hc
  rw [digits_eq] at hc
  exact Nat.isDigit_of_mem_toDigits (by decide) (by decide) hc

theorem digits_ne_nil (n : Nat) : digits n ≠ [] := by
  rw [digits_eq]
  exact Nat.toDigits_ne_nil

/-- No number but zero starts with a zero. -/
theorem head_digits {n : Nat} (hpos : 0 < n) :
    ∃ first rest, digits n = first :: rest ∧ first ≠ '0' := by
  induction n using Nat.strongRecOn with
  | ind n ih =>
      rw [digits_eq]
      rcases Nat.lt_or_ge n 10 with hsmall | hlarge
      · refine ⟨n.digitChar, [], Nat.toDigits_of_lt_base hsmall, ?_⟩
        have hall : ∀ n < 10, 0 < n → n.digitChar ≠ '0' := by decide
        exact hall n hsmall hpos
      · obtain ⟨first, rest, heq, hfirst⟩ := ih (n / 10) (by omega) (by omega)
        rw [digits_eq] at heq
        rw [Nat.toDigits_of_base_le (by decide) hlarge, heq]
        exact ⟨first, rest ++ [(n % 10).digitChar], rfl, hfirst⟩

theorem isDigit_of_mem_zeros {count : Nat} : ∀ c ∈ zeros count, c.isDigit = true := by
  intro c hc
  rw [(List.mem_replicate.mp hc).2]
  decide

/-! ## Numerals -/

/-- A character that the text of a finite number may hold. -/
def isNumeral (c : Char) : Bool := c.isDigit || c == '.' || c == 'e' || c == '-' || c == '+'

theorem isNumeral_of_isDigit {c : Char} (hc : c.isDigit = true) : isNumeral c = true := by
  simp [isNumeral, hc]

theorem isNumeral_of_mem_positional {shown : List Char} (hshown : ∀ c ∈ shown, c.isDigit = true)
    (point : Int) : ∀ c ∈ positional shown point, isNumeral c = true := by
  have hdigit {c : Char} (hc : c ∈ shown) : isNumeral c = true := isNumeral_of_isDigit (hshown c hc)
  have hzero {count : Nat} {c : Char} (hc : c ∈ zeros count) : isNumeral c = true :=
    isNumeral_of_isDigit (isDigit_of_mem_zeros c hc)
  intro c hc
  unfold positional at hc
  split at hc
  next =>
    simp only [List.mem_append, List.mem_cons, List.not_mem_nil, or_false] at hc
    obtain ((rfl | rfl) | hc) | hc := hc
    · decide
    · decide
    · exact hzero hc
    · exact hdigit hc
  split at hc
  next =>
    simp only [List.mem_append, List.mem_cons, List.not_mem_nil, or_false] at hc
    obtain (hc | hc) | rfl | rfl := hc
    · exact hdigit hc
    · exact hzero hc
    · decide
    · decide
  next =>
    simp only [List.mem_append, List.mem_singleton] at hc
    obtain (hc | rfl) | hc := hc
    · exact hdigit (List.mem_of_mem_take hc)
    · decide
    · exact hdigit (List.mem_of_mem_drop hc)

theorem isNumeral_of_mem_exponentText (exponent : Int) :
    ∀ c ∈ exponentText exponent, isNumeral c = true := by
  intro c hc
  simp only [exponentText, List.mem_append, List.mem_cons, List.not_mem_nil, or_false] at hc
  obtain ((rfl | rfl) | hc) | hc := hc
  · decide
  · split <;> decide
  · exact isNumeral_of_isDigit (isDigit_of_mem_zeros c hc)
  · exact isNumeral_of_isDigit (isDigit_of_mem_digits c hc)

theorem isNumeral_of_mem_scientific {shown : List Char} (hshown : ∀ c ∈ shown, c.isDigit = true)
    (exponent : Int) : ∀ c ∈ scientific shown exponent, isNumeral c = true := by
  intro c hc
  unfold scientific at hc
  rw [List.mem_append, List.mem_append] at hc
  obtain (hc | hc) | hc := hc
  · exact isNumeral_of_isDigit (hshown c (List.mem_of_mem_take hc))
  · split at hc
    next => cases hc
    next =>
      rcases List.mem_cons.mp hc with rfl | hc
      · decide
      · exact isNumeral_of_isDigit (hshown c (List.mem_of_mem_drop hc))
  · exact isNumeral_of_mem_exponentText exponent c hc

theorem isNumeral_of_mem_chars (decimal : Decimal) : ∀ c ∈ decimal.chars, isNumeral c = true := by
  intro c hc
  unfold chars at hc
  dsimp only at hc
  rcases List.mem_append.mp hc with hc | hc
  · split at hc
    next =>
      rw [List.mem_singleton.mp hc]
      decide
    next => cases hc
  · split at hc
    next => exact isNumeral_of_mem_positional isDigit_of_mem_digits _ c hc
    next => exact isNumeral_of_mem_scientific isDigit_of_mem_digits _ c hc

end Decimal

namespace Json

open Decimal (digits zeros digits_eq isDigit_of_mem_digits digits_ne_nil head_digits
  isDigit_of_mem_zeros amount)

theorem digitsValue_digits (n : Nat) : digitsValue (digits n) = n := by
  rw [digitsValue, digits_eq, Nat.ofDigitChars_ten_toDigits]

theorem digitsValue_zeros_append (count : Nat) (text : List Char) :
    digitsValue (zeros count ++ text) = digitsValue text := by
  rw [digitsValue, Nat.ofDigitChars_append, zeros, Nat.ofDigitChars_replicate_zero, Nat.mul_zero]
  rfl

theorem digitsValue_append_zeros (text : List Char) (count : Nat) :
    digitsValue (text ++ zeros count) = 10 ^ count * digitsValue text := by
  rw [digitsValue, Nat.ofDigitChars_append, zeros, Nat.ofDigitChars_replicate_zero]
  rfl

theorem takeWhile_isDigit {text rest : List Char} (htext : ∀ c ∈ text, c.isDigit = true)
    (hrest : rest.takeWhile Char.isDigit = []) : (text ++ rest).takeWhile Char.isDigit = text := by
  rw [List.takeWhile_append_of_pos htext, hrest, List.append_nil]

/-- The digits before a point: a lone zero, or digits that start with another one. -/
structure IsWhole (text : List Char) : Prop where
  isDigit : ∀ c ∈ text, c.isDigit = true
  head : text = ['0'] ∨ ∃ first rest, text = first :: rest ∧ first ≠ '0'

theorem IsWhole.ne_nil {text : List Char} (hwhole : IsWhole text) : text ≠ [] := by
  rcases hwhole.head with rfl | ⟨first, rest, rfl, -⟩ <;> simp

theorem isWhole_digits (n : Nat) : IsWhole (digits n) := by
  refine ⟨isDigit_of_mem_digits, ?_⟩
  rcases Nat.eq_zero_or_pos n with rfl | hpos
  · exact Or.inl rfl
  · exact Or.inr (head_digits hpos)

theorem wholeDigits_append {whole rest : List Char} (hwhole : IsWhole whole)
    (hrest : rest.takeWhile Char.isDigit = []) : wholeDigits (whole ++ rest) = whole := by
  rcases hwhole.head with rfl | ⟨first, later, rfl, hfirst⟩
  · rfl
  · have htake := takeWhile_isDigit hwhole.isDigit hrest
    rw [List.cons_append] at htake ⊢
    rw [wholeDigits]
    · exact htake
    · intro later' heq
      exact hfirst (List.cons.inj heq).1

/-! ## What ends a number -/

/-- A text that does not continue a number before it. -/
def EndsNumber : List Char → Prop
  | [] => True
  | c :: _ => c.isDigit = false ∧ c ≠ '.' ∧ c ≠ 'e' ∧ c ≠ 'E'

theorem EndsNumber.takeWhile_eq_nil {rest : List Char} (hends : EndsNumber rest) :
    rest.takeWhile Char.isDigit = [] := by
  cases rest with
  | nil => rfl
  | cons c later => rw [List.takeWhile_cons_of_neg (by simp [hends.1])]

theorem EndsNumber.fractionDigits_eq_nil {rest : List Char} (hends : EndsNumber rest) :
    fractionDigits rest = [] := by
  cases rest with
  | nil => rfl
  | cons c later =>
      rw [fractionDigits]
      intro text heq
      exact hends.2.1 (List.cons.inj heq).1

theorem EndsNumber.exponent?_eq_none {rest : List Char} (hends : EndsNumber rest) :
    exponent? rest = none := by
  cases rest with
  | nil => rfl
  | cons c later =>
      have hmark : ¬(c = 'e' ∨ c = 'E') := by simp [hends.2.2.1, hends.2.2.2]
      exact if_neg hmark

/-! ## Unsigned numbers -/

theorem readUnsigned_int (start : List Char) (negative : Bool) {n : Nat} {rest : List Char}
    (hlength : (digits n).length ≤ longestInteger) (hends : EndsNumber rest) :
    readUnsigned start negative (digits n ++ rest) =
      .ok (.int (Double.withSign negative n), rest) := by
  have hwhole := wholeDigits_append (isWhole_digits n) hends.takeWhile_eq_nil
  have hne : (digits n).isEmpty = false := by simp [digits_ne_nil]
  simp only [readUnsigned, hwhole, hne, List.drop_left, hends.fractionDigits_eq_nil,
    List.isEmpty_nil, if_true, hends.exponent?_eq_none, Bool.not_true, Bool.false_eq_true, if_false,
    Nat.not_lt.mpr hlength, digitsValue_digits]

/-- A point and the digits behind it, or nothing where there are none. -/
def pointed (fraction : List Char) : List Char := if fraction = [] then [] else '.' :: fraction

/-- What is left of a text of digits and a point decides whether there is an exponent. -/
theorem readUnsigned_pointed (start : List Char) (negative : Bool)
    {whole fraction rest : List Char} {exponent : Int} (hwhole : IsWhole whole)
    (hfraction : ∀ c ∈ fraction, c.isDigit = true) {tail : List Char}
    (htail : tail.takeWhile Char.isDigit = []) (hpoint : fractionDigits tail = [])
    (hexponent : exponent? tail = some (exponent, rest) ∨
      fraction ≠ [] ∧ exponent? tail = none ∧ exponent = 0 ∧ tail = rest) :
    readUnsigned start negative (whole ++ pointed fraction ++ tail) =
      .ok (.float (Double.ofDecimal negative (digitsValue (whole ++ fraction))
        (exponent - fraction.length)), rest) := by
  have hne : whole.isEmpty = false := by simp [hwhole.ne_nil]
  have hafter : (pointed fraction ++ tail).takeWhile Char.isDigit = [] := by
    unfold pointed
    split
    · exact htail
    · rfl
  have htake : fractionDigits (pointed fraction ++ tail) = fraction := by
    unfold pointed
    split
    next hnil => rw [hnil, List.nil_append, hpoint]
    next => exact takeWhile_isDigit hfraction htail
  have hdrop : (if fraction.isEmpty then pointed fraction ++ tail
      else (pointed fraction ++ tail).drop (fraction.length + 1)) = tail := by
    cases fraction with
    | nil => rfl
    | cons first later => simp [pointed]
  rw [List.append_assoc]
  simp only [readUnsigned, wholeDigits_append hwhole hafter, hne, List.drop_left, htake, hdrop,
    Bool.false_eq_true, if_false]
  rcases hexponent with hsome | ⟨hpresent, hnone, rfl, rfl⟩
  · rw [hsome]
    rfl
  · have hnil : fraction.isEmpty = false := by simp [hpresent]
    rw [hnone]
    simp only [hnil, Bool.not_false, if_true]
    rfl

theorem exponentDigits_append (negative : Bool) {text rest : List Char}
    (htext : ∀ c ∈ text, c.isDigit = true) (hne : text ≠ [])
    (hrest : rest.takeWhile Char.isDigit = []) :
    exponentDigits negative (text ++ rest) =
      some (if negative then -(digitsValue text : Int) else digitsValue text, rest) := by
  have hnil : text.isEmpty = false := by simp [hne]
  simp only [exponentDigits, takeWhile_isDigit htext hrest, hnil, Bool.false_eq_true, if_false,
    List.drop_left]

theorem exponent?_exponentText (exponent : Int) {rest : List Char}
    (hrest : rest.takeWhile Char.isDigit = []) :
    exponent? (Decimal.exponentText exponent ++ rest) = some (exponent, rest) := by
  obtain ⟨shown, hshown⟩ : ∃ shown, shown =
      zeros (2 - (digits exponent.natAbs).length) ++ digits exponent.natAbs := ⟨_, rfl⟩
  have hdigits : ∀ c ∈ shown, c.isDigit = true := by
    intro c hc
    rw [hshown] at hc
    exact (List.mem_append.mp hc).elim (isDigit_of_mem_zeros c) (isDigit_of_mem_digits c)
  have hne : shown ≠ [] := by
    rw [hshown]
    exact List.append_ne_nil_of_right_ne_nil _ (digits_ne_nil _)
  have hvalue : digitsValue shown = exponent.natAbs := by
    rw [hshown, digitsValue_zeros_append, digitsValue_digits]
  have htext : Decimal.exponentText exponent ++ rest =
      'e' :: (if exponent < 0 then '-' else '+') :: (shown ++ rest) := by
    simp [Decimal.exponentText, hshown]
  rw [htext]
  by_cases hnegative : exponent < 0
  · have hexponent : -(exponent.natAbs : Int) = exponent := by omega
    rw [if_pos hnegative]
    refine (exponentDigits_append true hdigits hne hrest).trans ?_
    rw [hvalue, if_pos rfl, hexponent]
  · have hexponent : (exponent.natAbs : Int) = exponent := by omega
    rw [if_neg hnegative]
    refine (exponentDigits_append false hdigits hne hrest).trans ?_
    rw [hvalue, if_neg Bool.false_ne_true, hexponent]

/-! ## Decimals -/

/-- The text of a decimal without its sign. -/
def unsignedChars (coefficient : Nat) (exponent : Int) : List Char :=
  let shown := digits coefficient
  let point := shown.length + exponent
  if -4 < point ∧ point ≤ 16 then Decimal.positional shown point
  else Decimal.scientific shown (point - 1)

theorem chars_eq (decimal : Decimal) :
    decimal.chars = (if decimal.negative then ['-'] else []) ++
      unsignedChars decimal.coefficient decimal.exponent := rfl

section Decimals

variable (start : List Char) (negative : Bool) {coefficient : Nat} {exponent : Int}
  {rest : List Char} (hends : EndsNumber rest)

include hends

/-- A text that is only digits with a point among them. -/
theorem readUnsigned_of_pointed {whole fraction : List Char} (hwhole : IsWhole whole)
    (hfraction : ∀ c ∈ fraction, c.isDigit = true) (hne : fraction ≠ []) :
    readUnsigned start negative (whole ++ '.' :: fraction ++ rest) =
      .ok (.float (Double.ofDecimal negative (digitsValue (whole ++ fraction))
        (-fraction.length)), rest) := by
  have hread := readUnsigned_pointed start negative hwhole hfraction hends.takeWhile_eq_nil
    hends.fractionDigits_eq_nil (Or.inr ⟨hne, hends.exponent?_eq_none, rfl, rfl⟩)
  rwa [pointed, if_neg hne, Int.zero_sub] at hread

theorem readUnsigned_scientific (hpos : 0 < coefficient) (point : Int) :
    readUnsigned start negative (Decimal.scientific (digits coefficient) (point - 1) ++ rest) =
      .ok (.float (Double.ofDecimal negative coefficient
        (point - (digits coefficient).length)), rest) := by
  obtain ⟨first, later, hdigits, hfirst⟩ := head_digits hpos
  have hall := @isDigit_of_mem_digits coefficient
  have hvalue := digitsValue_digits coefficient
  rw [hdigits] at hall hvalue ⊢
  have hwhole : IsWhole [first] :=
    ⟨fun c hc => hall c (by simp_all), Or.inr ⟨first, [], rfl, hfirst⟩⟩
  have htext : Decimal.scientific (first :: later) (point - 1) ++ rest =
      [first] ++ pointed later ++ (Decimal.exponentText (point - 1) ++ rest) := by
    cases later <;> simp [Decimal.scientific, pointed]
  rw [htext, readUnsigned_pointed start negative hwhole
    (fun c hc => hall c (List.mem_cons_of_mem _ hc)) rfl rfl
    (Or.inl (exponent?_exponentText (point - 1) hends.takeWhile_eq_nil)), List.singleton_append,
    hvalue, List.length_cons]
  congr 4
  omega

/-- With the point in front of all digits. -/
theorem readUnsigned_below {count : Nat} :
    readUnsigned start negative (['0', '.'] ++ zeros count ++ digits coefficient ++ rest) =
      .ok (.float (Double.ofDecimal negative coefficient
        (-(count + (digits coefficient).length : Nat))), rest) := by
  have hfraction : ∀ c ∈ zeros count ++ digits coefficient, c.isDigit = true := by
    intro c hc
    exact (List.mem_append.mp hc).elim (isDigit_of_mem_zeros c) (isDigit_of_mem_digits c)
  have hread := readUnsigned_of_pointed start negative hends (isWhole_digits 0) hfraction
    (List.append_ne_nil_of_right_ne_nil _ (digits_ne_nil _))
  have hvalue : digitsValue (digits 0 ++ (zeros count ++ digits coefficient)) = coefficient := by
    rw [show digits 0 = zeros 1 from rfl, digitsValue_zeros_append, digitsValue_zeros_append,
      digitsValue_digits]
  rw [hvalue, List.length_append, zeros, List.length_replicate] at hread
  simpa [zeros, digits] using hread

/-- With the point behind all digits. -/
theorem readUnsigned_above {count : Nat} (hplain : 0 < coefficient ∨ count = 0) :
    readUnsigned start negative (digits coefficient ++ zeros count ++ ['.', '0'] ++ rest) =
      .ok (.float (Double.ofDecimal negative coefficient count), rest) := by
  have hwhole : IsWhole (digits coefficient ++ zeros count) := by
    refine ⟨fun c hc => ?_, ?_⟩
    · exact (List.mem_append.mp hc).elim (isDigit_of_mem_digits c) (isDigit_of_mem_zeros c)
    · rcases hplain with hpos | rfl
      · obtain ⟨first, later, hdigits, hfirst⟩ := head_digits hpos
        exact Or.inr ⟨first, later ++ zeros count, by rw [hdigits]; rfl, hfirst⟩
      · rw [zeros, List.replicate_zero, List.append_nil]
        exact (isWhole_digits coefficient).head
  have hread := @readUnsigned_of_pointed start negative _ hends _ ['0'] hwhole (by simp) (by simp)
  have hvalue : digitsValue (digits coefficient ++ zeros count ++ ['0']) =
      10 ^ (count + 1) * coefficient := by
    rw [show ['0'] = zeros 1 from rfl, List.append_assoc, zeros, zeros,
      ← List.replicate_add, ← zeros, digitsValue_append_zeros, digitsValue_digits]
  have hamount : amount (10 ^ (count + 1) * coefficient) (-1) = amount coefficient count := by
    rw [amount, amount, zpow_natCast]
    push_cast
    ring
  rw [hvalue] at hread
  rw [List.length_singleton, Nat.cast_one, Double.ofDecimal_congr negative hamount] at hread
  simpa using hread

/-- With the point among the digits. -/
theorem readUnsigned_between {count : Nat} (hpos : 0 < coefficient) (hcount : 0 < count)
    (hlt : count < (digits coefficient).length) :
    readUnsigned start negative
        ((digits coefficient).take count ++ ['.'] ++ (digits coefficient).drop count ++ rest) =
      .ok (.float (Double.ofDecimal negative coefficient
        (-((digits coefficient).length - count : Nat))), rest) := by
  have hwhole : IsWhole ((digits coefficient).take count) := by
    refine ⟨fun c hc => isDigit_of_mem_digits c (List.mem_of_mem_take hc), ?_⟩
    obtain ⟨first, later, hdigits, hfirst⟩ := head_digits hpos
    obtain ⟨count, rfl⟩ := Nat.exists_eq_add_of_lt hcount
    exact Or.inr ⟨first, later.take count, by rw [hdigits]; simp, hfirst⟩
  have hne : (digits coefficient).drop count ≠ [] := by
    apply List.ne_nil_of_length_pos
    rw [List.length_drop]
    omega
  have hread := readUnsigned_of_pointed start negative hends hwhole
    (fun c hc => isDigit_of_mem_digits c (List.mem_of_mem_drop hc)) hne
  rw [List.take_append_drop, digitsValue_digits, List.length_drop] at hread
  simpa using hread

theorem readUnsigned_positional (hplain : 0 < coefficient ∨ exponent = 0) :
    readUnsigned start negative
        (Decimal.positional (digits coefficient) ((digits coefficient).length + exponent) ++ rest) =
      .ok (.float (Double.ofDecimal negative coefficient exponent), rest) := by
  unfold Decimal.positional
  split
  next hbelow =>
    rw [readUnsigned_below start negative hends]
    congr 4
    omega
  next hpositive =>
  split
  next habove =>
    rw [readUnsigned_above start negative hends (by omega)]
    congr 4
    omega
  next hbetween =>
    rw [readUnsigned_between start negative hends (by omega) (by omega) (by omega)]
    congr 4
    omega

/-- The text of a decimal reads as the decimal, unless that is a zero with an exponent. -/
theorem readUnsigned_unsignedChars (hplain : 0 < coefficient ∨ exponent = 0) :
    readUnsigned start negative (unsignedChars coefficient exponent ++ rest) =
      .ok (.float (Double.ofDecimal negative coefficient exponent), rest) := by
  unfold unsignedChars
  dsimp only
  split
  next => exact readUnsigned_positional start negative hends hplain
  next hfar =>
    have hpos : 0 < coefficient := by
      rcases Nat.eq_zero_or_pos coefficient with rfl | hpos
      · have hlength : (digits 0).length = 1 := rfl
        omega
      · exact hpos
    rw [readUnsigned_scientific start negative hends hpos]
    congr 4
    omega

end Decimals

/-! ## Numbers -/

theorem coefficient_shortest_pos (negative : Bool) (rank : Fin rankBound) :
    0 < (Double.shortest negative rank).coefficient ∨
      (Double.shortest negative rank).exponent = 0 := by
  by_cases hzero : rank.val = 0
  · right
    rw [Double.shortest, if_pos hzero]
  · left
    have hread := Double.toDouble_shortest negative rank
    rcases Nat.eq_zero_or_pos (Double.shortest negative rank).coefficient with hnone | hpos
    · -- a zero would be read as a zero
      rw [Decimal.toDouble, Double.ofDecimal, if_pos hnone, Double.ofRank, dif_pos (by decide)]
        at hread
      injection hread with hsign hrank
      exact absurd (congrArg Fin.val hrank).symm hzero
    · exact hpos

theorem head_of_readUnsigned {start text : List Char} {negative : Bool}
    {result : Number × List Char} (hread : readUnsigned start negative text = .ok result) :
    ∃ first later, text = first :: later ∧ first.isDigit = true := by
  cases text with
  | nil => cases hread
  | cons first later =>
      refine ⟨first, later, rfl, ?_⟩
      by_contra hfirst
      have hwhole : wholeDigits (first :: later) = [] := by
        rw [wholeDigits]
        · exact List.takeWhile_cons_of_neg hfirst
        · rintro later' heq
          rw [(List.cons.inj heq).1] at hfirst
          exact hfirst (by decide)
      simp [readUnsigned, hwhole] at hread

/-- No word starts with a digit or with a sign before one. -/
theorem find?_words_eq_none {first : Char} (hfirst : first.isDigit = true) (text : List Char)
    (negative : Bool) :
    words.find? (fun word =>
      word.1.isPrefixOf ((if negative then ['-'] else []) ++ first :: text)) = none := by
  have hletter : ∀ letter : Char, letter.isDigit = false → (letter == first) = false := by
    intro letter hother
    rw [beq_eq_false_iff_ne]
    rintro rfl
    rw [hfirst] at hother
    cases hother
  cases negative <;>
    simp [words, List.find?, List.isPrefixOf, hletter]

/-- A number that is read behind its sign is read with the sign. -/
theorem readScalar_signed (negative : Bool) {text rest : List Char} {value : Number}
    (hread : ∀ start, readUnsigned start negative text = .ok (value, rest)) :
    readScalar ((if negative then ['-'] else []) ++ text) = .ok (number value, rest) := by
  obtain ⟨first, later, rfl, hfirst⟩ := head_of_readUnsigned (hread [])
  unfold readScalar
  rw [find?_words_eq_none hfirst]
  cases negative with
  | true =>
      change (readUnsigned _ true (first :: later)).map _ = _
      rw [hread]
      rfl
  | false =>
      have hminus : first ≠ '-' := by
        rintro rfl
        cases hfirst
      simp only [Bool.false_eq_true, if_false, List.nil_append]
      split
      next heq => exact absurd (List.cons.inj heq).1 hminus
      next =>
        rw [hread]
        rfl

theorem toList_toString (value : Int) :
    (toString value).toList =
      (if decide (value < 0) then ['-'] else []) ++ digits value.natAbs := by
  rw [Int.toString_eq_repr, Int.repr_eq_if]
  by_cases hnonneg : 0 ≤ value
  · have habs : value.toNat = value.natAbs := by omega
    simp [hnonneg, habs, digits]
  · have habs : (-value).toNat = value.natAbs := by omega
    have hnegative : value < 0 := by omega
    simp [hnonneg, hnegative, habs, digits]

theorem isNumeral_of_mem_toString (value : Int) :
    ∀ c ∈ (toString value).toList, Decimal.isNumeral c = true := by
  intro c hc
  rw [toList_toString, List.mem_append] at hc
  rcases hc with hc | hc
  · split at hc
    next =>
      rw [List.mem_singleton.mp hc]
      decide
    next => cases hc
  · exact Decimal.isNumeral_of_isDigit (isDigit_of_mem_digits c hc)

theorem readScalar_int {value : Int} {rest : List Char}
    (hlength : (digits value.natAbs).length ≤ longestInteger) (hends : EndsNumber rest) :
    readScalar ((toString value).toList ++ rest) = .ok (int value, rest) := by
  have hsigned := readScalar_signed (decide (value < 0))
    fun start => readUnsigned_int start (decide (value < 0)) hlength hends
  have hvalue : Double.withSign (decide (value < 0)) value.natAbs = value := by
    unfold Double.withSign
    split
    next hnegative =>
      have hnegative := of_decide_eq_true hnegative
      omega
    next hnonneg =>
      have hnonneg := of_decide_eq_false (Bool.eq_false_iff.mpr hnonneg)
      omega
  rw [toList_toString, List.append_assoc, hsigned, hvalue]
  rfl

theorem readScalar_float (value : Double) {rest : List Char} (hends : EndsNumber rest) :
    readScalar ((value.text numberWords).toList ++ rest) = .ok (float value, rest) := by
  cases value with
  | nan => rfl
  | infinite negative => cases negative <;> rfl
  | finite negative rank =>
      have hread := fun start => readUnsigned_unsignedChars start negative hends
        (coefficient_shortest_pos negative rank)
      have hdouble := Double.toDouble_shortest negative rank
      rw [Decimal.toDouble, Double.negative_shortest] at hdouble
      rw [hdouble] at hread
      rw [Double.text, String.toList_ofList, chars_eq, Double.negative_shortest, List.append_assoc]
      exact readScalar_signed negative hread

/-- The text of a number reads as the number. -/
theorem readScalar_numberText {value : Number} {rest : List Char}
    (hwritable : (number value).writable = true) (hends : EndsNumber rest) :
    readScalar ((numberText value).toList ++ rest) = .ok (number value, rest) := by
  cases value with
  | int value =>
      refine readScalar_int ?_ hends
      rw [digits, String.length_toList]
      exact of_decide_eq_true hwritable
  | float value => exact readScalar_float value hends

end Json

end Exemplar
