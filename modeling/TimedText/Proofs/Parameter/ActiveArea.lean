import TimedText.Check.Parameter
import TimedText.Proofs.Number.Decimal
import TimedText.Proofs.Text.Digit
import TimedText.Proofs.Text.Words
/-!
Active areas. An active area is four percentages with blanks between them, in decimal digits of
any script. Those in ASCII digits are kept from being more than a hundred, as far as the
floating-point numbers tell; the others are not.
-/

namespace TimedText.Check

open Number Style Text

/-! ## Numerals -/

namespace AnyNumeral

/-- A numeral consists of decimal digits of any script, at least one on each side of its point. -/
structure IsWritten (numeral : AnyNumeral) : Prop where
  whole : numeral.whole ∈ someOf isDecimalDigit
  fraction : ∀ digits ∈ numeral.fraction, digits ∈ someOf isDecimalDigit

def chars (numeral : AnyNumeral) : List Char :=
  numeral.whole ++ numeral.fraction.elim [] ('.' :: ·)

def digits (numeral : AnyNumeral) : List Char :=
  numeral.whole ++ numeral.fraction.getD []

def amount (numeral : AnyNumeral) : ℚ :=
  decimalDigitsValue numeral.digits / 10 ^ (numeral.fraction.getD []).length

def IsAscii (numeral : AnyNumeral) : Prop := ∀ digit ∈ numeral.digits, isDigit digit = true

section

variable {numeral : AnyNumeral} {characters rest word : List Char}

private theorem takeWhile_mem_someOf
    (begun : ¬(characters.takeWhile isDecimalDigit).isEmpty = true) :
    characters.takeWhile isDecimalDigit ∈ someOf isDecimalDigit :=
  mem_someOf_iff.mpr ⟨by simpa using begun, fun _ => List.mem_takeWhile_imp⟩

private theorem take?_isWritten (taken : take? characters = some (numeral, rest)) :
    numeral.IsWritten ∧ characters = numeral.chars ++ rest := by
  have parts : characters.takeWhile isDecimalDigit ++ characters.dropWhile isDecimalDigit
      = characters := List.takeWhile_append_dropWhile
  rw [take?] at taken
  dsimp only at taken
  split at taken
  · cases taken
  next begun =>
    split at taken
    next afterPoint point =>
      split at taken
      next =>
        cases taken
        exact ⟨⟨takeWhile_mem_someOf begun, nofun⟩, by simp [chars, parts]⟩
      next some =>
        cases taken
        refine ⟨⟨takeWhile_mem_someOf begun, ?_⟩, ?_⟩
        · rintro _ ⟨⟩
          exact takeWhile_mem_someOf some
        · rw [chars, Option.elim_some, List.append_assoc, List.cons_append,
            List.takeWhile_append_dropWhile, ← point, parts]
    next =>
      cases taken
      exact ⟨⟨takeWhile_mem_someOf begun, nofun⟩, by simp [chars, parts]⟩

private theorem take?_percent (written : numeral.IsWritten) :
    take? (numeral.chars ++ ['%']) = some (numeral, ['%']) := by
  have stops : ∀ character ∈ ['%'].head?, isDecimalDigit character = false := by
    rintro _ ⟨⟩
    decide
  rcases numeral with ⟨whole, fraction⟩
  rcases mem_someOf_iff.mp written.whole with ⟨begun, digits⟩
  have notEmpty : whole.isEmpty = false := by simpa using begun
  cases fraction with
  | none =>
      rw [take?, chars, Option.elim_none, List.append_nil]
      dsimp only
      rw [takeWhile_append_stop digits stops, dropWhile_append_stop digits stops, notEmpty,
        if_neg Bool.false_ne_true]
      rfl
  | some fraction =>
      rcases mem_someOf_iff.mp (written.fraction fraction rfl) with ⟨ended, further⟩
      have alsoNotEmpty : fraction.isEmpty = false := by simpa using ended
      have point : ∀ character ∈ ('.' :: (fraction ++ ['%'])).head?,
          isDecimalDigit character = false := by
        rintro _ ⟨⟩
        decide
      rw [take?, chars, Option.elim_some, List.append_assoc, List.cons_append]
      dsimp only
      rw [takeWhile_append_stop digits point, dropWhile_append_stop digits point, notEmpty,
        if_neg Bool.false_ne_true]
      simp only [takeWhile_append_stop further stops, dropWhile_append_stop further stops,
        alsoNotEmpty, Bool.false_eq_true, if_false]

def percentage (numeral : AnyNumeral) : List Char := numeral.chars ++ ['%']

private theorem anyPercentage?_eq_some_iff :
    anyPercentage? word = some numeral ↔ numeral.IsWritten ∧ word = numeral.percentage := by
  rw [anyPercentage?]
  constructor
  · intro found
    split at found
    next other taken =>
      cases found
      exact take?_isWritten taken
    next => cases found
  · rintro ⟨written, rfl⟩
    simp only [percentage, take?_percent written]

private theorem mapM_anyPercentage?_eq_some_iff {words : List (List Char)}
    {numerals : List AnyNumeral} :
    words.mapM anyPercentage? = some numerals ↔
      (∀ numeral ∈ numerals, numeral.IsWritten) ∧ words = numerals.map percentage := by
  induction words generalizing numerals with
  | nil => cases numerals <;> simp
  | cons word words induction =>
      simp only [List.mapM_cons, Option.pure_def, Option.bind_eq_bind, Option.bind_eq_some_iff,
        anyPercentage?_eq_some_iff, induction, Option.some.injEq]
      constructor
      · rintro ⟨numeral, ⟨own, rfl⟩, others, ⟨further, rfl⟩, rfl⟩
        exact ⟨List.forall_mem_cons.mpr ⟨own, further⟩, rfl⟩
      · rintro ⟨written, same⟩
        cases numerals with
        | nil => cases same
        | cons numeral others =>
            rcases List.forall_mem_cons.mp written with ⟨own, further⟩
            cases same
            exact ⟨numeral, ⟨own, rfl⟩, others, ⟨further, rfl⟩, rfl⟩

/-- Only what is written in ASCII digits is compared, and only to half a unit of the last place
of a hundred. -/
private theorem exceedsHundred_iff :
    numeral.exceedsHundred = true ↔ numeral.IsAscii ∧ 100 + 1 / 2 ^ 47 < numeral.amount := by
  have ascii : (numeral.whole ++ numeral.fraction.getD []).all isDigit = true ↔ numeral.IsAscii :=
    List.all_eq_true
  rw [exceedsHundred, value?]
  by_cases holds : numeral.IsAscii
  · rw [if_pos (ascii.mpr holds), Option.any_some, hundred_less_ofDecimal_iff, amount,
      decimalDigitsValue_of_isDigit holds]
    exact (and_iff_right holds).symm
  · rw [if_neg (ascii.not.mpr holds), Option.any_none]
    exact iff_of_false Bool.false_ne_true fun both => holds both.1

end

end AnyNumeral

/-! ## Areas -/

/-- Four percentages with blanks between them, in decimal digits of any script. -/
structure IsArea (text : String) (numerals : List AnyNumeral) : Prop where
  four : numerals.length = 4
  written : ∀ numeral ∈ numerals, numeral.IsWritten
  spaced : Spaced (numerals.map AnyNumeral.percentage) text.toList

section

variable {text : String} {numerals others : List AnyNumeral}

private theorem activeArea?_eq_some_iff :
    activeArea? text = some numerals ↔ IsArea text numerals := by
  rw [activeArea?, Option.ite_none_right_eq_some, AnyNumeral.mapM_anyPercentage?_eq_some_iff]
  constructor
  · rintro ⟨four, written, cut⟩
    rw [cut, List.length_map] at four
    refine ⟨four, written, (wordsWithin_eq_iff fun none => ?_).mp cut⟩
    rw [List.map_eq_nil_iff.mp none] at four
    cases four
  · rintro ⟨four, written, spaced⟩
    have cut := (wordsWithin_eq_iff spaced.words_ne_nil).mpr spaced
    exact ⟨by rw [cut, List.length_map, four], written, cut⟩

theorem IsArea.unique (area : IsArea text numerals) (also : IsArea text others) :
    numerals = others :=
  Option.some.inj ((activeArea?_eq_some_iff.mpr area).symm.trans (activeArea?_eq_some_iff.mpr also))

def givenActiveArea (root : Element) : Option String :=
  root.attribute? (Name.qualified Vocabulary.internetParameter "activeArea")

theorem checkActiveArea_valid_iff {root : Element} (required : Bool)
    (given : givenActiveArea root = some text) :
    (checkActiveArea required root).valid = true ↔
      ∃ numerals, IsArea text numerals ∧
        ∀ numeral ∈ numerals, numeral.IsAscii → numeral.amount ≤ 100 + 1 / 2 ^ 47 := by
  rw [givenActiveArea] at given
  rw [checkActiveArea, given]
  dsimp only
  cases found : activeArea? text with
  | none =>
      refine iff_of_false Bool.false_ne_true ?_
      rintro ⟨numerals, area, _⟩
      cases found.symm.trans (activeArea?_eq_some_iff.mpr area)
  | some numerals =>
      have area := activeArea?_eq_some_iff.mp found
      have within : numerals.any (·.exceedsHundred) = false ↔
          ∀ numeral ∈ numerals, numeral.IsAscii → numeral.amount ≤ 100 + 1 / 2 ^ 47 := by
        simp only [List.any_eq_false, AnyNumeral.exceedsHundred_iff, not_and, not_lt]
      dsimp only
      cases exceeds : numerals.any (·.exceedsHundred) with
      | true =>
          rw [exceeds] at within
          refine iff_of_false Bool.false_ne_true ?_
          rintro ⟨others, also, small⟩
          cases area.unique also
          exact Bool.noConfusion (within.mpr small)
      | false => exact iff_of_true rfl ⟨numerals, area, within.mp exceeds⟩

def IsAreaWithinHundred (text : String) : Prop :=
  ∃ numerals, IsArea text numerals ∧ ∀ numeral ∈ numerals, numeral.amount ≤ 100

/-- An active area that has a percentage of more than a hundred and is accepted: each such
percentage is written in digits of another script, or less than half a unit of the last place of
a hundred too great. -/
def IsOverlookedArea (text : String) : Prop :=
  ∃ numerals, IsArea text numerals ∧ (∃ numeral ∈ numerals, 100 < numeral.amount) ∧
    ∀ numeral ∈ numerals, 100 < numeral.amount →
      ¬numeral.IsAscii ∨ numeral.amount ≤ 100 + 1 / 2 ^ 47

/-- An active area is accepted if it is four percentages of which none in ASCII digits is more
than a hundred after rounding. So those are accepted that ought to be, and besides them exactly
the ones that are overlooked. -/
theorem checkActiveArea_accepts_iff (required : Bool) (root : Element) :
    ∀ text ∈ givenActiveArea root,
      ((checkActiveArea required root).valid = true ↔
        IsAreaWithinHundred text ∨ IsOverlookedArea text) ∧
      (((checkActiveArea required root).valid = true ↔ IsAreaWithinHundred text) ↔
        ¬IsOverlookedArea text) := by
  intro text given
  have valid := checkActiveArea_valid_iff required given
  have apart (overlooked : IsOverlookedArea text) : ¬IsAreaWithinHundred text := by
    rintro ⟨numerals, area, within⟩
    rcases overlooked with ⟨others, also, ⟨numeral, member, exceeds⟩, _⟩
    cases area.unique also
    exact absurd (within numeral member) exceeds.not_ge
  have accepted : (checkActiveArea required root).valid = true ↔
      IsAreaWithinHundred text ∨ IsOverlookedArea text := by
    rw [valid]
    constructor
    · rintro ⟨numerals, area, small⟩
      by_cases within : ∀ numeral ∈ numerals, numeral.amount ≤ 100
      · exact .inl ⟨numerals, area, within⟩
      · push Not at within
        refine .inr ⟨numerals, area, within, fun numeral member _ => ?_⟩
        exact or_iff_not_imp_left.mpr fun ascii => small numeral member (not_not.mp ascii)
    · rintro (⟨numerals, area, within⟩ | ⟨numerals, area, _, overlooked⟩)
      · refine ⟨numerals, area, fun numeral member _ => (within numeral member).trans ?_⟩
        norm_num
      · refine ⟨numerals, area, fun numeral member ascii => ?_⟩
        by_contra exceeds
        have past : 100 < numeral.amount := lt_trans (by norm_num) (not_le.mp exceeds)
        exact (overlooked numeral member past).elim (absurd ascii) exceeds
  refine ⟨accepted, ?_⟩
  rw [accepted]
  constructor
  · exact fun agree overlooked => apart overlooked (agree.mp (.inr overlooked))
  · exact fun none => or_iff_left none

theorem checkActiveArea_accepts_iff_arabic :
    ∃ root : Element, "٢٠٠% 0% 0% 0%" ∈ givenActiveArea root ∧
      IsOverlookedArea "٢٠٠% 0% 0% 0%" ∧ (checkActiveArea true root).valid = true ∧
      ¬((checkActiveArea true root).valid = true ↔ IsAreaWithinHundred "٢٠٠% 0% 0% 0%") := by
  obtain ⟨root, given⟩ : ∃ root : Element, "٢٠٠% 0% 0% 0%" ∈ givenActiveArea root :=
    ⟨⟨"tt", [(Name.qualified Vocabulary.internetParameter "activeArea", "٢٠٠% 0% 0% 0%")], [],
      none, none⟩, by decide⟩
  have area : IsArea "٢٠٠% 0% 0% 0%"
      [⟨['٢', '٠', '٠'], none⟩, ⟨['0'], none⟩, ⟨['0'], none⟩, ⟨['0'], none⟩] :=
    activeArea?_eq_some_iff.mp rfl
  have most : AnyNumeral.amount ⟨['٢', '٠', '٠'], none⟩ = 200 := by
    rw [AnyNumeral.amount, show decimalDigitsValue _ = 200 from rfl]
    norm_num
  have least : AnyNumeral.amount ⟨['0'], none⟩ = 0 := by
    rw [AnyNumeral.amount, show decimalDigitsValue _ = 0 from rfl]
    norm_num
  have overlooked : IsOverlookedArea "٢٠٠% 0% 0% 0%" := by
    refine ⟨_, area, ⟨_, List.mem_cons_self, by norm_num [most]⟩, ?_⟩
    simp only [List.forall_mem_cons, List.not_mem_nil, false_imp_iff, implies_true, and_true,
      least]
    refine ⟨fun _ => .inl fun ascii => ?_, by norm_num⟩
    exact absurd (ascii '٢' List.mem_cons_self) (by decide)
  rcases checkActiveArea_accepts_iff true root _ given with ⟨accepted, agree⟩
  exact ⟨root, given, overlooked, accepted.mpr (.inr overlooked),
    fun same => agree.mp same overlooked⟩

end

end TimedText.Check
