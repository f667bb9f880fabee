import TimedText.Proofs.Number.Decimal
import TimedText.Proofs.Text.Digit
import TimedText.Proofs.Text.Words
import TimedText.Proofs.Time.Grammar
import TimedText.Timing.Overlap
/-!
Pairs of percentages. What may stand in one is told from its digits alone: after any zeros there
are two of them at most, or a hundred with nothing but zeros after the point. These are the
numerals whose exact value is at most a hundred, however many digits they have, and each of them
is read as a number.
-/

namespace TimedText.Number

open Text

private theorem Numeral.amount_le_iff (numeral : Numeral) (bound : Nat) :
    numeral.amount ≤ bound ↔ digitsValue 10 numeral.whole < bound ∨
      digitsValue 10 numeral.whole = bound ∧ digitsValue 10 (numeral.fraction.getD []) = 0 := by
  have below := digitsValue_lt (numeral.fraction.getD [])
  generalize places : (numeral.fraction.getD []).length = length at below
  rw [amount, places, div_le_iff₀ (by positivity), digitsValue_append, places]
  generalize digitsValue 10 (numeral.fraction.getD []) = rest at below
  generalize digitsValue 10 numeral.whole = whole
  have exact : ((whole * 10 ^ length + rest : Nat) : ℚ) ≤ bound * 10 ^ length ↔
      whole * 10 ^ length + rest ≤ bound * 10 ^ length := by
    exact_mod_cast Iff.rfl
  rw [exact]
  rcases lt_trichotomy whole bound with less | rfl | more
  · have next : (whole + 1) * 10 ^ length ≤ bound * 10 ^ length := Nat.mul_le_mul_right _ less
    rw [Nat.succ_mul] at next
    exact iff_of_true (by omega) (.inl less)
  · omega
  · have next : (bound + 1) * 10 ^ length ≤ whole * 10 ^ length := Nat.mul_le_mul_right _ more
    rw [Nat.succ_mul] at next
    have positive : 0 < 10 ^ length := Nat.pow_pos (by decide)
    exact iff_of_false (by omega) (by omega)

private theorem Numeral.amount_nonneg (numeral : Numeral) : 0 ≤ numeral.amount := by
  rw [amount]
  positivity

end TimedText.Number

namespace TimedText.Style

open Number Text Time
open scoped Computability

/-! ## Bounds -/

section

variable {numeral : Numeral} {characters : List Char}

private theorem isWithinHundred_iff (written : numeral.IsWritten) :
    isWithinHundred numeral = true ↔ numeral.amount ≤ 100 := by
  have short := digitsValue_lt_iff written.whole 2
  have hundred : numeral.whole.dropWhile (· == '0') = ['1', '0', '0'] ↔
      digitsValue 10 numeral.whole = 100 := by
    have value : digitsValue 10 ['1', '0', '0'] = 100 := by decide +kernel
    rw [← digitsValue_dropWhile_zero numeral.whole, ← value]
    refine ⟨congrArg _, fun same => ?_⟩
    have shortest := digitsValue_lt_iff written.whole 3
    rw [← digitsValue_dropWhile_zero numeral.whole] at short shortest
    have suffix := List.dropWhile_suffix (l := numeral.whole) (· == '0')
    refine eq_of_digitsValue_eq ?_
      (fun character member => written.whole character (suffix.subset member))
      (List.all_eq_true.mp rfl) same
    change _ = 3
    omega
  have bound := numeral.amount_le_iff 100
  rw [Nat.cast_ofNat] at bound
  rw [bound, isWithinHundred, Bool.or_eq_true, Bool.and_eq_true, decide_eq_true_eq,
    decide_eq_true_eq, hundred, ← short, ← digitsValue_eq_zero_iff written.isDigit_of_mem_fraction]

/-! ## The pattern -/

def zeros : Language Char := (oneOf (· == '0'))∗

/-- After any number of zeros, a hundred with nothing but zeros after the point, or one or two
digits with any fraction. -/
def withinHundred : Language Char :=
  zeros * ({['1', '0', '0']} * (1 + oneOf (· == '.') * someOf (· == '0'))
    + (oneOf isDigit + twoDigits) * fraction)

def pairPattern : Language Char :=
  withinHundred * {['%']} * someOf isBlank * (withinHundred * {['%']})

private theorem isDigit_of_zero {character : Char} (zero : (character == '0') = true) :
    isDigit character = true := by
  cases beq_iff_eq.mp zero
  decide

private theorem significant_append {front : List Char} (member : front ∈ zeros) (rest : List Char) :
    (front ++ rest).dropWhile (· == '0') = rest.dropWhile (· == '0') :=
  List.dropWhile_append_of_pos (mem_kstar_oneOf_iff.mp member)

private theorem takeWhile_mem_zeros (digits : List Char) :
    digits.takeWhile (· == '0') ∈ zeros :=
  mem_kstar_oneOf_iff.mpr (List.all_eq_true.mp List.all_takeWhile)

private theorem mem_short_iff :
    characters ∈ oneOf isDigit + twoDigits ↔
      characters ∈ someOf isDigit ∧ characters.length ≤ 2 := by
  rw [Language.mem_add, mem_twoDigits_iff, mem_oneOf_iff, mem_someOf_iff]
  constructor
  · rintro (⟨digit, own, rfl⟩ | ⟨two, digits⟩)
    · exact ⟨⟨List.cons_ne_nil _ _, List.forall_mem_singleton.mpr own⟩, by simp⟩
    · exact ⟨⟨List.length_pos_iff.mp (by omega), digits⟩, two.le⟩
  · rintro ⟨⟨begun, digits⟩, short⟩
    match characters with
    | [digit] => exact .inl ⟨digit, digits digit List.mem_cons_self, rfl⟩
    | [_, _] => exact .inr ⟨rfl, digits⟩

private theorem mem_zeros_mul_short_iff :
    characters ∈ zeros * (oneOf isDigit + twoDigits) ↔
      characters ∈ someOf isDigit ∧ (characters.dropWhile (· == '0')).length ≤ 2 := by
  rw [Language.mem_mul]
  constructor
  · rintro ⟨front, before, rest, short, rfl⟩
    rcases mem_short_iff.mp short with ⟨digits, few⟩
    rcases mem_someOf_iff.mp digits with ⟨begun, all⟩
    refine ⟨mem_someOf_iff.mpr ⟨List.append_ne_nil_of_right_ne_nil _ begun,
      List.forall_mem_append.mpr ⟨fun digit member => ?_, all⟩⟩, ?_⟩
    · exact isDigit_of_zero (mem_kstar_oneOf_iff.mp before digit member)
    · rw [significant_append before]
      exact (List.dropWhile_suffix _).length_le.trans few
  · rintro ⟨digits, few⟩
    rcases mem_someOf_iff.mp digits with ⟨begun, all⟩
    rcases eq_or_ne (characters.dropWhile (· == '0')) [] with none | some
    · -- Of nothing but zeros the last one is left.
      have nothing := List.dropWhile_eq_nil_iff.mp none
      refine ⟨characters.dropLast, mem_kstar_oneOf_iff.mpr fun digit member =>
        nothing digit (List.mem_of_mem_dropLast member), [characters.getLast begun], .inl
          ⟨_, all _ (List.getLast_mem begun), rfl⟩, List.dropLast_append_getLast begun⟩
    · refine ⟨_, takeWhile_mem_zeros characters, _, mem_short_iff.mpr
        ⟨mem_someOf_iff.mpr ⟨some, fun digit member => ?_⟩, few⟩,
        List.takeWhile_append_dropWhile⟩
      exact all digit ((List.dropWhile_suffix _).subset member)

private theorem mem_zeros_mul_hundred_iff :
    characters ∈ zeros * {['1', '0', '0']} ↔
      characters.dropWhile (· == '0') = ['1', '0', '0'] := by
  rw [Language.mem_mul]
  constructor
  · rintro ⟨front, before, _, rfl, rfl⟩
    rw [significant_append before]
    rfl
  · intro hundred
    exact ⟨_, takeWhile_mem_zeros characters, _, hundred, List.takeWhile_append_dropWhile⟩

private theorem zeros_mul_hundred_le : zeros * {['1', '0', '0']} ≤ someOf isDigit := by
  rintro _ ⟨front, before, _, rfl, rfl⟩
  refine mem_someOf_iff.mpr ⟨by simp, List.forall_mem_append.mpr ⟨fun digit member => ?_, ?_⟩⟩
  · exact isDigit_of_zero (mem_kstar_oneOf_iff.mp before digit member)
  · exact List.all_eq_true.mp rfl

private theorem mem_withinHundred_iff :
    characters ∈ withinHundred ↔
      ∃ numeral : Numeral, numeral.IsWritten ∧ isWithinHundred numeral = true ∧
        numeral.chars = characters := by
  have branches : withinHundred =
      zeros * {['1', '0', '0']} * (1 + oneOf (· == '.') * someOf (· == '0'))
        + zeros * (oneOf isDigit + twoDigits) * fraction := by
    rw [withinHundred, mul_add, mul_assoc, mul_assoc]
  rw [branches, Language.mem_add,
    mem_mul_pointed_iff zeros_mul_hundred_le fun _ zero => isDigit_of_zero zero,
    mem_mul_fraction_iff fun _ short => (mem_zeros_mul_short_iff.mp short).1]
  simp only [mem_zeros_mul_hundred_iff, mem_zeros_mul_short_iff, isWithinHundred,
    Bool.or_eq_true, Bool.and_eq_true, decide_eq_true_eq, List.all_eq_true]
  constructor
  · rintro (⟨numeral, written, hundred, nothing, same⟩ | ⟨numeral, written, ⟨-, few⟩, same⟩)
    · exact ⟨numeral, written, .inr ⟨hundred, nothing⟩, same⟩
    · exact ⟨numeral, written, .inl few, same⟩
  · rintro ⟨numeral, written, few | ⟨hundred, nothing⟩, same⟩
    · exact .inr ⟨numeral, written, ⟨mem_someOf_iff.mpr ⟨written.begun, written.whole⟩, few⟩, same⟩
    · exact .inl ⟨numeral, written, hundred, nothing, same⟩

/-! ## Pairs -/

private theorem boundedPercentage?_eq_some_iff :
    boundedPercentage? characters = some numeral ↔
      numeral.IsWritten ∧ isWithinHundred numeral = true ∧
        characters = numeral.chars ++ ['%'] := by
  rw [boundedPercentage?, Option.filter_eq_some_iff, numeralBefore?_eq_some_iff (by decide)]
  exact ⟨fun ⟨⟨written, same⟩, within⟩ => ⟨written, within, same⟩,
    fun ⟨written, within, same⟩ => ⟨⟨written, same⟩, within⟩⟩

private theorem percentage_mem_word (written : numeral.IsWritten) :
    numeral.chars ++ ['%'] ∈ someOf fun character => !isBlank character := by
  refine mem_word_iff.mpr ⟨List.append_ne_nil_of_right_ne_nil _ (List.cons_ne_nil _ _),
    List.forall_mem_append.mpr ⟨fun character member => ?_, List.forall_mem_singleton.mpr ?_⟩⟩
  · rcases isDigit_or_point_of_mem_chars written character member with digit | rfl
    · refine Bool.eq_false_iff.mpr fun blank => ?_
      exact Bool.noConfusion ((isDigit_of_isBlank blank).symm.trans digit)
    · decide
  · decide

end

structure IsShare (numeral : Numeral) : Prop where
  written : numeral.IsWritten
  nonneg : 0 ≤ numeral.amount
  within : numeral.amount ≤ 100

/-- The text consists of two numerals, each with a percent sign, and some blanks between them. -/
def IsPairOf (first second : Numeral) (text : String) : Prop :=
  IsShare first ∧ IsShare second ∧ ∃ gap ∈ someOf isBlank,
    text.toList = first.chars ++ ['%'] ++ (gap ++ (second.chars ++ ['%']))

section

variable {first second numeral : Numeral} {text : String}

private theorem isShare_iff :
    IsShare numeral ↔ numeral.IsWritten ∧ isWithinHundred numeral = true :=
  ⟨fun share => ⟨share.written, (isWithinHundred_iff share.written).mpr share.within⟩,
    fun ⟨written, within⟩ =>
      ⟨written, numeral.amount_nonneg, (isWithinHundred_iff written).mp within⟩⟩

theorem readPair?_eq_some_iff :
    readPair? text = some (first, second) ↔ IsPairOf first second text := by
  rw [readPair?]
  constructor
  · intro found
    split at found
    next one other cut =>
      split at found
      next one? other? =>
        cases found
        rcases boundedPercentage?_eq_some_iff.mp one? with ⟨written, within, rfl⟩
        rcases boundedPercentage?_eq_some_iff.mp other? with ⟨alsoWritten, alsoWithin, rfl⟩
        rcases spaced_pair_iff.mp ((wordsWithin_eq_iff (List.cons_ne_nil _ _)).mp cut)
          with ⟨-, -, gap, apart, same⟩
        exact ⟨isShare_iff.mpr ⟨written, within⟩, isShare_iff.mpr ⟨alsoWritten, alsoWithin⟩,
          gap, apart, same⟩
      next => cases found
    next => cases found
  · rintro ⟨one, other, gap, apart, same⟩
    have cut : wordsWithin text.toList = [first.chars ++ ['%'], second.chars ++ ['%']] :=
      (wordsWithin_eq_iff (List.cons_ne_nil _ _)).mpr (spaced_pair_iff.mpr
        ⟨percentage_mem_word one.written, percentage_mem_word other.written, gap, apart, same⟩)
    have read {numeral : Numeral} (share : IsShare numeral) :
        boundedPercentage? (numeral.chars ++ ['%']) = some numeral :=
      boundedPercentage?_eq_some_iff.mpr
        ⟨share.written, (isShare_iff.mp share).2, rfl⟩
    rw [cut]
    dsimp only
    rw [read one, read other]

theorem isPair_iff : isPair text = true ↔ ∃ first second, IsPairOf first second text := by
  rw [isPair, Option.isSome_iff_exists, Prod.exists]
  simp only [readPair?_eq_some_iff]

theorem mem_pairPattern_iff :
    text.toList ∈ pairPattern ↔ ∃ first second, IsPairOf first second text := by
  have percentage {characters : List Char} : characters ∈ withinHundred * {['%']} ↔
      ∃ numeral, IsShare numeral ∧ characters = numeral.chars ++ ['%'] := by
    rw [Language.mem_mul]
    constructor
    · rintro ⟨_, matched, _, rfl, rfl⟩
      rcases mem_withinHundred_iff.mp matched with ⟨numeral, written, within, rfl⟩
      exact ⟨numeral, isShare_iff.mpr ⟨written, within⟩, rfl⟩
    · rintro ⟨numeral, share, rfl⟩
      rcases isShare_iff.mp share with ⟨written, within⟩
      exact ⟨_, mem_withinHundred_iff.mpr ⟨numeral, written, within, rfl⟩, _, rfl, rfl⟩
  rw [pairPattern, mul_assoc, Language.mem_mul]
  simp only [Language.mem_mul, percentage]
  constructor
  · rintro ⟨_, ⟨first, one, rfl⟩, _, ⟨gap, apart, _, ⟨second, other, rfl⟩, rfl⟩, same⟩
    exact ⟨first, second, one, other, gap, apart, same.symm⟩
  · rintro ⟨first, second, one, other, gap, apart, same⟩
    exact ⟨_, ⟨first, one, rfl⟩, _, ⟨gap, apart, _, ⟨second, other, rfl⟩, rfl⟩, same.symm⟩

/-! ## Values -/

theorem read?_toFloat (written : numeral.IsWritten) :
    read? (String.ofList numeral.chars) = some numeral.toFloat ∧
      RoundsTo numeral.toFloat numeral.amount := by
  have computed : RoundsTo numeral.toFloat numeral.amount := ofDecimal_roundsTo_div _ _
  rcases read?_numeral written with ⟨number, read, rounds⟩
  exact ⟨read.trans (congrArg some (rounds.unique computed)), computed⟩

/-- A text is taken for a pair of percentages if and only if the pattern matches it, and the
pattern matches if and only if the text consists of two numerals of exact values from zero to a
hundred, each with a percent sign, and some blanks between them. The numerals that are found are
those two, and each of them is read as the number nearest to its value. -/
theorem isPair_iff_shares (text : String) :
    (isPair text = true ↔ text.toList ∈ pairPattern) ∧
      (isPair text = true ↔ ∃ first second, IsPairOf first second text) ∧
      (∀ first second, readPair? text = some (first, second) ↔ IsPairOf first second text) ∧
      ∀ first second, readPair? text = some (first, second) →
        ∃ x y, read? (String.ofList first.chars) = some x ∧
          read? (String.ofList second.chars) = some y ∧
          RoundsTo x first.amount ∧ RoundsTo y second.amount ∧
          Timing.pairValue? text = some (x, y) := by
  refine ⟨isPair_iff.trans mem_pairPattern_iff.symm, isPair_iff,
    fun first second => readPair?_eq_some_iff, fun first second found => ?_⟩
  rcases readPair?_eq_some_iff.mp found with ⟨one, other, -⟩
  rcases read?_toFloat one.written with ⟨x, xRounds⟩
  rcases read?_toFloat other.written with ⟨y, yRounds⟩
  refine ⟨_, _, x, y, xRounds, yRounds, ?_⟩
  rw [Timing.pairValue?, found]
  rfl

end

theorem isPair_iff_shares_padded :
    "007.25%\u2003000100.00%".toList ∈ pairPattern ∧ "100.01% 0%".toList ∉ pairPattern ∧
      ∃ x y, read? "007.25" = some x ∧ read? "000100.00" = some y ∧
        RoundsTo x (29 / 4) ∧ RoundsTo y 100 ∧
        Timing.pairValue? "007.25%\u2003000100.00%" = some (x, y) := by
  have found : readPair? "007.25%\u2003000100.00%" = some
      (⟨['0', '0', '7'], some ['2', '5']⟩, ⟨"000100".toList, some ['0', '0']⟩) := by
    decide +kernel
  rcases isPair_iff_shares "007.25%\u2003000100.00%" with ⟨pattern, -, -, values⟩
  rcases isPair_iff_shares "100.01% 0%" with ⟨excess, -, -, -⟩
  refine ⟨pattern.mp (by decide +kernel), fun matched => ?_, ?_⟩
  · exact absurd (excess.mpr matched) (by decide +kernel)
  · rcases values _ _ found with ⟨x, y, xRead, yRead, xRounds, yRounds, value⟩
    refine ⟨x, y, xRead, yRead, ?_, ?_, value⟩
    · have amount : Numeral.amount ⟨['0', '0', '7'], some ['2', '5']⟩ = 29 / 4 := by
        have digits : digitsValue 10 ['0', '0', '7', '2', '5'] = 725 := by decide +kernel
        change (digitsValue 10 ['0', '0', '7', '2', '5'] : ℚ) / 10 ^ 2 = 29 / 4
        rw [digits]
        norm_num
      exact amount ▸ xRounds
    · have amount : Numeral.amount ⟨"000100".toList, some ['0', '0']⟩ = 100 := by
        have digits : digitsValue 10 "00010000".toList = 10000 := by decide +kernel
        change (digitsValue 10 "00010000".toList : ℚ) / 10 ^ 2 = 100
        rw [digits]
        norm_num
      exact amount ▸ yRounds

end TimedText.Style
