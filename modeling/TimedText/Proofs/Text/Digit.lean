import Mathlib.Data.List.Basic
import Mathlib.Tactic.Ring
import TimedText.Proofs.Number.Reading
import TimedText.Text.Blank
/-!
Decimal digits of any script. Each has a value from zero to nine, which for the ASCII digits is
the one that they are read with, and none is a blank.
-/

namespace TimedText.Text

open Number

/-! ## Values -/

/-- The value of a decimal digit. The digits of a script follow each other from its zero on, and
where several scripts share a range each has ten characters of it. -/
def decimalDigitValue (character : Char) : Nat :=
  let range? := decimalDigitRanges.find? fun (first, last) =>
    first ≤ character.toNat && character.toNat ≤ last
  (range?.map fun (first, _) => (character.toNat - first) % 10).getD 0

def decimalDigitsValue (digits : List Char) : Nat :=
  digits.foldl (fun value digit => value * 10 + decimalDigitValue digit) 0

example : decimalDigitsValue ['٢', '0', '०'] = 200 := by decide

section

variable {character : Char} {digits : List Char}

private theorem digitValue?_of_isDigit (digit : isDigit character = true) :
    digitValue? 10 character = some (character.toNat - 48) := by
  have bounds := isDigit_iff.mp digit
  have small : character.toNat - '0'.toNat < 10 := by
    change character.toNat - 48 < 10
    omega
  rw [digitValue?, if_pos digit]
  exact Option.filter_some_pos (decide_eq_true small)

theorem isSome_digitValue?_decimal (character : Char) :
    (digitValue? 10 character).isSome = isDigit character := by
  cases digit : isDigit character with
  | true => rw [digitValue?_of_isDigit digit, Option.isSome_some]
  | false =>
      rw [digitValue?, digit, if_neg Bool.false_ne_true]
      repeat' split
      all_goals simp

theorem isSome_digitValue?_hexadecimal (character : Char) :
    (digitValue? 16 character).isSome = isHexDigit character := by
  have code_le {high : Char} (small : character ≤ high) : character.toNat ≤ high.toNat := by
    rwa [Char.le_def, UInt32.le_iff_toNat_le] at small
  rw [digitValue?, isHexDigit]
  split
  next digit =>
    have code := (isDigit_iff.mp digit).2
    have small : character.toNat - 48 < 16 := by omega
    simpa [digit] using small
  next notDigit =>
    split
    next lower =>
      have code : character.toNat ≤ 102 := code_le lower.2
      have small : character.toNat - 97 + 10 < 16 := by omega
      simpa [lower] using small
    next notLower =>
      split
      next upper =>
        have code : character.toNat ≤ 70 := code_le upper.2
        have small : character.toNat - 65 + 10 < 16 := by omega
        simpa [upper] using small
      next notUpper => simp [notDigit, ← Bool.decide_and, notLower, notUpper]

private theorem decimalDigitValue_of_isDigit (digit : isDigit character = true) :
    decimalDigitValue character = (digitValue? 10 character).getD 0 := by
  have bounds := isDigit_iff.mp digit
  rw [digitValue?_of_isDigit digit, decimalDigitValue, decimalDigitRanges,
    List.find?_cons_of_pos (by simpa using bounds)]
  change (character.toNat - 48) % 10 = character.toNat - 48
  omega

theorem decimalDigitsValue_of_isDigit
    (ascii : ∀ character ∈ digits, isDigit character = true) :
    decimalDigitsValue digits = digitsValue 10 digits := by
  refine List.foldl_ext _ _ 0 fun value digit member => ?_
  rw [decimalDigitValue_of_isDigit (ascii digit member)]

theorem digitsValue_eq_zero_iff (ascii : ∀ character ∈ digits, isDigit character = true) :
    digitsValue 10 digits = 0 ↔ digits.all (· == '0') = true := by
  -- Of the digits on the left it only matters whether they name zero.
  suffices general : ∀ start, digits.foldl
      (fun value digit => value * 10 + (digitValue? 10 digit).getD 0) start = 0
      ↔ start = 0 ∧ digits.all (· == '0') = true by simpa [digitsValue] using general 0
  induction digits with
  | nil => simp
  | cons digit digits induction =>
      intro start
      rcases List.forall_mem_cons.mp ascii with ⟨own, further⟩
      have least := (isDigit_iff.mp own).1
      have zero : digit = '0' ↔ digit.toNat = 48 :=
        ⟨fun same => same ▸ rfl, fun same => Char.toNat_inj.mp same⟩
      rw [List.foldl_cons, induction further, digitValue?_of_isDigit own, Option.getD_some,
        List.all_cons, Bool.and_eq_true, beq_iff_eq, zero, ← and_assoc]
      refine and_congr_left' ?_
      omega

theorem digitsValue_append (digits further : List Char) :
    digitsValue 10 (digits ++ further)
      = digitsValue 10 digits * 10 ^ further.length + digitsValue 10 further := by
  have start (value : Nat) : further.foldl
      (fun value digit => value * 10 + (digitValue? 10 digit).getD 0) value
      = value * 10 ^ further.length + digitsValue 10 further := by
    rw [digitsValue]
    induction further generalizing value with
    | nil => simp
    | cons digit further induction =>
        rw [List.foldl_cons, List.foldl_cons, induction, induction (0 * 10 + _), List.length_cons]
        ring
  rw [digitsValue, List.foldl_append, start]
  rfl

theorem digitsValue_dropWhile_zero (digits : List Char) :
    digitsValue 10 (digits.dropWhile (· == '0')) = digitsValue 10 digits := by
  induction digits with
  | nil => rfl
  | cons digit digits induction =>
      rw [List.dropWhile_cons]
      split
      next zero =>
        cases beq_iff_eq.mp zero
        exact induction
      next => rfl

private theorem digitsValue_cons (digit : isDigit character = true) (digits : List Char) :
    digitsValue 10 (character :: digits)
      = (character.toNat - 48) * 10 ^ digits.length + digitsValue 10 digits := by
  have single : digitsValue 10 [character] = character.toNat - 48 := by
    change 0 * 10 + (digitValue? 10 character).getD 0 = _
    rw [digitValue?_of_isDigit digit, Option.getD_some, zero_mul, zero_add]
  rw [← single]
  exact digitsValue_append [character] digits

private theorem le_digitsValue (digit : isDigit character = true) (significant : character ≠ '0')
    (digits : List Char) :
    10 ^ digits.length ≤ digitsValue 10 (character :: digits) := by
  have bounds := isDigit_iff.mp digit
  have notZero : character.toNat ≠ 48 := fun same => significant (Char.toNat_inj.mp same)
  rw [digitsValue_cons digit]
  exact (Nat.le_mul_of_pos_left _ (by omega)).trans (Nat.le_add_right _ _)

theorem digitsValue_lt_iff (ascii : ∀ character ∈ digits, isDigit character = true)
    (places : Nat) :
    digitsValue 10 digits < 10 ^ places ↔ (digits.dropWhile (· == '0')).length ≤ places := by
  rw [← digitsValue_dropWhile_zero digits]
  constructor
  · intro below
    cases significant : digits.dropWhile (· == '0') with
    | nil => exact Nat.zero_le _
    | cons first further =>
        rw [significant] at below
        have begins := (List.dropWhile_suffix (l := digits) (· == '0')).subset
        rw [significant] at begins
        have notZero : first ≠ '0' := fun zero =>
          absurd (List.head?_dropWhile_not (· == '0') digits) (by simp [significant, zero])
        have least := le_digitsValue (ascii first (begins List.mem_cons_self)) notZero further
        exact (Nat.pow_lt_pow_iff_right (by decide)).mp (least.trans_lt below)
  · intro short
    calc digitsValue 10 (digits.dropWhile (· == '0'))
      _ < 10 ^ (digits.dropWhile (· == '0')).length := digitsValue_lt _
      _ ≤ 10 ^ places := Nat.pow_le_pow_right (by decide) short

theorem eq_of_digitsValue_eq {others : List Char} (long : digits.length = others.length)
    (ascii : ∀ character ∈ digits, isDigit character = true)
    (alsoAscii : ∀ character ∈ others, isDigit character = true)
    (same : digitsValue 10 digits = digitsValue 10 others) : digits = others := by
  induction digits generalizing others with
  | nil => exact (List.length_eq_zero_iff.mp long.symm).symm
  | cons digit digits induction =>
      cases others with
      | nil => cases long
      | cons other others =>
          have long := Nat.succ.inj long
          rcases List.forall_mem_cons.mp ascii with ⟨own, further⟩
          rcases List.forall_mem_cons.mp alsoAscii with ⟨also, alsoFurther⟩
          have cut (value : Nat) {rest : Nat} (below : rest < 10 ^ others.length) :
              (value * 10 ^ others.length + rest) / 10 ^ others.length = value := by
            rw [Nat.mul_comm, Nat.mul_add_div (Nat.pow_pos (by decide)), Nat.div_eq_of_lt below,
              Nat.add_zero]
          have below := long ▸ digitsValue_lt digits
          rw [digitsValue_cons own, digitsValue_cons also, long] at same
          have value : digit.toNat - 48 = other.toNat - 48 := by
            rw [← cut (digit.toNat - 48) below, same, cut _ (digitsValue_lt others)]
          have bounds := isDigit_iff.mp own
          have alsoBounds := isDigit_iff.mp also
          have alike : digit = other := Char.toNat_inj.mp (by omega)
          rw [value] at same
          rw [alike, induction long further alsoFurther (Nat.add_left_cancel same)]

theorem readNatural?_eq_some_iff (begun : digits ≠ [])
    (decimal : ∀ digit ∈ digits, isDecimalDigit digit = true) {bound number : Nat} :
    readNatural? bound (String.ofList digits) = some number ↔
      (∀ digit ∈ digits, isDigit digit = true) ∧ number < bound ∧
        digitsValue 10 digits = number := by
  rw [readNatural?, String.toList_ofList]
  split
  next => exact absurd (decimal '+' List.mem_cons_self) (by decide)
  next =>
    simp only [List.isEmpty_iff, begun, false_or, Bool.not_eq_true', Option.ite_none_left_eq_some,
      Bool.not_eq_false, Option.ite_none_right_eq_some, Option.some.injEq, List.all_eq_true]
    refine and_congr_right fun _ => and_congr_left fun same => ?_
    rw [same]

/-! ## Blanks -/

theorem isDigit_of_isBlank (blank : isBlank character = true) :
    isDigit character = false := by
  rw [Bool.eq_false_iff]
  intro digit
  have code := isDigit_iff.mp digit
  simp only [isBlank, Bool.or_eq_true, Bool.and_eq_true, decide_eq_true_eq, beq_iff_eq] at blank
  omega

theorem isDecimalDigit_of_isBlank (blank : isBlank character = true) :
    isDecimalDigit character = false := by
  have apart : ∀ digits ∈ decimalDigitRanges, ∀ blanks ∈ [(9, 13), (0x20, 0x20), (0x85, 0x85),
      (0xa0, 0xa0), (0x1680, 0x1680), (0x2000, 0x200a), (0x2028, 0x2029), (0x202f, 0x202f),
      (0x205f, 0x205f), (0x3000, 0x3000)], digits.2 < blanks.1 ∨ blanks.2 < digits.1 := by
    decide
  rw [isDecimalDigit, List.any_eq_false]
  intro range member digit
  have outside := apart range member
  simp only [List.forall_mem_cons, List.not_mem_nil, false_imp_iff, implies_true, and_true]
    at outside
  simp only [isBlank, Bool.or_eq_true, Bool.and_eq_true, decide_eq_true_eq, beq_iff_eq]
    at blank digit
  omega

end

end TimedText.Text
