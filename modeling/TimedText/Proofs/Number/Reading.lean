import TimedText.Number.Numeral
import TimedText.Number.Written
import TimedText.Style.Form
/-!
Numbers that can be read: numerals, and what is written with a fixed number of places.
-/

namespace TimedText.Number

open Text

/-! ## Digits -/

theorem isDigit_iff {character : Char} :
    isDigit character = true ↔ 48 ≤ character.toNat ∧ character.toNat ≤ 57 := by
  rw [isDigit, Bool.and_eq_true, decide_eq_true_eq, decide_eq_true_eq, Char.le_def,
    Char.le_def, UInt32.le_iff_toNat_le, UInt32.le_iff_toNat_le]
  rfl

private theorem toLower_of_below {character : Char} (below : character.toNat < 65) :
    character.toLower = character := by
  refine dif_neg ?_
  rintro ⟨above, -⟩
  have bound := UInt32.le_iff_toNat_le.mp above
  change 65 ≤ character.toNat at bound
  omega

private theorem isDigit_of_mem_toString {number : Nat} :
    ∀ character ∈ (toString number).toList, isDigit character = true := by
  intro character member
  rw [Nat.toString_eq_repr, Nat.toList_repr] at member
  have digit := Nat.isDigit_of_mem_toDigits (by decide) (by decide) member
  exact isDigit_iff.mpr (Char.isDigit_iff_toNat.mp digit)

private theorem toString_ne_nil (number : Nat) : (toString number).toList ≠ [] := by
  rw [Nat.toString_eq_repr, Nat.toList_repr]
  exact Nat.toDigits_ne_nil

private theorem digitValue?_lt (character : Char) : (digitValue? 10 character).getD 0 < 10 := by
  cases same : digitValue? 10 character with
  | none => decide
  | some value =>
      rw [digitValue?] at same
      exact of_decide_eq_true (Option.filter_eq_some_iff.mp same).2

theorem digitsValue_lt (digits : List Char) : digitsValue 10 digits < 10 ^ digits.length := by
  -- Of the digits on the left only the number that they name matters.
  suffices general : ∀ start, digits.foldl
      (fun value digit => value * 10 + (digitValue? 10 digit).getD 0) start
      < (start + 1) * 10 ^ digits.length by simpa [digitsValue] using general 0
  induction digits with
  | nil =>
      intro start
      simp
  | cons digit rest induction =>
      intro start
      have below := digitValue?_lt digit
      calc _ < (start * 10 + (digitValue? 10 digit).getD 0 + 1) * 10 ^ rest.length := induction _
        _ ≤ (start + 1) * 10 * 10 ^ rest.length := Nat.mul_le_mul_right _ (by omega)
        _ = (start + 1) * 10 ^ (rest.length + 1) := by rw [Nat.pow_succ', Nat.mul_assoc]

/-! ## Numerals -/

namespace Numeral

structure IsWritten (numeral : Numeral) : Prop where
  whole : ∀ character ∈ numeral.whole, isDigit character = true
  begun : numeral.whole ≠ []
  fraction : ∀ digits ∈ numeral.fraction, ∀ character ∈ digits, isDigit character = true
  ended : ∀ digits ∈ numeral.fraction, digits ≠ []

theorem IsWritten.isDigit_of_mem_fraction {numeral : Numeral} (written : numeral.IsWritten) :
    ∀ character ∈ numeral.fraction.getD [], isDigit character = true := by
  cases places : numeral.fraction with
  | none => exact nofun
  | some digits => exact written.fraction digits places

theorem isWritten_pointed {whole fraction : List Char}
    (digits : ∀ character ∈ whole, isDigit character = true) (begun : whole ≠ [])
    (further : ∀ character ∈ fraction, isDigit character = true) (ended : fraction ≠ []) :
    IsWritten ⟨whole, some fraction⟩ where
  whole := digits
  begun := begun
  fraction := by
    rintro _ ⟨⟩
    exact further
  ended := by
    rintro _ ⟨⟩
    exact ended

variable {numeral : Numeral} {characters rest : List Char}

theorem isDigit_of_mem_takeWhile :
    ∀ character ∈ characters.takeWhile isDigit, isDigit character = true :=
  List.all_eq_true.mp List.all_takeWhile

theorem take?_isWritten (taken : take? characters = some (numeral, rest)) :
    numeral.IsWritten ∧ characters = numeral.chars ++ rest := by
  have parts : characters.takeWhile isDigit ++ characters.dropWhile isDigit = characters :=
    List.takeWhile_append_dropWhile
  rw [take?] at taken
  dsimp only at taken
  split at taken
  · cases taken
  next begun =>
    have begun : characters.takeWhile isDigit ≠ [] := by simpa using begun
    split at taken
    next afterPoint point =>
      split at taken
      next none =>
        cases taken
        exact ⟨⟨isDigit_of_mem_takeWhile, begun, nofun, nofun⟩, parts.symm⟩
      next some =>
        cases taken
        refine ⟨isWritten_pointed isDigit_of_mem_takeWhile begun isDigit_of_mem_takeWhile
          (by simpa using some), ?_⟩
        rw [chars, List.append_assoc, List.cons_append, List.takeWhile_append_dropWhile,
          ← point, parts]
    next =>
      cases taken
      exact ⟨⟨isDigit_of_mem_takeWhile, begun, nofun, nofun⟩, parts.symm⟩

theorem takeWhile_stops {digits : List Char}
    (all : ∀ character ∈ digits, isDigit character = true)
    (stops : ∀ character ∈ rest.head?, isDigit character = false) :
    (digits ++ rest).takeWhile isDigit = digits ∧
      (digits ++ rest).dropWhile isDigit = rest := by
  rw [List.takeWhile_append_of_pos all, List.dropWhile_append_of_pos all]
  cases rest with
  | nil => exact ⟨List.append_nil _, rfl⟩
  | cons first rest =>
      have stop := stops first rfl
      simp [stop]

theorem take?_chars_append (written : numeral.IsWritten)
    (stops : ∀ character ∈ rest.head?, isDigit character = false ∧ character ≠ '.') :
    take? (numeral.chars ++ rest) = some (numeral, rest) := by
  have stopsDigits : ∀ character ∈ rest.head?, isDigit character = false :=
    fun character member => (stops character member).1
  rcases numeral with ⟨whole, fraction⟩
  have begun : whole.isEmpty = false := by simpa using written.begun
  cases fraction with
  | none =>
      rcases takeWhile_stops written.whole stopsDigits with ⟨taken, left⟩
      rw [take?, chars]
      dsimp only
      rw [taken, left, begun, if_neg Bool.false_ne_true]
      split
      next afterPoint => exact absurd rfl (stops '.' rfl).2
      next => rfl
  | some fraction =>
      have ended : fraction.isEmpty = false := by simpa using written.ended fraction rfl
      have point : ∀ character ∈ ('.' :: (fraction ++ rest)).head?,
          isDigit character = false := by
        rintro _ ⟨⟩
        decide
      rcases takeWhile_stops written.whole point with ⟨taken, left⟩
      rcases takeWhile_stops (written.fraction fraction rfl) stopsDigits with ⟨after, last⟩
      rw [take?, chars]
      dsimp only
      rw [List.append_assoc, List.cons_append, taken, left, begun,
        if_neg Bool.false_ne_true]
      change (if ((fraction ++ rest).takeWhile isDigit).isEmpty = true then _ else
        some (Numeral.mk whole (some ((fraction ++ rest).takeWhile isDigit)),
          (fraction ++ rest).dropWhile isDigit)) = _
      rw [after, last, ended, if_neg Bool.false_ne_true]

end Numeral

/-! ## Numbers named by numerals -/

private theorem below_of_isDigit {character : Char} (digit : isDigit character = true) :
    character.toNat < 65 := by
  have range := isDigit_iff.mp digit
  omega

section

variable {numeral : Numeral} (written : numeral.IsWritten)

include written

theorem isDigit_or_point_of_mem_chars :
    ∀ character ∈ numeral.chars, isDigit character = true ∨ character = '.' := by
  intro character member
  rcases numeral with ⟨whole, fraction⟩
  cases fraction with
  | none => exact .inl (written.whole character member)
  | some fraction =>
      rcases List.mem_append.mp member with member | member
      · exact .inl (written.whole character member)
      · rcases List.mem_cons.mp member with rfl | member
        · exact .inr rfl
        · exact .inl (written.fraction fraction rfl character member)

private theorem chars_below : ∀ character ∈ numeral.chars, character.toNat < 65 := by
  intro character member
  rcases isDigit_or_point_of_mem_chars written character member with digit | rfl
  · exact below_of_isDigit digit
  · decide

private theorem pointed?_chars : pointed? numeral.chars =
    some (numeral.whole ++ numeral.fraction.getD [], (numeral.fraction.getD []).length) := by
  rcases numeral with ⟨whole, fraction⟩
  have begun : whole.isEmpty = false := by simpa using written.begun
  cases fraction with
  | none =>
      have stops : (whole ++ []).takeWhile isDigit = whole ∧
          (whole ++ []).dropWhile isDigit = [] :=
        Numeral.takeWhile_stops written.whole nofun
      rw [List.append_nil] at stops
      rw [pointed?, Numeral.chars]
      dsimp only
      rw [stops.1, stops.2, begun]
      exact congrArg (fun digits => some (digits, 0)) (List.append_nil whole).symm
  | some fraction =>
      have point : ∀ character ∈ ('.' :: fraction).head?, isDigit character = false := by
        rintro _ ⟨⟩
        decide
      rcases Numeral.takeWhile_stops written.whole point with ⟨taken, left⟩
      have all : fraction.all isDigit = true :=
        List.all_eq_true.mpr (written.fraction fraction rfl)
      rw [pointed?, Numeral.chars]
      dsimp only at taken left ⊢
      rw [taken, left, begun]
      change (if fraction.all isDigit = true ∧ _ then _ else _) = _
      rw [if_pos ⟨all, by simp⟩]
      rfl

private theorem unsigned?_chars : unsigned? numeral.chars =
    some (scaled (digitsValue 10 (numeral.whole ++ numeral.fraction.getD []))
      (0 - (numeral.fraction.getD []).length)) := by
  have lower : numeral.chars.map Char.toLower = numeral.chars := by
    rw [List.map_congr_left fun character member =>
      toLower_of_below (chars_below written character member)]
    exact List.map_id _
  have noWord {word : List Char} (letter : ∃ character ∈ word, 65 ≤ character.toNat) :
      numeral.chars ≠ word := by
    rintro rfl
    rcases letter with ⟨character, member, above⟩
    exact absurd (chars_below written character member) (by omega)
  have mantissa : numeral.chars.takeWhile (· != 'e') = numeral.chars ∧
      numeral.chars.dropWhile (· != 'e') = [] := by
    have all : ∀ character ∈ numeral.chars, (character != 'e') = true := by
      intro character member
      have below := chars_below written character member
      refine bne_iff_ne.mpr fun same => ?_
      subst same
      exact absurd below (by decide)
    have taken : (numeral.chars ++ []).takeWhile (· != 'e') = numeral.chars ++ [] :=
      List.takeWhile_append_of_pos all
    have left : (numeral.chars ++ []).dropWhile (· != 'e') = [] :=
      List.dropWhile_append_of_pos all
    rw [List.append_nil] at taken left
    exact ⟨taken, left⟩
  rw [unsigned?]
  dsimp only
  rw [lower, if_neg, if_neg, mantissa.1, mantissa.2, pointed?_chars written]
  · exact noWord ⟨'n', by decide, by decide⟩
  · rintro (inf | infinity)
    · exact noWord ⟨'i', by decide, by decide⟩ inf
    · exact noWord ⟨'i', by decide, by decide⟩ infinity

end

theorem read?_chars {numeral : Numeral} (written : numeral.IsWritten) :
    read? (String.ofList numeral.chars) =
      some (scaled (digitsValue 10 (numeral.whole ++ numeral.fraction.getD []))
        (0 - (numeral.fraction.getD []).length)) := by
  have unsigned := unsigned?_chars written
  have digit : ∀ character ∈ numeral.chars.head?, isDigit character = true := by
    rcases numeral with ⟨whole, fraction⟩
    cases whole with
    | nil => exact absurd rfl written.begun
    | cons first rest =>
        have own := written.whole first List.mem_cons_self
        cases fraction <;> exact fun character same => Option.some.inj same ▸ own
  rw [read?, String.toList_ofList]
  split
  next rest minus =>
    rw [minus] at digit
    exact absurd (digit '-' rfl) (by decide)
  next rest plus =>
    rw [plus] at digit
    exact absurd (digit '+' rfl) (by decide)
  next => exact unsigned

private theorem read?_negated {numeral : Numeral} (written : numeral.IsWritten) :
    (read? (String.ofList ('-' :: numeral.chars))).isSome = true := by
  rw [read?, String.toList_ofList]
  change ((unsigned? numeral.chars).map _).isSome = true
  rw [unsigned?_chars written]
  rfl

theorem readNatural?_lt {bound number : Nat} {text : String}
    (read : readNatural? bound text = some number) : number < bound := by
  simp only [readNatural?, Option.ite_none_left_eq_some, Option.ite_none_right_eq_some,
    Option.some.injEq] at read
  exact read.2.2 ▸ read.2.1

/-! ## Fixed numbers of places -/

private theorem toList_zeroFilled (width : Nat) (digits : String) :
    (zeroFilled width digits).toList
      = List.replicate (width - digits.length) '0' ++ digits.toList := by
  rw [zeroFilled, String.toList_append, String.toList_ofList]

def unitsNumeral (places units : Nat) : Numeral :=
  ⟨(toString (units / 10 ^ places)).toList,
    some (zeroFilled places (toString (units % 10 ^ places))).toList⟩

theorem unitsNumeral_isWritten (places units : Nat) :
    (unitsNumeral places units).IsWritten := by
  apply Numeral.isWritten_pointed isDigit_of_mem_toString (toString_ne_nil _)
  · intro character member
    rw [toList_zeroFilled] at member
    rcases List.mem_append.mp member with zero | digit
    · rw [List.eq_of_mem_replicate zero]
      decide
    · exact isDigit_of_mem_toString character digit
  · intro empty
    rw [toList_zeroFilled] at empty
    exact toString_ne_nil _ (List.append_eq_nil_iff.mp empty).2

theorem fixedText_cases (places : Nat) (number : Float) :
    fixedText places number ∈ ["NaN", "inf", "-inf"] ∨
      ∃ numeral : Numeral, numeral.IsWritten ∧
        (fixedText places number = String.ofList numeral.chars ∨
          fixedText places number = String.ofList ('-' :: numeral.chars)) := by
  rw [fixedText]
  cases value number with
  | undefined => exact .inl (by simp)
  | infinite negative => cases negative <;> exact .inl (by simp)
  | finite exact =>
      right
      dsimp only
      generalize roundToEven (exact.ratio.1 * 10 ^ places) exact.ratio.2 = units
      refine ⟨unitsNumeral places units, unitsNumeral_isWritten places units, ?_⟩
      cases exact.negative with
      | false => exact .inl (String.toList_injective (by simp [Numeral.chars, unitsNumeral]))
      | true => exact .inr (String.toList_injective (by simp [Numeral.chars, unitsNumeral]))

theorem read?_fixedText (places : Nat) (number : Float) :
    (read? (fixedText places number)).isSome = true := by
  rcases fixedText_cases places number with word | ⟨numeral, written, same | same⟩
  · have words : ∀ word ∈ ["NaN", "inf", "-inf"], (read? word).isSome = true := by decide
    exact words _ word
  · rw [same, read?_chars written]
    rfl
  · rw [same]
    exact read?_negated written

end TimedText.Number

namespace TimedText.Style

open Number Text

/-- A numeral ends where its unit begins, provided that the unit cannot belong to it. -/
theorem numeralBefore?_eq_some_iff {unit : Char} {characters : List Char} {numeral : Numeral}
    (apart : isDigit unit = false ∧ unit ≠ '.') :
    numeralBefore? unit characters = some numeral ↔
      numeral.IsWritten ∧ characters = numeral.chars ++ [unit] := by
  rw [numeralBefore?]
  constructor
  · intro found
    split at found
    next taken character cut =>
      rcases Numeral.take?_isWritten cut with ⟨written, same⟩
      rcases Option.ite_none_right_eq_some.mp found with ⟨rfl, own⟩
      cases own
      exact ⟨written, same⟩
    next => cases found
  · rintro ⟨written, rfl⟩
    rw [Numeral.take?_chars_append written (by rintro _ ⟨⟩; exact apart)]
    exact if_pos rfl

end TimedText.Style
