import TimedText.Proofs.Text.Digit
import TimedText.Proofs.Time.Classification
/-!
Frame rate multipliers. A multiplier is two whole numbers with one blank between them. A text
is read as the multiplier at its front, whatever stands after it.
-/

namespace TimedText.Time.Parameters

open Number Text

/-! ## Terms -/

/-- Two runs of digits with one blank between them, and the numbers that they name. -/
def HasTerms (characters : List Char) (terms : Nat × Nat) : Prop :=
  ∃ numerator ∈ someOf isDigit, ∃ blank, isBlank blank = true ∧
    ∃ denominator ∈ someOf isDigit, characters = numerator ++ blank :: denominator ∧
      terms = (digitsValue 10 numerator, digitsValue 10 denominator)

def AreFactors (terms : Nat × Nat) : Prop :=
  terms.1 < 2 ^ 64 ∧ terms.2 < 2 ^ 64 ∧ terms.2 ≠ 0

def IsMultiplier (characters : List Char) : Prop :=
  ∃ terms, HasTerms characters terms ∧ AreFactors terms

def Ends (rest : List Char) : Prop := ∀ next ∈ rest.head?, isDigit next = false

section

variable {text : String} {characters front rest : List Char} {terms others : Nat × Nat}

private theorem ends_dropWhile (characters : List Char) : Ends (characters.dropWhile isDigit) := by
  intro next first
  have stop := List.head?_dropWhile_not isDigit characters
  rwa [first] at stop

private theorem HasTerms.takes (own : HasTerms front terms) (ends : Ends rest) :
    ∃ blank after, isBlank blank = true ∧ (front ++ rest).dropWhile isDigit = blank :: after ∧
      (front ++ rest).takeWhile isDigit ≠ [] ∧ after.takeWhile isDigit ≠ [] ∧
      after.dropWhile isDigit = rest ∧
      terms = (digitsValue 10 ((front ++ rest).takeWhile isDigit),
        digitsValue 10 (after.takeWhile isDigit)) := by
  rcases own with ⟨numerator, first, blank, isBlank, denominator, second, rfl, rfl⟩
  rcases mem_someOf_iff.mp first with ⟨begun, digits⟩
  rcases mem_someOf_iff.mp second with ⟨further, others⟩
  -- A blank is no digit, so the first run ends before it.
  have stops : ∀ next ∈ (blank :: (denominator ++ rest)).head?, isDigit next = false := by
    rintro _ ⟨⟩
    exact isDigit_of_isBlank isBlank
  rcases Numeral.takeWhile_stops digits stops with ⟨taken, left⟩
  rcases Numeral.takeWhile_stops others ends with ⟨last, past⟩
  rw [List.append_assoc, List.cons_append]
  refine ⟨blank, denominator ++ rest, isBlank, left, ?_, ?_, past, ?_⟩
  · rwa [taken]
  · rwa [last]
  · rw [taken, last]

private theorem multiplierTerms?_eq_some_iff :
    multiplierTerms? text = some terms ↔
      ∃ front rest, text.toList = front ++ rest ∧ HasTerms front terms ∧ Ends rest := by
  rw [multiplierTerms?]
  dsimp only
  constructor
  · intro read
    split at read
    next blank after left =>
      split at read
      next holds =>
        rcases Bool.and_eq_true_iff.mp holds with ⟨begins, further⟩
        rcases Bool.and_eq_true_iff.mp begins with ⟨isBlank, begun⟩
        refine ⟨text.toList.takeWhile isDigit ++ blank :: after.takeWhile isDigit,
          after.dropWhile isDigit, ?_, ?_, ?_⟩
        · rw [List.append_assoc, List.cons_append, List.takeWhile_append_dropWhile, ← left,
            List.takeWhile_append_dropWhile]
        · refine ⟨_, mem_someOf_iff.mpr ⟨by simpa using begun, ?_⟩, blank, isBlank, _,
            mem_someOf_iff.mpr ⟨by simpa using further, ?_⟩, rfl, (Option.some.inj read).symm⟩
          · exact Numeral.isDigit_of_mem_takeWhile
          · exact Numeral.isDigit_of_mem_takeWhile
        · exact ends_dropWhile after
      next => cases read
    next => cases read
  · rintro ⟨front, rest, same, own, ends⟩
    rcases own.takes ends with ⟨blank, after, isBlank, left, begun, further, past, rfl⟩
    have begun : ((front ++ rest).takeWhile isDigit).isEmpty = false := by simpa using begun
    have further : (after.takeWhile isDigit).isEmpty = false := by simpa using further
    rw [same, left]
    simp only [isBlank, begun, further, Bool.not_false, Bool.and_self, if_true]

example : multiplierTerms? "1000 1001abc" = some (1000, 1001) := by cbv

theorem HasTerms.rest_eq_nil (own : HasTerms front terms) (ends : Ends rest)
    (whole : HasTerms (front ++ rest) others) : rest = [] := by
  -- What is left after the terms is told by the text, so it is the same for both of them.
  have nothing : Ends [] := nofun
  rcases own.takes ends with ⟨_, after, _, left, _, _, past, _⟩
  rcases whole.takes nothing with ⟨_, _, _, same, _, _, none, _⟩
  rw [List.append_nil, left] at same
  cases same
  exact past.symm.trans none

/-! ## Reading -/

theorem readMultiplier_eq_ok_iff {factor : Float} :
    readMultiplier text = .ok factor ↔
      ∃ terms, multiplierTerms? text = some terms ∧ AreFactors terms ∧
        factor = ofDecimal terms.1 0 / ofDecimal terms.2 0 := by
  rw [readMultiplier]
  cases multiplierTerms? text with
  | none => simp
  | some terms =>
      dsimp only
      split
      next holds =>
        simp only [Except.ok.injEq, Option.some.injEq, exists_eq_left']
        exact ⟨fun same => ⟨holds, same.symm⟩, fun same => same.2.symm⟩
      next fails =>
        simp only [reduceCtorEq, Option.some.injEq, exists_eq_left', false_iff]
        exact fun both => fails both.1

theorem readMultiplier_cases (text : String) :
    (∃ factor, readMultiplier text = .ok factor) ∨
      readMultiplier text = .error (.invalidMultiplier text) := by
  rw [readMultiplier]
  split
  · split
    · exact .inl ⟨_, rfl⟩
    · exact .inr rfl
  · exact .inr rfl

theorem readMultiplier_of_front (own : IsMultiplier front) (ends : Ends rest)
    (same : text.toList = front ++ rest) :
    readMultiplier text = readMultiplier (String.ofList front) ∧
      ∃ factor, readMultiplier text = .ok factor := by
  rcases own with ⟨terms, named, factors⟩
  have whole := multiplierTerms?_eq_some_iff.mpr ⟨front, rest, same, named, ends⟩
  have alone : multiplierTerms? (String.ofList front) = some terms :=
    multiplierTerms?_eq_some_iff.mpr ⟨front, [], by simp, named, nofun⟩
  have read := readMultiplier_eq_ok_iff.mpr ⟨terms, whole, factors, rfl⟩
  have readAlone := readMultiplier_eq_ok_iff.mpr ⟨terms, alone, factors, rfl⟩
  exact ⟨read.trans readAlone.symm, _, read⟩

private theorem readMultiplier_isOk_iff :
    (∃ factor, readMultiplier text = .ok factor) ↔
      ∃ front rest, text.toList = front ++ rest ∧ IsMultiplier front ∧ Ends rest := by
  constructor
  · rintro ⟨factor, read⟩
    rcases readMultiplier_eq_ok_iff.mp read with ⟨terms, found, factors, _⟩
    rcases multiplierTerms?_eq_some_iff.mp found with ⟨front, rest, same, named, ends⟩
    exact ⟨front, rest, same, ⟨terms, named, factors⟩, ends⟩
  · rintro ⟨front, rest, same, own, ends⟩
    exact (readMultiplier_of_front own ends same).2

theorem ofValues_multiplier (text : String) :
    ofValues none (some text) none =
      (readMultiplier text).map fun factor => ⟨25, ofDecimal 25 0 * factor, 1, false, false⟩ := by
  rw [ofValues]
  cases same : readMultiplier text <;> simp [same, bind, Except.bind, Except.map] <;> rfl

theorem ofValues_multiplier_isOk_iff :
    (∃ parameters, ofValues none (some text) none = .ok parameters) ↔
      ∃ front rest, text.toList = front ++ rest ∧ IsMultiplier front ∧ Ends rest := by
  rw [← readMultiplier_isOk_iff, ofValues_multiplier]
  cases readMultiplier text <;> simp [Except.map]

/-- A multiplier with something after it that is not read. -/
def HasRemainder (characters : List Char) : Prop :=
  ∃ front rest, characters = front ++ rest ∧ IsMultiplier front ∧ Ends rest ∧ rest ≠ []

end

/-- A text is accepted as a frame rate multiplier if and only if it begins with one that no
further digit follows, and what stands after it changes nothing. So it is the multipliers that
are accepted, and besides them exactly the texts that go on after one. -/
theorem ofValues_multiplier_remainder (text : String) :
    ((∃ parameters, ofValues none (some text) none = .ok parameters) ↔
      ∃ front rest, text.toList = front ++ rest ∧ IsMultiplier front ∧ Ends rest) ∧
    ((∃ parameters, ofValues none (some text) none = .ok parameters) ∨
      ofValues none (some text) none = .error (.invalidMultiplier text)) ∧
    (((∃ parameters, ofValues none (some text) none = .ok parameters) ↔
        IsMultiplier text.toList) ↔ ¬HasRemainder text.toList) ∧
    ∀ front rest, text.toList = front ++ rest ∧ IsMultiplier front ∧ Ends rest →
      ofValues none (some text) none = ofValues none (some (String.ofList front)) none := by
  refine ⟨ofValues_multiplier_isOk_iff, ?_, ?_, ?_⟩
  · rw [ofValues_multiplier]
    rcases readMultiplier_cases text with ⟨factor, read⟩ | fault
    · exact .inl ⟨_, by rw [read]; rfl⟩
    · exact .inr (by rw [fault]; rfl)
  · rw [ofValues_multiplier_isOk_iff]
    constructor
    · rintro agree ⟨front, rest, same, own, ends, more⟩
      have whole := agree.mp ⟨front, rest, same, own, ends⟩
      rcases own with ⟨_, named, _⟩
      rcases whole with ⟨_, wholeNamed, _⟩
      exact more (named.rest_eq_nil ends (same ▸ wholeNamed))
    · intro bare
      refine ⟨fun ⟨front, rest, same, own, ends⟩ => ?_, fun own => ?_⟩
      · have none : rest = [] := by_contra fun more => bare ⟨front, rest, same, own, ends, more⟩
        rwa [same, none, List.append_nil]
      · exact ⟨text.toList, [], (List.append_nil _).symm, own, nofun⟩
  · rintro front rest ⟨same, own, ends⟩
    rw [ofValues_multiplier, ofValues_multiplier, (readMultiplier_of_front own ends same).1]

end TimedText.Time.Parameters
