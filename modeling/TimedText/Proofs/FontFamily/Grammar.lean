import TimedText.Proofs.Text.Language
import TimedText.Style.FontFamily
/-!
The grammar of lists of font families. The reading that goes on in several places at once accepts
just the texts of the grammar: what may follow at a place is what is accepted from there.
-/

namespace TimedText.Style

open Text
open scoped Computability

/-! ## Languages -/

def blanks : Language Char := (oneOf isBlank)∗

def identifierWord : Language Char :=
  (1 + oneOf (· == '-')) * (oneOf beginsIdentifier * (oneOf continuesIdentifier)∗)

def furtherIdentifiers : Language Char := (someOf isBlank * identifierWord)∗

/-- What stands between quotes: a backslash is not alone, and what is behind it is no line feed. -/
def quotedCharacter (quote : Char) : Language Char :=
  oneOf (fun character => character != quote && character != '\x5c')
    + oneOf (· == '\x5c') * oneOf (· != '\n')

def inQuotes (quote : Char) : Language Char :=
  oneOf (· == quote) * ((quotedCharacter quote)∗ * oneOf (· == quote))

/-- A font family: identifiers with blanks between them, or text in quotes of either kind. -/
def family : Language Char :=
  identifierWord * furtherIdentifiers + (inQuotes '"' + inQuotes '\x27')

def comma : Language Char := blanks * (oneOf (· == ',') * blanks)

def furtherFamilies : Language Char := (comma * family)∗

def familyList : Language Char := family * furtherFamilies

/-! ## What is accepted from a place -/

namespace FamilyPlace

private def Accepts : FamilyPlace → List Char → Prop
  | place, [] => place.isFinal = true
  | place, character :: rest => ∃ following ∈ place.step character, following.Accepts rest

private theorem any_placesAfter_iff {places : List FamilyPlace} {text : List Char} :
    (placesAfter places text).any isFinal = true ↔ ∃ place ∈ places, place.Accepts text := by
  induction text generalizing places with
  | nil => exact List.any_eq_true
  | cons character rest induction =>
      rw [placesAfter, induction]
      simp only [List.mem_eraseDups, List.mem_flatMap, Accepts]
      constructor
      · rintro ⟨following, ⟨place, member, step⟩, accepts⟩
        exact ⟨place, member, following, step, accepts⟩
      · rintro ⟨place, member, following, step, accepts⟩
        exact ⟨following, ⟨place, member, step⟩, accepts⟩

private def accepted (place : FamilyPlace) : Language Char := {text | place.Accepts text}

private theorem areFamilies_iff_accepted {text : String} :
    areFamilies text = true ↔ text.toList ∈ FamilyPlace.start.accepted := by
  rw [areFamilies, any_placesAfter_iff]
  simp only [List.mem_singleton, exists_eq_left]
  rfl

private theorem one_le_accepted {place : FamilyPlace} (final : place.isFinal = true) :
    1 ≤ place.accepted := by
  rintro _ rfl
  exact final

private theorem oneOf_mul_accepted_le {place following : FamilyPlace} {holds : Char → Bool}
    (step : ∀ character, holds character = true → following ∈ place.step character) :
    oneOf holds * following.accepted ≤ place.accepted :=
  oneOf_mul_le fun character _ kind accepts => ⟨following, step character kind, accepts⟩

/-! ## What may follow -/

private def identifierRest : Language Char :=
  (oneOf continuesIdentifier)∗ * (furtherIdentifiers * furtherFamilies)

private def quotedRest (quote : Char) : Language Char :=
  (quotedCharacter quote)∗ * (oneOf (· == quote) * furtherFamilies)

private def rest : FamilyPlace → Language Char
  | .start => familyList
  | .next => blanks * familyList
  | .hyphen => oneOf beginsIdentifier * identifierRest
  | .identifier => identifierRest
  | .gap => blanks * (identifierWord * (furtherIdentifiers * furtherFamilies)
      + oneOf (· == ',') * (blanks * familyList))
  | .quoted quote => quotedRest quote
  | .escape quote => oneOf (· != '\n') * quotedRest quote
  | .closed => furtherFamilies
  | .ended => blanks * (oneOf (· == ',') * (blanks * familyList))

/-! ### Nothing else -/

private theorem blank_mul_le (language : Language Char) :
    oneOf isBlank * (blanks * language) ≤ blanks * language := by
  rw [← mul_assoc]
  gcongr
  exact mul_kstar_le_kstar

private theorem le_blanks_mul (language : Language Char) : language ≤ blanks * language :=
  le_mul_of_one_le_left' one_le_kstar

private theorem comma_mul_le : comma * familyList ≤ furtherFamilies := by
  rw [familyList, ← mul_assoc]
  exact mul_kstar_le_kstar

theorem separator_mul_le :
    blanks * (oneOf (· == ',') * (blanks * familyList)) ≤ furtherFamilies := by
  refine le_trans (le_of_eq ?_) comma_mul_le
  rw [comma, mul_assoc, mul_assoc]

private theorem identifier_mul_le :
    identifierWord * (furtherIdentifiers * furtherFamilies) ≤ familyList := by
  rw [familyList, family, ← mul_assoc]
  gcongr
  exact le_self_add

private theorem hyphen_mul_le :
    oneOf (· == '-') * (oneOf beginsIdentifier * identifierRest)
      ≤ identifierWord * (furtherIdentifiers * furtherFamilies) := by
  rw [identifierWord, identifierRest, mul_assoc, mul_assoc]
  gcongr
  exact le_add_self

private theorem begins_mul_le :
    oneOf beginsIdentifier * identifierRest
      ≤ identifierWord * (furtherIdentifiers * furtherFamilies) := by
  rw [identifierWord, identifierRest, mul_assoc, mul_assoc]
  exact le_mul_of_one_le_left' le_self_add

private theorem continues_mul_le : oneOf continuesIdentifier * identifierRest ≤ identifierRest := by
  rw [identifierRest, ← mul_assoc]
  gcongr
  exact mul_kstar_le_kstar

private theorem further_le_identifierRest : furtherIdentifiers * furtherFamilies ≤ identifierRest :=
  le_mul_of_one_le_left' one_le_kstar

private theorem families_le_identifierRest : furtherFamilies ≤ identifierRest :=
  le_trans (le_mul_of_one_le_left' one_le_kstar) further_le_identifierRest

private theorem blank_mul_gap_le : oneOf isBlank * rest .gap ≤ identifierRest := by
  rw [rest, mul_add, mul_add]
  refine add_le ?_ ?_
  · refine le_trans ?_ further_le_identifierRest
    rw [blanks, ← mul_assoc, ← mul_assoc, ← mul_assoc, ← someOf]
    gcongr
    exact mul_kstar_le_kstar
  · calc oneOf isBlank * (blanks * (oneOf (· == ',') * (blanks * familyList)))
      _ ≤ blanks * (oneOf (· == ',') * (blanks * familyList)) := blank_mul_le _
      _ ≤ furtherFamilies := separator_mul_le
      _ ≤ identifierRest := families_le_identifierRest

private theorem identifier_le_gap :
    identifierWord * (furtherIdentifiers * furtherFamilies) ≤ rest .gap :=
  le_trans le_self_add (le_blanks_mul _)

private theorem comma_mul_le_gap : oneOf (· == ',') * (blanks * familyList) ≤ rest .gap :=
  le_trans le_add_self (le_blanks_mul _)

private theorem inQuotes_mul_le (quote : Char) (either : quote = '"' ∨ quote = '\x27') :
    oneOf (· == quote) * quotedRest quote ≤ familyList := by
  have whole : inQuotes quote * furtherFamilies ≤ familyList := by
    rw [familyList, family]
    gcongr
    rcases either with rfl | rfl
    · exact le_trans le_self_add le_add_self
    · exact le_trans le_add_self le_add_self
  rwa [inQuotes, mul_assoc, mul_assoc] at whole

private theorem quotedCharacter_mul_le (quote : Char) :
    quotedCharacter quote * quotedRest quote ≤ quotedRest quote := by
  rw [quotedRest, ← mul_assoc]
  gcongr
  exact mul_kstar_le_kstar

private theorem closes_mul_le (quote : Char) :
    oneOf (· == quote) * furtherFamilies ≤ quotedRest quote :=
  le_mul_of_one_le_left' one_le_kstar

private theorem plain_mul_le (quote : Char) :
    oneOf (fun character => character != quote && character != '\x5c') * quotedRest quote
      ≤ quotedRest quote := by
  refine le_trans ?_ (quotedCharacter_mul_le quote)
  rw [quotedCharacter, add_mul]
  exact le_self_add

private theorem escapes_mul_le (quote : Char) :
    oneOf (· == '\x5c') * rest (.escape quote) ≤ quotedRest quote := by
  refine le_trans ?_ (quotedCharacter_mul_le quote)
  rw [quotedCharacter, add_mul, mul_assoc]
  exact le_add_self

section

variable {character : Char} {text : List Char} {place following : FamilyPlace}

private theorem mem_ite_singleton_iff {condition : Prop} [Decidable condition] :
    following ∈ (if condition then [place] else []) ↔ condition ∧ following = place := by
  rw [List.mem_ite_nil_right, List.mem_singleton]

private theorem mem_afterIdentifierStart_iff :
    following ∈ afterIdentifierStart character ↔
      (character = '-' ∧ following = .hyphen) ∨
        (beginsIdentifier character = true ∧ following = .identifier) := by
  simp [afterIdentifierStart]

private theorem mem_afterFamilyStart_iff :
    following ∈ afterFamilyStart character ↔
      ((character = '"' ∨ character = '\x27') ∧ following = .quoted character) ∨
        following ∈ afterIdentifierStart character := by
  simp [afterFamilyStart]

private theorem mem_apart_iff :
    following ∈ (if isBlank character = true then [place] else [])
        ++ (if (character == ',') = true then [FamilyPlace.next] else []) ↔
      (isBlank character = true ∧ following = place) ∨
        (character = ',' ∧ following = .next) := by
  rw [List.mem_append, mem_ite_singleton_iff, mem_ite_singleton_iff, beq_iff_eq]

private theorem cons_mem_of_le {holds : Char → Bool} {language larger : Language Char}
    (within : oneOf holds * language ≤ larger) (kind : holds character = true)
    (member : text ∈ language) : character :: text ∈ larger :=
  within (cons_mem_oneOf_mul_iff.mpr ⟨kind, member⟩)

private theorem identifier_sound (step : following ∈ afterIdentifierStart character)
    (member : text ∈ following.rest) :
    character :: text ∈ identifierWord * (furtherIdentifiers * furtherFamilies) := by
  rcases mem_afterIdentifierStart_iff.mp step with ⟨rfl, rfl⟩ | ⟨begins, rfl⟩
  · exact cons_mem_of_le hyphen_mul_le rfl member
  · exact cons_mem_of_le begins_mul_le begins member

private theorem family_sound (step : following ∈ afterFamilyStart character)
    (member : text ∈ following.rest) : character :: text ∈ familyList := by
  rcases mem_afterFamilyStart_iff.mp step with ⟨either, rfl⟩ | step
  · exact cons_mem_of_le (inQuotes_mul_le character either) (beq_self_eq_true _) member
  · exact identifier_mul_le (identifier_sound step member)

private theorem ended_sound
    (step : (isBlank character = true ∧ following = .ended) ∨
      (character = ',' ∧ following = .next))
    (member : text ∈ following.rest) : character :: text ∈ rest .ended := by
  rcases step with ⟨blank, rfl⟩ | ⟨rfl, rfl⟩
  · exact cons_mem_of_le (blank_mul_le _) blank member
  · exact cons_mem_of_le (le_blanks_mul _) rfl member

private theorem step_sound (step : following ∈ place.step character)
    (member : text ∈ following.rest) :
    character :: text ∈ place.rest := by
  cases place with
  | start => exact family_sound step member
  | next =>
      rcases List.mem_append.mp step with step | step
      · rcases mem_ite_singleton_iff.mp step with ⟨blank, rfl⟩
        exact cons_mem_of_le (blank_mul_le _) blank member
      · exact le_blanks_mul _ (family_sound step member)
  | hyphen =>
      rcases mem_ite_singleton_iff.mp step with ⟨begins, rfl⟩
      exact cons_mem_of_le le_rfl begins member
  | identifier =>
      rw [FamilyPlace.step, List.append_assoc, List.mem_append, mem_apart_iff] at step
      rcases step with step | ⟨blank, rfl⟩ | ⟨rfl, rfl⟩
      · rcases mem_ite_singleton_iff.mp step with ⟨continues, rfl⟩
        exact cons_mem_of_le continues_mul_le continues member
      · exact cons_mem_of_le blank_mul_gap_le blank member
      · exact families_le_identifierRest
          (separator_mul_le (cons_mem_of_le (le_blanks_mul _) rfl member))
  | gap =>
      rw [FamilyPlace.step, List.mem_append, List.mem_append, mem_ite_singleton_iff,
        mem_ite_singleton_iff] at step
      rcases step with (⟨blank, rfl⟩ | step) | ⟨comma, rfl⟩
      · exact cons_mem_of_le (blank_mul_le _) blank member
      · exact identifier_le_gap (identifier_sound step member)
      · exact cons_mem_of_le comma_mul_le_gap comma member
  | quoted quote =>
      rw [FamilyPlace.step] at step
      split at step
      next closes =>
        cases List.mem_singleton.mp step
        exact cons_mem_of_le (closes_mul_le quote) closes member
      next other =>
        split at step
        next escapes =>
          cases List.mem_singleton.mp step
          exact cons_mem_of_le (escapes_mul_le quote) escapes member
        next plain =>
          cases List.mem_singleton.mp step
          have kind : (character != quote && character != '\x5c') = true := by
            rw [Bool.and_eq_true, bne, bne, eq_false_of_ne_true other, eq_false_of_ne_true plain]
            exact ⟨rfl, rfl⟩
          exact cons_mem_of_le (plain_mul_le quote) kind member
  | escape quote =>
      rw [FamilyPlace.step] at step
      split at step
      next => cases step
      next other =>
        cases List.mem_singleton.mp step
        exact cons_mem_of_le le_rfl (by simpa using other) member
  | closed => exact separator_mul_le (ended_sound (mem_apart_iff.mp step) member)
  | ended => exact ended_sound (mem_apart_iff.mp step) member

private theorem accepted_le_rest : place.accepted ≤ place.rest := by
  intro text accepts
  -- One step of the reading takes off one character, and what is left is judged from the place
  -- that the step leads to.
  induction text generalizing place with
  | nil =>
      cases place with
      | identifier => exact families_le_identifierRest (Language.nil_mem_kstar _)
      | closed => exact Language.nil_mem_kstar _
      | _ => cases accepts
  | cons character rest induction =>
      rcases accepts with ⟨following, step, further⟩
      exact step_sound step (induction further)

end

/-! ### Everything else -/

private theorem kstar_mul_le_of {repeated last first second : Language Char} (here : last ≤ first)
    (behind : last ≤ second) (enters : repeated * second ≤ first)
    (goes : repeated * second ≤ second) : repeated∗ * last ≤ first := by
  -- The repeated part need not lead back to where it begins, so that only what both have in
  -- common is kept by it.
  have step : repeated * (first ⊓ second) ≤ first ⊓ second := by
    refine le_trans ?_ (le_inf enters goes)
    gcongr
    exact inf_le_right
  exact le_trans (kstar_mul_le (le_inf here behind) step) inf_le_left

private theorem continues_mul_accepted_le :
    (oneOf continuesIdentifier)∗ * accepted .identifier ≤ accepted .identifier :=
  kstar_mul_le_self (oneOf_mul_accepted_le fun character continues => by
    rw [step, if_pos continues]
    exact List.mem_append_left _ (List.mem_append_left _ (List.mem_singleton_self _)))

section

variable {place : FamilyPlace}

private theorem begins_mul_accepted_le
    (begins : ∀ character, beginsIdentifier character = true →
      .identifier ∈ place.step character) :
    oneOf beginsIdentifier * (oneOf continuesIdentifier)∗ * accepted .identifier
      ≤ place.accepted := by
  rw [mul_assoc]
  calc oneOf beginsIdentifier * ((oneOf continuesIdentifier)∗ * accepted .identifier)
    _ ≤ oneOf beginsIdentifier * accepted .identifier := by
      gcongr
      exact continues_mul_accepted_le
    _ ≤ place.accepted := oneOf_mul_accepted_le begins

private theorem identifierWord_mul_accepted_le
    (starts : ∀ character, afterIdentifierStart character ⊆ place.step character) :
    identifierWord * accepted .identifier ≤ place.accepted := by
  rw [identifierWord, mul_assoc, add_mul, one_mul]
  refine add_le ?_ ?_
  · refine begins_mul_accepted_le fun character begins => starts character ?_
    exact mem_afterIdentifierStart_iff.mpr (.inr ⟨begins, rfl⟩)
  · calc oneOf (· == '-')
          * (oneOf beginsIdentifier * (oneOf continuesIdentifier)∗ * accepted .identifier)
      _ ≤ oneOf (· == '-') * accepted .hyphen := by
        gcongr
        refine begins_mul_accepted_le fun character begins => ?_
        rw [step, if_pos begins]
        exact List.mem_singleton_self _
      _ ≤ place.accepted := oneOf_mul_accepted_le fun character hyphen =>
        starts character (mem_afterIdentifierStart_iff.mpr (.inl ⟨beq_iff_eq.mp hyphen, rfl⟩))

end

private theorem furtherIdentifiers_mul_accepted_le :
    furtherIdentifiers * accepted .identifier ≤ accepted .identifier := by
  refine kstar_mul_le_self ?_
  have gap : blanks * accepted .gap ≤ accepted .gap :=
    kstar_mul_le_self (oneOf_mul_accepted_le fun character blank => by simp [step, blank])
  have word : identifierWord * accepted .identifier ≤ accepted .gap :=
    identifierWord_mul_accepted_le fun character following starts => by simp [step, starts]
  calc someOf isBlank * identifierWord * accepted .identifier
    _ = oneOf isBlank * (blanks * (identifierWord * accepted .identifier)) := by
      rw [someOf, blanks, mul_assoc, mul_assoc]
    _ ≤ oneOf isBlank * (blanks * accepted .gap) := by gcongr
    _ ≤ oneOf isBlank * accepted .gap := by gcongr
    _ ≤ accepted .identifier :=
      oneOf_mul_accepted_le fun character blank => by simp [step, blank]

private theorem inQuotes_mul_accepted_le {place : FamilyPlace} {quote : Char}
    (apart : quote ≠ '\x5c') (opens : .quoted quote ∈ place.step quote) :
    inQuotes quote * accepted .closed ≤ place.accepted := by
  have plain : oneOf (fun character => character != quote && character != '\x5c')
      * accepted (.quoted quote) ≤ accepted (.quoted quote) :=
    oneOf_mul_accepted_le fun character other => by simp_all [step]
  have escape : oneOf (· == '\x5c') * (oneOf (· != '\n') * accepted (.quoted quote))
      ≤ accepted (.quoted quote) := by
    calc oneOf (· == '\x5c') * (oneOf (· != '\n') * accepted (.quoted quote))
      _ ≤ oneOf (· == '\x5c') * accepted (.escape quote) := by
        gcongr
        exact oneOf_mul_accepted_le fun character other => by simp_all [step]
      _ ≤ accepted (.quoted quote) :=
        oneOf_mul_accepted_le fun character same => by simp_all [step, apart.symm]
  have inside : quotedCharacter quote * accepted (.quoted quote) ≤ accepted (.quoted quote) := by
    rw [quotedCharacter, add_mul, mul_assoc]
    exact add_le plain escape
  have closes : oneOf (· == quote) * accepted .closed ≤ accepted (.quoted quote) :=
    oneOf_mul_accepted_le fun character same => by simp [step, beq_iff_eq.mp same]
  calc inQuotes quote * accepted .closed
    _ = oneOf (· == quote)
        * ((quotedCharacter quote)∗ * (oneOf (· == quote) * accepted .closed)) := by
      rw [inQuotes, mul_assoc, mul_assoc]
    _ ≤ oneOf (· == quote) * ((quotedCharacter quote)∗ * accepted (.quoted quote)) := by gcongr
    _ ≤ oneOf (· == quote) * accepted (.quoted quote) := by
      gcongr
      exact kstar_mul_le_self inside
    _ ≤ place.accepted :=
      oneOf_mul_accepted_le fun character same => by rwa [beq_iff_eq.mp same]

private def afterFamily : Language Char := accepted .identifier ⊓ accepted .closed

private theorem family_mul_afterFamily_le {place : FamilyPlace}
    (starts : ∀ character, afterFamilyStart character ⊆ place.step character) :
    family * afterFamily ≤ place.accepted := by
  have quoted {quote : Char} (either : quote = '"' ∨ quote = '\x27') (apart : quote ≠ '\x5c') :
      inQuotes quote * afterFamily ≤ place.accepted := by
    refine le_trans ?_ (inQuotes_mul_accepted_le apart (starts quote ?_))
    · gcongr
      exact inf_le_right
    · exact mem_afterFamilyStart_iff.mpr (.inl ⟨either, rfl⟩)
  rw [family, add_mul, add_mul]
  refine add_le ?_ (add_le ?_ ?_)
  · calc identifierWord * furtherIdentifiers * afterFamily
      _ ≤ identifierWord * furtherIdentifiers * accepted .identifier := by
        gcongr
        exact inf_le_left
      _ = identifierWord * (furtherIdentifiers * accepted .identifier) := mul_assoc _ _ _
      _ ≤ identifierWord * accepted .identifier := by
        gcongr
        exact furtherIdentifiers_mul_accepted_le
      _ ≤ place.accepted :=
        identifierWord_mul_accepted_le fun character following own =>
          starts character (mem_afterFamilyStart_iff.mpr (.inr own))
  · exact quoted (.inl rfl) (by decide)
  · exact quoted (.inr rfl) (by decide)

private theorem comma_mul_accepted_le (first second : FamilyPlace) (here : .next ∈ first.step ',')
    (behind : .next ∈ second.step ',')
    (blank : ∀ character, isBlank character = true →
      second ∈ first.step character ∧ second ∈ second.step character) :
    comma * accepted .next ≤ first.accepted := by
  have next : blanks * accepted .next ≤ accepted .next :=
    kstar_mul_le_self (oneOf_mul_accepted_le fun character blank => by simp [step, blank])
  have passes {place : FamilyPlace} (goes : .next ∈ place.step ',') :
      oneOf (· == ',') * (blanks * accepted .next) ≤ place.accepted := by
    calc oneOf (· == ',') * (blanks * accepted .next)
      _ ≤ oneOf (· == ',') * accepted .next := by gcongr
      _ ≤ place.accepted :=
        oneOf_mul_accepted_le fun character same => by rwa [beq_iff_eq.mp same]
  rw [comma, mul_assoc, mul_assoc]
  exact kstar_mul_le_of (passes here) (passes behind)
    (oneOf_mul_accepted_le fun character own => (blank character own).1)
    (oneOf_mul_accepted_le fun character own => (blank character own).2)

private theorem comma_mul_le_afterFamily : comma * accepted .next ≤ afterFamily :=
  le_inf
    (comma_mul_accepted_le .identifier .gap (by decide) (by decide) fun character blank => by
      simp [step, blank])
    (comma_mul_accepted_le .closed .ended (by decide) (by decide) fun character blank => by
      simp [step, blank])

private theorem furtherFamilies_le_afterFamily : furtherFamilies ≤ afterFamily := by
  have again : comma * family * afterFamily ≤ afterFamily := by
    rw [mul_assoc]
    refine le_trans ?_ comma_mul_le_afterFamily
    gcongr
    exact family_mul_afterFamily_le fun character following starts => by simp [step, starts]
  have nothing : 1 ≤ afterFamily := le_inf (one_le_accepted rfl) (one_le_accepted rfl)
  exact kstar_le_of_mul_le_right nothing again

private theorem familyList_le_accepted : familyList ≤ accepted .start := by
  calc familyList
    _ ≤ family * afterFamily := by
      rw [familyList]
      gcongr
      exact furtherFamilies_le_afterFamily
    _ ≤ accepted .start := family_mul_afterFamily_le fun _ => List.Subset.refl _

end FamilyPlace

theorem areFamilies_iff {text : String} :
    areFamilies text = true ↔ text.toList ∈ familyList := by
  rw [FamilyPlace.areFamilies_iff_accepted]
  exact ⟨fun accepts => FamilyPlace.accepted_le_rest accepts,
    fun member => FamilyPlace.familyList_le_accepted member⟩

end TimedText.Style
