import TimedText.Markup.Document
import TimedText.Proofs.Text.Digit
import TimedText.Proofs.Text.Language
/-!
The characters that references in text stand for. Some references have a meaning that they should
not have: numbers with a plus sign before them, and the numbers of characters that no document may
hold. All others have theirs, and one that has none ends the reading of a document.
-/

namespace TimedText.Markup

open Text

/-! ## Numbers of characters -/

inductive Radix where
  | decimal
  | hexadecimal

namespace Radix

def base : Radix → Nat
  | .decimal => 10
  | .hexadecimal => 16

def mark : Radix → List Char
  | .decimal => []
  | .hexadecimal => ['x']

def isDigit : Radix → Char → Bool
  | .decimal => Text.isDigit
  | .hexadecimal => Text.isHexDigit

private theorem isSome_digitValue? (radix : Radix) (character : Char) :
    (digitValue? radix.base character).isSome = radix.isDigit character := by
  cases radix with
  | decimal => exact isSome_digitValue?_decimal character
  | hexadecimal => exact isSome_digitValue?_hexadecimal character

private theorem isDigit_sign (radix : Radix) : radix.isDigit '+' = false := by
  cases radix <;> rfl

private theorem isDigit_mark (radix : Radix) : radix.isDigit 'x' = false := by
  cases radix <;> rfl

end Radix

/-- The name of a reference to the character of a number, a sign standing before its digits. -/
inductive Numbers (sign : List Char) : List Char → Nat → Prop
  | digits (radix : Radix) {digits : List Char} (some : digits ∈ someOf radix.isDigit) :
      Numbers sign ('#' :: (radix.mark ++ (sign ++ digits))) (digitsValue radix.base digits)

/-! ## Reading numbers -/

section

variable {radix number value : Nat} {digits : List Char} {character : Char}

private theorem le_foldl_digits (positive : 0 < radix) :
    number ≤ digits.foldl
      (fun value digit => value * radix + (digitValue? radix digit).getD 0) number := by
  induction digits generalizing number with
  | nil => exact Nat.le_refl number
  | cons digit rest induction =>
      calc number
        _ ≤ number * radix := Nat.le_mul_of_pos_right number positive
        _ ≤ number * radix + (digitValue? radix digit).getD 0 := Nat.le_add_right _ _
        _ ≤ _ := induction

private theorem readDigits_eq_ok_iff (positive : 0 < radix) (small : number < 2 ^ 32) :
    readDigits radix number digits = .ok value ↔
      (∀ digit ∈ digits, (digitValue? radix digit).isSome = true) ∧
        digits.foldl (fun value digit => value * radix + (digitValue? radix digit).getD 0) number
          = value ∧ value < 2 ^ 32 := by
  induction digits generalizing number with
  | nil =>
      simp only [readDigits, Except.ok.injEq, List.not_mem_nil, List.foldl_nil]
      constructor
      · rintro rfl
        exact ⟨nofun, rfl, small⟩
      · exact fun ⟨_, same, _⟩ => same
  | cons digit rest induction =>
      rw [readDigits, List.forall_mem_cons, List.foldl_cons]
      cases own : digitValue? radix digit with
      | none => simp
      | some further =>
          dsimp only
          rw [Option.getD_some, Option.isSome_some, eq_self, true_and]
          split
          next below => exact induction below
          next large =>
            refine iff_of_false nofun fun ⟨_, same, bound⟩ => large ?_
            exact ((le_foldl_digits positive).trans_eq same).trans_lt bound

private theorem character_of_code_iff {code : Nat} :
    (if code.isValidChar then some (Char.ofNat code) else none) = some character ↔
      code = character.toNat := by
  constructor
  · intro found
    split at found
    next valid =>
      cases found
      rw [Char.toNat_ofNat, if_pos valid]
    next => cases found
  · rintro rfl
    have valid : character.toNat.isValidChar := character.valid
    rw [if_pos valid, Char.ofNat_toNat]

end

private def withoutSign : List Char → List Char
  | '+' :: digits => digits
  | digits => digits

private def Radix.character? (radix : Radix) (digits : List Char) : Option Char :=
  if digits.isEmpty then none
  else
    match readDigits radix.base 0 digits with
    | .ok code => if code.isValidChar then some (Char.ofNat code) else none
    | .error _ => none

private theorem Radix.character?_eq_some_iff {radix : Radix} {digits : List Char}
    {character : Char} :
    radix.character? digits = some character ↔
      digits ∈ someOf radix.isDigit ∧ digitsValue radix.base digits = character.toNat := by
  have positive : 0 < radix.base := by cases radix <;> decide
  have bound : character.toNat < 2 ^ 32 := character.val.toNat_lt
  simp only [mem_someOf_iff, ← radix.isSome_digitValue?, digitsValue]
  rw [character?]
  split
  next empty => simp [List.isEmpty_iff.mp empty]
  next some =>
    rw [List.isEmpty_iff] at some
    constructor
    · intro found
      split at found
      next code reads =>
        rcases (readDigits_eq_ok_iff positive (by decide)).mp reads with ⟨all, same, -⟩
        exact ⟨⟨some, all⟩, same.trans (character_of_code_iff.mp found)⟩
      next => cases found
    · rintro ⟨⟨-, all⟩, same⟩
      rw [(readDigits_eq_ok_iff positive (by decide)).mpr ⟨all, same, bound⟩]
      exact character_of_code_iff.mpr rfl

private theorem withoutSign_of_unsigned {characters : List Char}
    (unsigned : characters.head? ≠ some '+') :
    withoutSign characters = characters := by
  unfold withoutSign
  split
  next => exact absurd rfl unsigned
  next => rfl

private theorem meaning?_of_radix {radix : Radix} {number digits : List Char}
    (starts : radixAndDigits number = (radix.base, digits)) :
    meaning? ('#' :: number) = radix.character? (withoutSign digits) := by
  rw [meaning?, starts]
  dsimp only
  split
  next => rfl
  next other =>
    rw [withoutSign_of_unsigned fun signed => ?_]
    · rfl
    · rcases List.head?_eq_some_iff.mp signed with ⟨unsigned, same⟩
      exact other unsigned same

private theorem meaning?_of_unmarked {number : List Char} (unmarked : number.head? ≠ some 'x') :
    meaning? ('#' :: number) = Radix.decimal.character? (withoutSign number) := by
  refine meaning?_of_radix ?_
  unfold radixAndDigits
  split
  next => exact absurd rfl unmarked
  next => rfl

private theorem exists_radix (number : List Char) :
    ∃ (radix : Radix) (digits : List Char), number = radix.mark ++ digits ∧
      meaning? ('#' :: number) = radix.character? (withoutSign digits) := by
  by_cases marked : number.head? = some 'x'
  · rcases List.head?_eq_some_iff.mp marked with ⟨digits, rfl⟩
    have starts : radixAndDigits ('x' :: digits) = (Radix.hexadecimal.base, digits) := rfl
    exact ⟨.hexadecimal, digits, rfl, meaning?_of_radix starts⟩
  · exact ⟨.decimal, number, rfl, meaning?_of_unmarked marked⟩

private theorem meaning?_mark (radix : Radix) {digits : List Char}
    (unmarked : digits.head? ≠ some 'x') :
    meaning? ('#' :: (radix.mark ++ digits)) = radix.character? (withoutSign digits) := by
  cases radix with
  | decimal => exact meaning?_of_unmarked unmarked
  | hexadecimal =>
      have starts : radixAndDigits ('x' :: digits) = (Radix.hexadecimal.base, digits) := rfl
      exact meaning?_of_radix starts

private theorem withoutSign_mem_iff {radix : Radix} {characters digits : List Char} :
    withoutSign characters = digits ∧ digits ∈ someOf radix.isDigit ↔
      digits ∈ someOf radix.isDigit ∧ (characters = digits ∨ characters = '+' :: digits) := by
  rw [and_comm]
  refine and_congr_right fun member => ⟨?_, ?_⟩
  · rintro rfl
    unfold withoutSign
    split
    next => exact .inr rfl
    next => exact .inl rfl
  · rintro (rfl | rfl)
    · refine withoutSign_of_unsigned fun signed => ?_
      have digit := (mem_someOf_iff.mp member).2 '+' (List.mem_of_mem_head? signed)
      rw [radix.isDigit_sign] at digit
      cases digit
    · rfl

private theorem numbers_iff {name : List Char} {code : Nat} :
    Numbers [] name code ∨ Numbers ['+'] name code ↔
      ∃ (radix : Radix) (written digits : List Char), name = '#' :: (radix.mark ++ written) ∧
        (withoutSign written = digits ∧ digits ∈ someOf radix.isDigit) ∧
        digitsValue radix.base digits = code := by
  simp only [withoutSign_mem_iff]
  constructor
  · rintro (⟨radix, some⟩ | ⟨radix, some⟩)
    · exact ⟨radix, _, _, rfl, ⟨some, .inl rfl⟩, rfl⟩
    · exact ⟨radix, _, _, rfl, ⟨some, .inr rfl⟩, rfl⟩
  · rintro ⟨radix, written, digits, rfl, ⟨some, rfl | rfl⟩, rfl⟩
    · exact .inl (.digits radix some)
    · exact .inr (.digits radix some)

private theorem meaning?_number_iff {number : List Char} {character : Char} :
    meaning? ('#' :: number) = some character ↔
      Numbers [] ('#' :: number) character.toNat ∨
        Numbers ['+'] ('#' :: number) character.toNat := by
  rw [numbers_iff]
  constructor
  · intro means
    rcases exists_radix number with ⟨radix, written, rfl, same⟩
    rcases Radix.character?_eq_some_iff.mp (same.symm.trans means) with ⟨some, value⟩
    exact ⟨radix, written, _, rfl, ⟨rfl, some⟩, value⟩
  · rintro ⟨radix, written, digits, same, ⟨rfl, some⟩, value⟩
    rw [same, meaning?_mark radix, Radix.character?_eq_some_iff.mpr ⟨some, value⟩]
    intro marked
    have unsigned : withoutSign written = written :=
      withoutSign_of_unsigned fun signed => by cases marked.symm.trans signed
    rw [unsigned] at some
    have digit := (mem_someOf_iff.mp some).2 'x' (List.mem_of_mem_head? marked)
    rw [radix.isDigit_mark] at digit
    cases digit

/-! ## Meanings -/

def entities : List (List Char × Char) := [
  ("amp".toList, '&'), ("lt".toList, '<'), ("gt".toList, '>'), ("quot".toList, '"'),
  ("apos".toList, '\x27')]

/-- The characters that a document may hold. -/
def IsPermitted (character : Char) : Prop :=
  character = '\t' ∨ character = '\n' ∨ character = '\r' ∨
    (0x20 ≤ character.toNat ∧ character.toNat ≤ 0xd7ff) ∨
    (0xe000 ≤ character.toNat ∧ character.toNat ≤ 0xfffd) ∨ 0x10000 ≤ character.toNat

/-- A reference stands for a character: it is known by its name, or it has its number and a
document may hold it. -/
inductive Denotes (name : List Char) (character : Char) : Prop
  | entity (known : (name, character) ∈ entities)
  | number (numbered : Numbers [] name character.toNat) (permitted : IsPermitted character)

/-- A reference has a meaning that it should not have: there is a sign before the number, or no
document may hold the character. -/
inductive Misleads (name : List Char) (character : Char) : Prop
  | signed (numbered : Numbers ['+'] name character.toNat)
  | unpermitted (numbered : Numbers [] name character.toNat) (not : ¬IsPermitted character)

section

variable {name : List Char} {character : Char}

private theorem mem_entities_iff : (name, character) ∈ entities ↔ named? name = some character := by
  constructor
  · intro known
    fin_cases known <;> rfl
  · intro named
    unfold named? at named
    split at named
    all_goals cases named
    all_goals decide

private theorem Numbers.marked {sign : List Char} {code : Nat} (numbered : Numbers sign name code) :
    name.head? = some '#' := by
  cases numbered
  rfl

private theorem entity_unmarked (known : (name, character) ∈ entities) : name.head? ≠ some '#' := by
  fin_cases known <;> decide

private theorem Numbers.plus_mem_iff {sign : List Char} {code : Nat}
    (numbered : Numbers sign name code) :
    '+' ∈ name ↔ '+' ∈ sign := by
  cases numbered with
  | @digits radix digits spelled =>
      have notDigit : '+' ∉ digits := fun member => by
        have digit := (mem_someOf_iff.mp spelled).2 '+' member
        rw [radix.isDigit_sign] at digit
        cases digit
      have notMark : '+' ∉ radix.mark := by cases radix <;> decide
      simp [notDigit, notMark]

theorem Denotes.not_misleads (denotes : Denotes name character) : ¬Misleads name character := by
  intro misleads
  cases denotes with
  | entity known =>
      cases misleads with
      | signed numbered => exact entity_unmarked known numbered.marked
      | unpermitted numbered _ => exact entity_unmarked known numbered.marked
  | number numbered permitted =>
      cases misleads with
      | signed signed =>
          have sign := numbered.plus_mem_iff.symm.trans signed.plus_mem_iff
          exact absurd (sign.mpr (List.mem_singleton_self '+')) List.not_mem_nil
      | unpermitted _ not => exact not permitted

private theorem meaning?_of_unnumbered (unnumbered : name.head? ≠ some '#') :
    meaning? name = named? name := by
  unfold meaning?
  split
  next => exact absurd rfl unnumbered
  next => rfl

theorem meaning?_eq_some_iff :
    meaning? name = some character ↔ Denotes name character ∨ Misleads name character := by
  by_cases numbered : name.head? = some '#'
  · rcases List.head?_eq_some_iff.mp numbered with ⟨number, rfl⟩
    rw [meaning?_number_iff]
    constructor
    · rintro (plain | signed)
      · by_cases permitted : IsPermitted character
        · exact .inl (.number plain permitted)
        · exact .inr (.unpermitted plain permitted)
      · exact .inr (.signed signed)
    · rintro ((known | ⟨plain, -⟩) | (signed | ⟨plain, -⟩))
      · exact absurd numbered (entity_unmarked known)
      · exact .inl plain
      · exact .inr signed
      · exact .inl plain
  · rw [meaning?_of_unnumbered numbered, ← mem_entities_iff]
    constructor
    · exact fun known => .inl (.entity known)
    · rintro ((known | ⟨plain, -⟩) | (signed | ⟨plain, -⟩))
      · exact known
      · exact absurd plain.marked numbered
      · exact absurd signed.marked numbered
      · exact absurd plain.marked numbered

end

/-! ## Documents -/

private theorem Construction.afterEvents_append (construction : Construction)
    (before after : List (Event × List Char)) :
    construction.afterEvents (before ++ after)
      = construction.afterEvents before >>= fun next => next.afterEvents after := by
  induction before generalizing construction with
  | nil => rfl
  | cons event rest induction =>
      rw [List.cons_append, afterEvents, afterEvents]
      cases construction.afterEvent event.1 with
      | ok next => exact induction next
      | error flaw => rfl

theorem read_of_meaningless {text : String} {before after : List (Event × List Char)}
    {name rest : List Char} (none : meaning? name = none)
    (parts : (transcribe text.toList).events = before ++ (.reference name, rest) :: after) :
    ∃ failure, Document.read text = .error (.ofFailure text.toList failure) ∧
      (Construction.empty.afterEvents before = .error failure ∨
        failure = ⟨.undefinedEntity (String.ofList name), rest⟩) := by
  have here (construction : Construction) :
      construction.afterEvents ((.reference name, rest) :: after)
        = .error ⟨.undefinedEntity (String.ofList name), rest⟩ := by
    rw [Construction.afterEvents, Construction.afterEvent, none]
  have ends : ∃ failure, Construction.empty.afterEvents (transcribe text.toList).events
        = .error failure ∧ (Construction.empty.afterEvents before = .error failure ∨
          failure = ⟨.undefinedEntity (String.ofList name), rest⟩) := by
    rw [parts, Construction.afterEvents_append]
    cases Construction.empty.afterEvents before with
    | error failure => exact ⟨failure, rfl, .inl rfl⟩
    | ok construction => exact ⟨_, here construction, .inr rfl⟩
  rcases ends with ⟨failure, fails, cause⟩
  refine ⟨failure, ?_, cause⟩
  rw [Document.read, fails]

/-- Every reference means what it stands for, unless it means something else besides; and it means
something that it should not mean if and only if its number has a sign or belongs to a character
that no document may hold. A document with a reference that means nothing cannot be read: it is
the name that is unknown, unless something is wrong before it. -/
theorem references_denote_iff (name : List Char) :
    (∀ character, meaning? name = some character ↔
      Denotes name character ∨ Misleads name character) ∧
    ((∀ character, meaning? name = some character ↔ Denotes name character) ↔
      ∀ character, ¬Misleads name character) ∧
    ∀ text before rest after,
      (transcribe text.toList).events = before ++ (.reference name, rest) :: after →
      (∀ character, ¬Denotes name character ∧ ¬Misleads name character) →
      ∃ failure, Document.read text = .error (.ofFailure text.toList failure) ∧
        (Construction.empty.afterEvents before = .error failure ∨
          failure = ⟨.undefinedEntity (String.ofList name), rest⟩) := by
  refine ⟨fun character => meaning?_eq_some_iff, ⟨fun agrees character misleads => ?_,
    fun none character => ?_⟩, fun text before rest after parts neither => ?_⟩
  · have denotes := (agrees character).mp (meaning?_eq_some_iff.mpr (.inr misleads))
    exact denotes.not_misleads misleads
  · rw [meaning?_eq_some_iff, or_iff_left (none character)]
  · have meaningless : meaning? name = none := by
      refine Option.eq_none_iff_forall_ne_some.mpr fun character means => ?_
      rcases meaning?_eq_some_iff.mp means with denotes | misleads
      · exact (neither character).1 denotes
      · exact (neither character).2 misleads
    exact read_of_meaningless meaningless parts

theorem references_denote_iff_zero :
    meaning? "#0".toList = some '\x00' ∧
      ¬(∀ character, meaning? "#0".toList = some character ↔ Denotes "#0".toList character) ∧
      Document.read "<tt>&nbsp;</tt>" = .error ⟨.undefinedEntity "nbsp", 1, 10⟩ := by
  have zero : Misleads "#0".toList '\x00' :=
    .unpermitted (.digits .decimal (mem_someOf_iff.mpr ⟨List.cons_ne_nil _ _,
      List.forall_mem_singleton.mpr rfl⟩)) (by unfold IsPermitted; decide)
  refine ⟨((references_denote_iff "#0".toList).1 '\x00').mpr (.inr zero),
    fun agrees => (references_denote_iff "#0".toList).2.1.mp agrees _ zero, ?_⟩
  have parts : (transcribe "<tt>&nbsp;</tt>".toList).events
      = [(.start "tt".toList, "&nbsp;</tt>".toList)]
        ++ (.reference "nbsp".toList, "</tt>".toList) :: [(.finish, [])] := by decide +kernel
  have known : (Construction.empty.afterEvents
      [(.start "tt".toList, "&nbsp;</tt>".toList)]).isOk = true := by decide +kernel
  have unknown : ∀ character,
      ¬Denotes "nbsp".toList character ∧ ¬Misleads "nbsp".toList character := by
    intro character
    rw [← not_or, ← meaning?_eq_some_iff]
    exact nofun
  rcases (references_denote_iff "nbsp".toList).2.2 _ _ _ _ parts unknown with
    ⟨failure, fails, flawed | rfl⟩
  · rw [flawed] at known
    cases known
  · exact fails

end TimedText.Markup
