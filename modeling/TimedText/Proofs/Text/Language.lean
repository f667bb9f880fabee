import Mathlib
import TimedText.Proofs.Text.Split
/-!
Languages of texts that are put together from characters of some kinds, and the pieces of a
text between separators.
-/

namespace TimedText.Text

open scoped Computability

/-! ## Characters of a kind -/

def oneOf (holds : Char → Bool) : Language Char :=
  {text | ∃ character, holds character = true ∧ text = [character]}

def someOf (holds : Char → Bool) : Language Char := oneOf holds * (oneOf holds)∗

section

variable {holds : Char → Bool} {text : List Char}

theorem mem_oneOf_iff :
    text ∈ oneOf holds ↔ ∃ character, holds character = true ∧ text = [character] :=
  Iff.rfl

theorem cons_mem_oneOf_mul_iff {character : Char} {language : Language Char} :
    character :: text ∈ oneOf holds * language ↔ holds character = true ∧ text ∈ language := by
  rw [Language.mem_mul]
  constructor
  · rintro ⟨_, ⟨own, kind, rfl⟩, rest, further, same⟩
    cases same
    exact ⟨kind, further⟩
  · intro ⟨kind, further⟩
    exact ⟨[character], ⟨character, kind, rfl⟩, text, further, rfl⟩

theorem oneOf_mul_le {language larger : Language Char}
    (each : ∀ character rest, holds character = true → rest ∈ language →
      character :: rest ∈ larger) : oneOf holds * language ≤ larger := by
  intro text member
  rcases Language.mem_mul.mp member with ⟨_, ⟨own, kind, rfl⟩, rest, further, rfl⟩
  exact each own rest kind further

theorem mem_kstar_oneOf_iff :
    text ∈ (oneOf holds)∗ ↔ ∀ character ∈ text, holds character = true := by
  constructor
  · intro member
    rcases Language.mem_kstar.mp member with ⟨pieces, rfl, each⟩
    intro character inside
    rcases List.mem_flatten.mp inside with ⟨piece, among, own⟩
    rcases each piece among with ⟨only, kind, rfl⟩
    rwa [List.mem_singleton.mp own]
  · intro all
    refine Language.mem_kstar.mpr ⟨text.map ([·]), ?_, fun piece among => ?_⟩
    · rw [← List.flatMap_def, List.flatMap_singleton']
    · rcases List.mem_map.mp among with ⟨character, member, rfl⟩
      exact ⟨character, all character member, rfl⟩

theorem mem_someOf_iff :
    text ∈ someOf holds ↔ text ≠ [] ∧ ∀ character ∈ text, holds character = true := by
  rw [someOf, Language.mem_mul]
  constructor
  · rintro ⟨_, ⟨first, kind, rfl⟩, rest, further, rfl⟩
    refine ⟨by simp, List.forall_mem_cons.mpr ⟨kind, mem_kstar_oneOf_iff.mp further⟩⟩
  · intro ⟨begun, all⟩
    cases text with
    | nil => exact absurd rfl begun
    | cons first rest =>
        rcases List.forall_mem_cons.mp all with ⟨own, further⟩
        exact ⟨[first], ⟨first, own, rfl⟩, rest, mem_kstar_oneOf_iff.mpr further, rfl⟩

theorem mem_marked_iff {mark : Char} :
    text ∈ 1 + oneOf (· == mark) * someOf holds ↔
      text = [] ∨ ∃ after ∈ someOf holds, text = mark :: after := by
  rw [Language.mem_add, Language.mem_one, Language.mem_mul]
  simp only [mem_oneOf_iff, beq_iff_eq]
  refine or_congr_right ⟨?_, ?_⟩
  · rintro ⟨_, ⟨_, rfl, rfl⟩, after, member, rfl⟩
    exact ⟨after, member, rfl⟩
  · rintro ⟨after, member, rfl⟩
    exact ⟨[mark], ⟨mark, rfl, rfl⟩, after, member, rfl⟩

end

/-! ## Separators -/

section

variable {separator : Char} {characters : List Char}

theorem pieces_eq_iff {parts : List (List Char)} (some : parts ≠ []) :
    pieces (· == separator) characters = parts ↔
      (∀ part ∈ parts, separator ∉ part) ∧ characters = [separator].intercalate parts := by
  rw [pieces_eq_splitOn]
  constructor
  · rintro rfl
    exact ⟨fun part => separator_not_mem_of_mem_splitOn,
      (List.intercalate_splitOn separator).symm⟩
  · rintro ⟨apart, rfl⟩
    exact List.splitOn_intercalate separator apart some

theorem mem_mul_separator_iff {left right : Language Char} :
    characters ∈ left * (oneOf (· == separator) * right) ↔
      ∃ front ∈ left, ∃ back ∈ right, characters = front ++ separator :: back := by
  simp only [Language.mem_mul, mem_oneOf_iff, beq_iff_eq]
  constructor
  · rintro ⟨front, before, _, ⟨_, ⟨_, rfl, rfl⟩, back, after, rfl⟩, rfl⟩
    exact ⟨front, before, back, after, rfl⟩
  · rintro ⟨front, before, back, after, rfl⟩
    exact ⟨front, before, separator :: back, ⟨_, ⟨_, rfl, rfl⟩, back, after, rfl⟩, rfl⟩

end

end TimedText.Text
