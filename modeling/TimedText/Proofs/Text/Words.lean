import TimedText.Proofs.Text.Cut
import TimedText.Proofs.Text.Language
import TimedText.Style.Form
/-!
Words with blanks between them. A text that neither begins nor ends with a blank is cut into
words in one way: they have no blanks in them, and what stands between two of them is blank.
-/

namespace TimedText.Text

/-- Some words one after the other, with blanks between two of them and nowhere else. -/
inductive Spaced : List (List Char) → List Char → Prop where
  | one {word : List Char} (own : word ∈ someOf fun character => !isBlank character) :
      Spaced [word] word
  | more {word gap rest : List Char} {words : List (List Char)}
      (own : word ∈ someOf fun character => !isBlank character) (apart : gap ∈ someOf isBlank)
      (further : Spaced words rest) : Spaced (word :: words) (word ++ (gap ++ rest))

/-! ## Pieces -/

section

variable {separates : Char → Bool} {separator : Char} {word gap rest characters : List Char}
  {words : List (List Char)}

private theorem pieces_of_none (none : ∀ character ∈ word, separates character = false) :
    pieces separates word = [word] := by
  induction word with
  | nil => rfl
  | cons first word induction =>
      rcases List.forall_mem_cons.mp none with ⟨own, further⟩
      rw [pieces, own, if_neg Bool.false_ne_true, induction further]

private theorem pieces_append (none : ∀ character ∈ word, separates character = false)
    (stops : separates separator = true) :
    pieces separates (word ++ separator :: rest) = word :: pieces separates rest := by
  induction word with
  | nil => rw [List.nil_append, pieces, if_pos stops]
  | cons first word induction =>
      rcases List.forall_mem_cons.mp none with ⟨own, further⟩
      rw [List.cons_append, pieces, own, if_neg Bool.false_ne_true, induction further]

private theorem blankSeparated_gap (blank : ∀ character ∈ gap, isBlank character = true) :
    blankSeparated (gap ++ rest) = blankSeparated rest := by
  induction gap with
  | nil => rfl
  | cons first gap induction =>
      rcases List.forall_mem_cons.mp blank with ⟨own, further⟩
      rw [← induction further, List.cons_append, blankSeparated, pieces, if_pos own]
      rfl

theorem mem_word_iff :
    word ∈ someOf (fun character => !isBlank character) ↔
      word ≠ [] ∧ ∀ character ∈ word, isBlank character = false := by
  simp only [mem_someOf_iff, Bool.not_eq_true']

private theorem blankSeparated_word (own : word ∈ someOf fun character => !isBlank character) :
    blankSeparated word = [word] := by
  rcases mem_word_iff.mp own with ⟨begun, none⟩
  rw [blankSeparated, pieces_of_none none]
  simp [begun]

private theorem blankSeparated_append (own : word ∈ someOf fun character => !isBlank character)
    (apart : gap ∈ someOf isBlank) :
    blankSeparated (word ++ (gap ++ rest)) = word :: blankSeparated rest := by
  rcases mem_word_iff.mp own with ⟨begun, none⟩
  rcases mem_someOf_iff.mp apart with ⟨some, blank⟩
  cases gap with
  | nil => exact absurd rfl some
  | cons first gap =>
      rcases List.forall_mem_cons.mp blank with ⟨stops, further⟩
      have after : blankSeparated (gap ++ rest) = blankSeparated rest := blankSeparated_gap further
      rw [← after, List.cons_append, blankSeparated, pieces_append none stops]
      simp [begun, blankSeparated]

theorem Spaced.blankSeparated_eq (spaced : Spaced words characters) :
    blankSeparated characters = words := by
  induction spaced with
  | one own => exact blankSeparated_word own
  | more own apart _ induction => rw [blankSeparated_append own apart, induction]

theorem Spaced.words_ne_nil (spaced : Spaced words characters) : words ≠ [] := by
  cases spaced <;> exact List.cons_ne_nil _ _

private theorem spaced_singleton_iff :
    Spaced [word] characters ↔
      word ∈ (someOf fun character => !isBlank character) ∧ characters = word := by
  constructor
  · intro spaced
    cases spaced with
    | one own => exact ⟨own, rfl⟩
    | more _ _ further => exact absurd rfl further.words_ne_nil
  · rintro ⟨own, rfl⟩
    exact .one own

theorem spaced_pair_iff {other : List Char} :
    Spaced [word, other] characters ↔
      word ∈ (someOf fun character => !isBlank character) ∧
        other ∈ (someOf fun character => !isBlank character) ∧
        ∃ gap ∈ someOf isBlank, characters = word ++ (gap ++ other) := by
  constructor
  · intro spaced
    cases spaced with
    | more own apart further =>
        rcases spaced_singleton_iff.mp further with ⟨last, rfl⟩
        exact ⟨own, last, _, apart, rfl⟩
  · rintro ⟨own, last, gap, apart, rfl⟩
    exact .more own apart (.one last)

/-! ## Ends -/

private theorem Spaced.ne_nil (spaced : Spaced words characters) : characters ≠ [] := by
  cases spaced with
  | one own => exact (mem_word_iff.mp own).1
  | more own => exact fun none => (mem_word_iff.mp own).1 (List.append_eq_nil_iff.mp none).1

private theorem Spaced.head_not_blank (spaced : Spaced words characters) :
    ∀ character ∈ characters.head?, isBlank character = false := by
  have first {word rest : List Char} (own : word ∈ someOf fun character => !isBlank character) :
      ∀ character ∈ (word ++ rest).head?, isBlank character = false := by
    rcases mem_word_iff.mp own with ⟨begun, none⟩
    intro character here
    rw [List.head?_append_of_ne_nil word begun] at here
    exact none character (List.mem_of_mem_head? here)
  cases spaced with
  | one own => exact List.append_nil characters ▸ first own
  | more own => exact first own

private theorem Spaced.last_not_blank (spaced : Spaced words characters) :
    ∀ character ∈ characters.getLast?, isBlank character = false := by
  induction spaced with
  | one own =>
      exact fun character here => (mem_word_iff.mp own).2 character (List.mem_of_getLast? here)
  | more _ _ further induction =>
      intro character here
      rw [← List.append_assoc, List.getLast?_append_of_ne_nil _ further.ne_nil] at here
      exact induction character here

theorem trimmed_eq_self_iff :
    trimmed characters = characters ↔
      (∀ character ∈ characters.head?, isBlank character = false) ∧
        ∀ character ∈ characters.getLast?, isBlank character = false := by
  have keeps {rest : List Char} (stops : ∀ character ∈ rest.head?, isBlank character = false) :
      ([] ++ rest).dropWhile isBlank = rest :=
    dropWhile_append_stop nofun stops
  constructor
  · intro same
    -- Nothing can be taken away at the front, since nothing is added at the end.
    have front : characters.dropWhile isBlank = characters := by
      refine (List.dropWhile_suffix isBlank).eq_of_length_le ?_
      calc characters.length
        _ = (trimmed characters).length := by rw [same]
        _ ≤ (characters.dropWhile isBlank).length := by
          rw [trimmed, List.length_reverse]
          exact (List.dropWhile_sublist isBlank).length_le.trans_eq List.length_reverse
    refine ⟨fun character here => head?_dropWhile character (front.symm ▸ here),
      fun character here => ?_⟩
    rw [trimmed, front] at same
    rw [← same, List.getLast?_reverse] at here
    exact head?_dropWhile character here
  · rintro ⟨first, last⟩
    have last : ∀ character ∈ characters.reverse.head?, isBlank character = false := by
      rwa [List.head?_reverse]
    rw [trimmed, ← List.nil_append characters, keeps first, ← List.nil_append characters.reverse,
      keeps last, List.reverse_reverse, List.nil_append]

theorem trimmed_gap_append (blank : ∀ character ∈ gap, isBlank character = true) :
    trimmed (gap ++ characters) = trimmed characters := by
  rw [trimmed, List.dropWhile_append_of_pos blank, trimmed]

theorem trimmed_append_gap (blank : ∀ character ∈ gap, isBlank character = true) :
    trimmed (characters ++ gap) = trimmed characters := by
  have ends (front : List Char) :
      (front ++ gap).reverse.dropWhile isBlank = front.reverse.dropWhile isBlank := by
    rw [List.reverse_append, List.dropWhile_append_of_pos fun character member =>
      blank character (List.mem_reverse.mp member)]
  rw [trimmed, trimmed, List.dropWhile_append]
  split
  next none =>
    rw [List.isEmpty_iff.mp none, List.dropWhile_eq_nil_iff.mpr blank]
  next => rw [ends]

private theorem Spaced.cons {character : Char} (spaced : Spaced words characters)
    (own : isBlank character = false) : ∃ words, Spaced words (character :: characters) := by
  have longer {word : List Char} (member : word ∈ someOf fun character => !isBlank character) :
      character :: word ∈ someOf fun character => !isBlank character :=
    mem_word_iff.mpr ⟨List.cons_ne_nil _ _,
      List.forall_mem_cons.mpr ⟨own, (mem_word_iff.mp member).2⟩⟩
  cases spaced with
  | one member => exact ⟨_, .one (longer member)⟩
  | more member apart further => exact ⟨_, .more (longer member) apart further⟩

private theorem exists_spaced_of_last (begun : characters ≠ [])
    (last : ∀ character ∈ characters.getLast?, isBlank character = false) :
    ∃ gap rest words, (∀ character ∈ gap, isBlank character = true) ∧ Spaced words rest ∧
      characters = gap ++ rest := by
  induction characters with
  | nil => exact absurd rfl begun
  | cons first characters induction =>
      have single (own : isBlank first = false) :
          [first] ∈ someOf fun character => !isBlank character :=
        mem_word_iff.mpr ⟨List.cons_ne_nil _ _, List.forall_mem_singleton.mpr own⟩
      rcases eq_or_ne characters [] with rfl | some
      · exact ⟨[], _, _, nofun, .one (single (last first rfl)), rfl⟩
      · rw [List.getLast?_cons_of_ne_nil some] at last
        rcases induction some last with ⟨gap, rest, words, blank, spaced, rfl⟩
        cases own : isBlank first with
        | true =>
            exact ⟨first :: gap, rest, words, List.forall_mem_cons.mpr ⟨own, blank⟩, spaced,
              rfl⟩
        | false =>
            cases gap with
            | nil =>
                rcases spaced.cons own with ⟨words, spaced⟩
                exact ⟨[], _, words, nofun, spaced, rfl⟩
            | cons separator gap =>
                have apart : separator :: gap ∈ someOf isBlank :=
                  mem_someOf_iff.mpr ⟨List.cons_ne_nil _ _, blank⟩
                exact ⟨[], _, _, nofun, .more (single own) apart spaced, rfl⟩

end

end TimedText.Text

namespace TimedText.Style

open Text

theorem wordsWithin_eq_iff {characters : List Char} {words : List (List Char)}
    (some : words ≠ []) : wordsWithin characters = words ↔ Spaced words characters := by
  rw [wordsWithin]
  constructor
  · intro cut
    split at cut
    next trimmed =>
      rcases trimmed_eq_self_iff.mp trimmed with ⟨first, last⟩
      have begun : characters ≠ [] := by
        rintro rfl
        exact some cut.symm
      rcases exists_spaced_of_last begun last with ⟨gap, rest, others, blank, spaced, rfl⟩
      cases gap with
      | nil => exact spaced.blankSeparated_eq.symm.trans cut ▸ spaced
      | cons separator gap =>
          have contrary := (blank separator List.mem_cons_self).symm.trans (first separator rfl)
          cases contrary
    next => exact absurd cut.symm some
  · intro spaced
    rw [if_pos (trimmed_eq_self_iff.mpr ⟨spaced.head_not_blank, spaced.last_not_blank⟩),
      spaced.blankSeparated_eq]

end TimedText.Style
