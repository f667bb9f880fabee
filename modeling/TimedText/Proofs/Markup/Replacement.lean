import TimedText.Proofs.Markup.Renaming
/-!
Words in the place of others. Where a prefix takes the place of one without quotation
marks, a name stays a name, and what encloses it closes where it did.
-/

namespace TimedText.Markup

/-- A prefix takes the place of a word in a name, or nothing is changed. -/
inductive Replaces : List Char → List Char → Prop
  | same (written : List Char) : Replaces written written
  | word {old new : String} (front rest : List Char) (present : old ≠ "")
      (unquoted : ∀ character ∈ old.toList, isQuote character = false)
      (isPrefix : IsPrefix new) :
      Replaces (front ++ (old.toList ++ rest)) (front ++ (new.toList ++ rest))

/-! ## Characters -/

theorem not_markup {character : Char} (plain : isMarkup character = false) :
    isSpace character = false ∧ isQuote character = false ∧ isKeyCharacter character = true ∧
      character ≠ '>' ∧ character ≠ '/' ∧ character ≠ '!' ∧ character ≠ '?' ∧
      character ≠ ':' := by
  simp only [isMarkup, Bool.or_eq_false_iff] at plain
  rcases plain with ⟨⟨space, quote⟩, others⟩
  simp [List.contains_eq_mem] at others
  simp [space, quote, isKeyCharacter, others]

private theorem IsPrefix.exists_cons {before : String} (isPrefix : IsPrefix before) :
    ∃ first rest, before.toList = first :: rest := by
  cases spelled : before.toList with
  | nil => exact absurd (String.toList_eq_nil_iff.mp spelled) isPrefix.1
  | cons first rest => exact ⟨first, rest, rfl⟩

/-! ## Enclosing quotes -/

/-- What is open, if anything, is a quotation. -/
def OnQuote (state : Option Char) : Prop :=
  ∀ quote ∈ state, isQuote quote = true

theorem onQuote_none : OnQuote none := nofun

section

variable {state next last : Option Char} {character : Char}

private theorem tagStep_onQuote (onQuote : OnQuote state)
    (goes : tagStep state character = some next) :
    OnQuote next := by
  cases state with
  | none =>
      rw [tagStep] at goes
      split at goes
      · cases goes
      · split at goes
        next quotes =>
          cases goes
          rintro _ ⟨⟩
          exact quotes
        next =>
          cases goes
          exact nofun
  | some quote =>
      rw [tagStep] at goes
      cases goes
      split
      · exact nofun
      · exact onQuote

theorem foldlM_onQuote {written : List Char} (onQuote : OnQuote state)
    (leads : written.foldlM tagStep state = some last) : OnQuote last := by
  induction written generalizing state with
  | nil =>
      cases leads
      exact onQuote
  | cons first rest induction =>
      rw [List.foldlM_cons] at leads
      rcases Option.bind_eq_some_iff.mp leads with ⟨next, goes, leads⟩
      exact induction (tagStep_onQuote onQuote goes) leads

private theorem tagStep_of_unquoted (onQuote : OnQuote state) (plain : isQuote character = false)
    (goes : tagStep state character = some next) : next = state := by
  cases state with
  | none =>
      rw [tagStep] at goes
      split at goes
      · cases goes
      · rw [← isQuote, plain, if_neg Bool.false_ne_true] at goes
        exact (Option.some.inj goes).symm
  | some quote =>
      have differs : character ≠ quote := by
        rintro rfl
        rw [onQuote character rfl] at plain
        cases plain
      rw [tagStep, if_neg (by simpa using differs)] at goes
      exact (Option.some.inj goes).symm

private theorem tagStep_of_plain (onQuote : OnQuote state) (plain : isMarkup character = false) :
    tagStep state character = some state := by
  rcases not_markup plain with ⟨-, unquoted, -, other, -⟩
  cases state with
  | none =>
      rw [tagStep, if_neg (by simpa using other), ← isQuote, unquoted,
        if_neg Bool.false_ne_true]
  | some quote =>
      have differs : character ≠ quote := by
        rintro rfl
        rw [onQuote character rfl] at unquoted
        cases unquoted
      rw [tagStep, if_neg (by simpa using differs)]

private theorem foldlM_of_unquoted {written : List Char} (onQuote : OnQuote state)
    (unquoted : ∀ character ∈ written, isQuote character = false)
    (leads : written.foldlM tagStep state = some last) : last = state := by
  induction written with
  | nil => exact (Option.some.inj leads).symm
  | cons first rest induction =>
      rw [List.foldlM_cons] at leads
      rcases Option.bind_eq_some_iff.mp leads with ⟨next, goes, leads⟩
      cases tagStep_of_unquoted onQuote (unquoted first List.mem_cons_self) goes
      exact induction (fun character member => unquoted character
        (List.mem_cons_of_mem _ member)) leads

private theorem foldlM_of_plain {written : List Char} (onQuote : OnQuote state)
    (plain : ∀ character ∈ written, isMarkup character = false) :
    written.foldlM tagStep state = some state := by
  induction written with
  | nil => rfl
  | cons first rest induction =>
      rw [List.foldlM_cons, tagStep_of_plain onQuote (plain first List.mem_cons_self)]
      exact induction fun character member => plain character (List.mem_cons_of_mem _ member)

end

/-! ## Names -/

namespace Replaces

variable {written changed : List Char}

theorem leads (replaces : Replaces written changed) {state last : Option Char}
    (onQuote : OnQuote state) (leads : written.foldlM tagStep state = some last) :
    changed.foldlM tagStep state = some last := by
  cases replaces with
  | same => exact leads
  | word front rest present unquoted isPrefix =>
      rcases Text.foldlM_append_eq_some_iff.mp leads with ⟨opened, begins, leads⟩
      rcases Text.foldlM_append_eq_some_iff.mp leads with ⟨passed, passes, ends⟩
      have inside := foldlM_onQuote onQuote begins
      cases foldlM_of_unquoted inside unquoted passes
      refine Text.foldlM_append_eq_some_iff.mpr ⟨opened, begins, ?_⟩
      exact Text.foldlM_append_eq_some_iff.mpr
        ⟨opened, foldlM_of_plain inside isPrefix.2, ends⟩

theorem forall_mem {holds : Char → Prop} (replaces : Replaces written changed)
    (all : ∀ character ∈ written, holds character)
    (plain : ∀ character, isMarkup character = false → holds character) :
    ∀ character ∈ changed, holds character := by
  cases replaces with
  | same => exact all
  | word front rest present unquoted isPrefix =>
      intro character member
      simp only [List.mem_append] at all member
      rcases member with member | member | member
      · exact all character (.inl member)
      · exact plain character (isPrefix.2 character member)
      · exact all character (.inr (.inr member))

theorem isKey (replaces : Replaces written changed) (isKey : IsKey written) :
    IsKey changed := by
  cases replaces with
  | same => exact isKey
  | @word old new front rest present unquoted isPrefix =>
      rcases isPrefix.exists_cons with ⟨start, more, spelled⟩
      have plain : ∀ character ∈ new.toList, isKeyCharacter character = true :=
        fun character member => (not_markup (isPrefix.2 character member)).2.2.1
      cases front with
      | nil =>
          cases beginning : old.toList with
          | nil => exact absurd (String.toList_eq_nil_iff.mp beginning) present
          | cons first others =>
              rw [beginning] at isKey
              rcases isKey with ⟨-, goesOn⟩
              rw [spelled] at plain ⊢
              refine .intro (not_markup (isPrefix.2 start (by simp [spelled]))).1 ?_
              intro character member
              rcases List.mem_append.mp member with member | member
              · exact plain character (List.mem_cons_of_mem _ member)
              · exact goesOn character (List.mem_append_right _ member)
      | cons first front =>
          rcases isKey with ⟨starts, goesOn⟩
          refine .intro starts ?_
          intro character member
          rcases List.mem_append.mp member with member | member
          · exact goesOn character (List.mem_append_left _ member)
          · rcases List.mem_append.mp member with member | member
            · exact plain character member
            · exact goesOn character
                (List.mem_append_right _ (List.mem_append_right _ member))

theorem getLast?_ne_slash (replaces : Replaces written changed)
    (other : written.getLast? ≠ some '/') : changed.getLast? ≠ some '/' := by
  cases replaces with
  | same => exact other
  | @word old new front rest present unquoted isPrefix =>
      rcases List.eq_nil_or_concat rest with rfl | ⟨rest, last, rfl⟩
      · intro ends
        have member : '/' ∈ new.toList := by
          rw [List.append_nil, List.getLast?_append] at ends
          cases last : new.toList.getLast? with
          | none => simp [isPrefix.1] at last
          | some character =>
              rw [last] at ends
              cases ends
              exact List.mem_of_getLast? last
        exact (not_markup (isPrefix.2 _ member)).2.2.2.2.1 rfl
      · simpa [← List.append_assoc] using other

theorem eq_nil_iff (replaces : Replaces written changed) : changed = [] ↔ written = [] := by
  cases replaces with
  | same => exact Iff.rfl
  | word front rest present unquoted isPrefix =>
      simp [present, isPrefix.1]

theorem forall_head? {holds : Char → Prop} (replaces : Replaces written changed)
    (first : ∀ character ∈ written.head?, holds character)
    (plain : ∀ character, isMarkup character = false → holds character) :
    ∀ character ∈ changed.head?, holds character := by
  cases replaces with
  | same => exact first
  | @word old new front rest present unquoted isPrefix =>
      cases front with
      | nil =>
          rcases isPrefix.exists_cons with ⟨start, more, spelled⟩
          rw [spelled]
          rintro _ ⟨⟩
          exact plain start (isPrefix.2 start (by simp [spelled]))
      | cons start front => exact first

end Replaces

end TimedText.Markup
