import TimedText.Proofs.Markup.Heading
import TimedText.Proofs.Markup.Replacement
/-!
Names with their prefixes renamed. The prefix of a renamed name is the renamed prefix, a
renamed declaration declares it, and different keys stay different.
-/

namespace TimedText.Markup

/-! ## Prefixes -/

/-- A prefix is one of those to be renamed, or has a meaning of its own. -/
def Known (prefixes : List String) (before : String) : Prop :=
  before ∈ prefixes ∨ before ∈ reservedPrefixes

namespace IsRenaming

variable {rename : String → String} {prefixes : List String} {before first second : String}

theorem eq_of_eq (renames : IsRenaming rename prefixes) (firstKnown : Known prefixes first)
    (secondKnown : Known prefixes second) (same : rename first = rename second) :
    first = second := by
  have reserved {left right : String} (known : Known prefixes left)
      (own : right ∈ reservedPrefixes) (same : rename left = rename right) : left = right := by
    have leftOwn : left ∈ reservedPrefixes := by
      rcases known with listed | leftOwn
      · exact renames.apart left listed (by rwa [same, renames.kept right own])
      · exact leftOwn
    rwa [renames.kept left leftOwn, renames.kept right own] at same
  rcases secondKnown with listed | own
  · rcases firstKnown with firstListed | firstOwn
    · exact renames.injective first firstListed second listed same
    · exact (reserved (.inl listed) firstOwn same.symm).symm
  · exact reserved firstKnown own same

theorem eq_reserved_iff (renames : IsRenaming rename prefixes)
    (known : Known prefixes before) {word : String} (own : word ∈ reservedPrefixes) :
    rename before = word ↔ before = word := by
  constructor
  · intro same
    exact renames.eq_of_eq known (.inr own) (same.trans (renames.kept word own).symm)
  · rintro rfl
    exact renames.kept before own

private theorem isPrefix (renames : IsRenaming rename prefixes) (writes : IsWritten rename prefixes)
    (known : Known prefixes before) (other : rename before ≠ before) :
    (∀ character ∈ before.toList, isQuote character = false) ∧ IsPrefix (rename before) := by
  rcases known with listed | own
  · exact writes before listed other
  · exact absurd (renames.kept before own) other

private theorem replaces (renames : IsRenaming rename prefixes) (writes : IsWritten rename prefixes)
    (known : Known prefixes before) (front rest : List Char) :
    Replaces (front ++ (before.toList ++ rest)) (front ++ ((rename before).toList ++ rest)) := by
  by_cases same : rename before = before
  · rw [same]
    exact .same _
  · rcases renames.isPrefix writes known same with ⟨unquoted, isPrefix⟩
    refine .word front rest ?_ unquoted isPrefix
    rintro rfl
    exact same (renames.kept "" (by decide))

private theorem colonless_of_known (renames : IsRenaming rename prefixes)
    (known : Known prefixes before) (none : ':' ∉ before.toList) :
    ':' ∉ (rename before).toList := by
  rcases known with listed | own
  · exact renames.colonless before listed none
  · rwa [renames.kept before own]

end IsRenaming

/-! ## Declarations -/

theorem declaredPrefix?_eq (key : List Char) :
    declaredPrefix? key =
      match prefixAndPart? key with
      | some (before, part) => if before = declaring then some part else none
      | none => if key = declaring.toList then some "" else none := by
  rw [declaredPrefix?]
  cases parts : prefixAndPart? key with
  | none =>
      have colonless := prefixAndPart?_eq_none_iff.mp parts
      have other : "xmlns:".toList.isPrefixOf key = false := by
        rw [Bool.eq_false_iff]
        intro begins
        exact colonless ((List.isPrefixOf_iff_prefix.mp begins).subset (by decide))
      dsimp only
      rw [other, if_neg Bool.false_ne_true]
      rfl
  | some pair =>
      rcases pair with ⟨before, part⟩
      rcases prefixAndPart?_eq_some_iff.mp parts with ⟨colonless, rfl⟩
      have colon : before.toList ++ ':' :: part.toList ≠ "xmlns".toList := by
        intro same
        have member : ':' ∈ "xmlns".toList := same ▸ by simp
        exact absurd member (by decide)
      rw [if_neg colon]
      dsimp only
      by_cases declares : before = declaring
      · subst declares
        have begins : "xmlns:".toList.isPrefixOf (declaring.toList ++ ':' :: part.toList)
            = true := rfl
        rw [if_pos begins, if_pos rfl]
        exact congrArg some String.ofList_toList
      · rw [if_neg declares, if_neg]
        intro begins
        rcases List.isPrefixOf_iff_prefix.mp begins with ⟨rest, same⟩
        have declared : prefixAndPart? (before.toList ++ ':' :: part.toList)
            = some (declaring, String.ofList rest) :=
          prefixAndPart?_eq_some_iff.mpr ⟨by decide, same.symm.trans
            (congrArg ("xmlns:".toList ++ ·) String.toList_ofList.symm)⟩
        rw [parts] at declared
        cases declared
        exact declares rfl

/-! ## Renamed names -/

def NameKnown (prefixes : List String) (written : List Char) : Prop :=
  ∀ before part, prefixAndPart? written = some (before, part) → Known prefixes before

def KeyKnown (prefixes : List String) (key : List Char) : Prop :=
  ∀ before ∈ keyPrefix? key, Known prefixes before

theorem KeyKnown.declared {prefixes : List String} {key : List Char} {part : String}
    (known : KeyKnown prefixes key) (parts : prefixAndPart? key = some (declaring, part)) :
    Known prefixes part :=
  known part (by simp [keyPrefix?, parts])

theorem KeyKnown.used {prefixes : List String} {key : List Char} {before part : String}
    (known : KeyKnown prefixes key) (parts : prefixAndPart? key = some (before, part))
    (other : before ≠ declaring) : Known prefixes before :=
  known before (by simp [keyPrefix?, parts, other])

section

variable {rename : String → String} {prefixes : List String}
  (renames : IsRenaming rename prefixes) (writes : IsWritten rename prefixes)
  {written key : List Char}

include renames

include writes in
theorem renamedName_replaces (known : NameKnown prefixes written) :
    Replaces written (renamedName rename written) := by
  rw [renamedName]
  cases parts : prefixAndPart? written with
  | none => exact .same written
  | some pair =>
      have replaces := renames.replaces writes (known _ _ parts) [] (':' :: pair.2.toList)
      rw [(prefixAndPart?_eq_some_iff.mp parts).2]
      exact replaces

theorem prefixAndPart?_renamedName (known : NameKnown prefixes written) :
    prefixAndPart? (renamedName rename written)
      = (prefixAndPart? written).map fun (before, part) => (rename before, part) := by
  rw [renamedName]
  cases parts : prefixAndPart? written with
  | none => exact parts
  | some pair =>
      have colonless := (prefixAndPart?_eq_some_iff.mp parts).1
      exact prefixAndPart?_eq_some_iff.mpr
        ⟨renames.colonless_of_known (known _ _ parts) colonless, rfl⟩

include writes in
theorem renamedKey_replaces (known : KeyKnown prefixes key) :
    Replaces key (renamedKey rename key) := by
  rw [renamedKey]
  cases parts : prefixAndPart? key with
  | none => exact .same key
  | some pair =>
      rcases pair with ⟨before, part⟩
      have spelled := (prefixAndPart?_eq_some_iff.mp parts).2
      dsimp only
      split
      next declares =>
        subst declares
        have replaces := renames.replaces writes (known.declared parts)
          (declaring.toList ++ [':']) []
        simpa [spelled] using replaces
      next other =>
        have replaces := renames.replaces writes (known.used parts other) []
          (':' :: part.toList)
        rw [spelled]
        exact replaces

theorem prefixAndPart?_renamedKey (known : KeyKnown prefixes key) :
    prefixAndPart? (renamedKey rename key)
      = (prefixAndPart? key).map fun (before, part) =>
          if before = declaring then (before, rename part) else (rename before, part) := by
  rw [renamedKey]
  cases parts : prefixAndPart? key with
  | none => exact parts
  | some pair =>
      rcases pair with ⟨before, part⟩
      have colonless := (prefixAndPart?_eq_some_iff.mp parts).1
      dsimp only [Option.map_some]
      split
      next declares => exact prefixAndPart?_eq_some_iff.mpr ⟨colonless, rfl⟩
      next other =>
        exact prefixAndPart?_eq_some_iff.mpr
          ⟨renames.colonless_of_known (known.used parts other) colonless, rfl⟩

private theorem renames_declaring {before : String} (known : Known prefixes before) :
    rename before = declaring ↔ before = declaring :=
  renames.eq_reserved_iff known (by decide)

theorem declaredPrefix?_renamedKey (known : KeyKnown prefixes key) :
    declaredPrefix? (renamedKey rename key) = (declaredPrefix? key).map rename := by
  rw [declaredPrefix?_eq, declaredPrefix?_eq, prefixAndPart?_renamedKey renames known]
  cases parts : prefixAndPart? key with
  | none =>
      have same : renamedKey rename key = key := by rw [renamedKey, parts]
      have kept := renames.kept "" (by decide)
      dsimp only [Option.map_none]
      rw [same]
      split
      · exact congrArg some kept.symm
      · rfl
  | some pair =>
      rcases pair with ⟨before, part⟩
      dsimp only [Option.map_some]
      split
      next declares => rfl
      next other =>
        exact if_neg ((renames_declaring renames (known.used parts other)).not.mpr other)

theorem eq_of_renamedKey_eq {other : List Char} (known : KeyKnown prefixes key)
    (otherKnown : KeyKnown prefixes other)
    (same : renamedKey rename key = renamedKey rename other) : key = other := by
  have splits := congrArg prefixAndPart? same
  rw [prefixAndPart?_renamedKey renames known,
    prefixAndPart?_renamedKey renames otherKnown] at splits
  cases parts : prefixAndPart? key with
  | none =>
      cases otherParts : prefixAndPart? other with
      | none => rwa [renamedKey, parts, renamedKey, otherParts] at same
      | some pair => simp [parts, otherParts] at splits
  | some pair =>
      cases otherParts : prefixAndPart? other with
      | none => simp [parts, otherParts] at splits
      | some otherPair =>
          rcases pair with ⟨before, part⟩
          rcases otherPair with ⟨otherBefore, otherPart⟩
          rw [(prefixAndPart?_eq_some_iff.mp parts).2,
            (prefixAndPart?_eq_some_iff.mp otherParts).2]
          simp only [parts, otherParts, Option.map_some, Option.some.injEq] at splits
          by_cases declares : before = declaring
          · by_cases otherDeclares : otherBefore = declaring
            · subst declares otherDeclares
              simp only [if_true, Prod.mk.injEq, true_and] at splits
              rw [renames.eq_of_eq (known.declared parts) (otherKnown.declared otherParts)
                splits]
            · rw [if_pos declares, if_neg otherDeclares, Prod.mk.injEq] at splits
              have used := otherKnown.used otherParts otherDeclares
              exact absurd ((renames_declaring renames used).mp (splits.1.symm.trans declares))
                otherDeclares
          · have used := known.used parts declares
            by_cases otherDeclares : otherBefore = declaring
            · rw [if_neg declares, if_pos otherDeclares, Prod.mk.injEq] at splits
              exact absurd ((renames_declaring renames used).mp (splits.1.trans otherDeclares))
                declares
            · rw [if_neg declares, if_neg otherDeclares, Prod.mk.injEq] at splits
              have otherUsed := otherKnown.used otherParts otherDeclares
              rw [renames.eq_of_eq used otherUsed splits.1, splits.2]

end

end TimedText.Markup
