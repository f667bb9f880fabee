import TimedText.Text.Blank
/-!
Texts in pieces. There is no separator in a piece, and between two separators with none in
between stands a piece.
-/

namespace TimedText.Text

theorem pieces_eq_splitOn (separator : Char) (characters : List Char) :
    pieces (· == separator) characters = characters.splitOn separator := by
  induction characters with
  | nil => rfl
  | cons first rest induction =>
      rw [pieces, List.splitOn_cons_eq_if_modifyHead, induction]
      split
      · rfl
      · cases pieces : rest.splitOn separator with
        | nil => exact absurd pieces (List.splitOn_ne_nil _ _)
        | cons own others => rfl

theorem separator_not_mem_of_mem_splitOn {separator : Char} {characters piece : List Char}
    (member : piece ∈ characters.splitOn separator) : separator ∉ piece := by
  induction characters generalizing piece with
  | nil =>
      rw [List.mem_singleton.mp member]
      exact List.not_mem_nil
  | cons first rest induction =>
      rw [List.splitOn_cons_eq_if_modifyHead] at member
      split at member
      next =>
        rcases List.mem_cons.mp member with rfl | member
        · exact List.not_mem_nil
        · exact induction member
      next other =>
        cases pieces : rest.splitOn separator with
        | nil => exact absurd pieces (List.splitOn_ne_nil _ _)
        | cons own others =>
            rw [pieces] at member induction
            rcases List.mem_cons.mp member with rfl | member
            · have apart : separator ≠ first := fun same => other (beq_iff_eq.mpr same.symm)
              exact List.not_mem_cons_of_ne_of_not_mem apart (induction List.mem_cons_self)
            · exact induction (List.mem_cons_of_mem _ member)

theorem length_splitOn (separator : Char) (characters : List Char) :
    (characters.splitOn separator).length = characters.count separator + 1 := by
  induction characters with
  | nil => rfl
  | cons first rest induction =>
      rw [List.splitOn_cons_eq_if_modifyHead, List.count_cons]
      split
      · rw [List.length_cons, induction]
      · rw [List.length_modifyHead, induction, Nat.add_zero]

private theorem splitOn_injective (separator : Char) :
    Function.Injective (List.splitOn separator) := by
  intro first second same
  calc first
    _ = [separator].intercalate (first.splitOn separator) :=
      (List.intercalate_splitOn separator).symm
    _ = [separator].intercalate (second.splitOn separator) := by rw [same]
    _ = second := List.intercalate_splitOn separator

private theorem splitOn_prefix_iff {separator : Char} {front characters : List Char} :
    front.splitOn separator <+: characters.splitOn separator ↔
      characters = front ∨ front ++ [separator] <+: characters := by
  constructor
  · intro ⟨further, same⟩
    by_cases none : further = []
    · rw [none, List.append_nil] at same
      exact .inl (splitOn_injective separator same.symm)
    · have apart : ∀ piece ∈ further, separator ∉ piece := fun piece member =>
        separator_not_mem_of_mem_splitOn (same ▸ List.mem_append_right _ member)
      have whole : characters = front ++ separator :: [separator].intercalate further := by
        refine splitOn_injective separator ?_
        rw [List.splitOn_append_cons_self, List.splitOn_intercalate separator apart none, same]
      exact .inr ⟨_, (whole.trans (List.append_cons _ _ _)).symm⟩
  · rintro (rfl | ⟨rest, rfl⟩)
    · exact List.prefix_rfl
    · rw [← List.append_cons, List.splitOn_append_cons_self]
      exact List.prefix_append _ _

section

variable {separator : Char} {text piece front last : String}

theorem separator_not_mem_of_mem_split (member : piece ∈ split separator text) :
    separator ∉ piece.toList := by
  rw [split, pieces_eq_splitOn] at member
  rcases List.mem_map.mp member with ⟨characters, piece, rfl⟩
  rw [String.toList_ofList]
  exact separator_not_mem_of_mem_splitOn piece

theorem split_of_parts (parts : text.toList = front.toList ++ separator :: last.toList) :
    split separator text = split separator front ++ split separator last := by
  simp only [split, pieces_eq_splitOn, parts, List.splitOn_append_cons_self, List.map_append]

theorem split_eq_singleton_iff : split separator text = [text] ↔ separator ∉ text.toList := by
  constructor
  · intro whole
    exact separator_not_mem_of_mem_split (whole ▸ List.mem_singleton_self text)
  · intro none
    rw [split, pieces_eq_splitOn, List.splitOn_eq_singleton none, List.map_singleton,
      String.ofList_toList]

theorem split_prefix_iff :
    split separator front <+: split separator text ↔
      text = front ∨ front.toList ++ [separator] <+: text.toList := by
  have distinct : Function.Injective String.ofList := fun _ _ => String.ofList_injective
  rw [split, split, List.prefix_map_iff_of_injective distinct, pieces_eq_splitOn,
    pieces_eq_splitOn, splitOn_prefix_iff, String.toList_inj]

theorem split_injective (separator : Char) : Function.Injective (split separator) := by
  intro first second same
  have pieces := (List.map_inj_right fun _ _ => String.ofList_injective).mp same
  rw [pieces_eq_splitOn, pieces_eq_splitOn] at pieces
  exact String.toList_inj.mp (splitOn_injective separator pieces)

theorem mem_split_of_parts
    (parts : text.toList = front.toList ++ separator :: (piece.toList ++ separator :: last.toList))
    (none : separator ∉ piece.toList) : piece ∈ split separator text := by
  have inner : (String.ofList (piece.toList ++ separator :: last.toList)).toList
      = piece.toList ++ separator :: last.toList := String.toList_ofList
  rw [← inner] at parts
  rw [split_of_parts parts, split_of_parts inner, split_eq_singleton_iff.mpr none]
  simp

end

end TimedText.Text
