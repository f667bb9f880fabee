import TimedText.Check.Pruning
/-!
Pruning. A document out of which nothing has to be taken is left as it is.
-/

namespace TimedText.Check

private theorem joinTexts_none (text : Option String) : joinTexts text none = text := by
  cases text <;> rfl

mutual

theorem prune_of_nothing : ∀ element : Element, (prune element).2 = [] →
    (prune element).1 = element
  | ⟨tag, attributes, children, text, tail⟩, nothing => by
      rw [prune] at nothing ⊢
      rcases List.append_eq_nil_iff.mp nothing with ⟨foreign, inner⟩
      rcases pruneAll_of_nothing children inner with ⟨leading, kept⟩
      have own : attributes.filter (fun pair => isRecognisedAttribute pair.1)
          = attributes := by
        have none := List.filter_eq_nil_iff.mp (List.map_eq_nil_iff.mp foreign)
        apply List.filter_eq_self.mpr
        intro pair member
        simpa using none pair member
      rw [own, leading, kept, joinTexts_none]

private theorem pruneAll_of_nothing : ∀ elements : List Element,
    (pruneAll elements).removals = [] →
      (pruneAll elements).leading = none ∧ (pruneAll elements).kept = elements
  | [], _ => ⟨by rw [pruneAll], by rw [pruneAll]⟩
  | first :: rest, nothing => by
      rw [pruneAll] at nothing ⊢
      split at nothing
      next recognised =>
        rcases List.append_eq_nil_iff.mp nothing with ⟨own, others⟩
        rcases pruneAll_of_nothing rest others with ⟨leading, kept⟩
        have same := prune_of_nothing first own
        rw [if_pos recognised, leading, kept]
        dsimp only
        rw [same, joinTexts_none]
        cases first
        exact ⟨rfl, rfl⟩
      · cases nothing

end

end TimedText.Check
