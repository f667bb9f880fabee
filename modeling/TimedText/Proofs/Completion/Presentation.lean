import TimedText.Proofs.Completion
import TimedText.Proofs.Computed
/-!
The checks of styles complete. They only stop at a computed value that cannot be
measured, and computed values can be, at every depth: what the walk hands down to the
children of an element is canonical.
-/

namespace TimedText.Check

open Number Style

/-! ## Measures -/

private theorem beforeUnit?_append (text unit : String) :
    beforeUnit? unit (text ++ unit) = some text := by
  rw [beforeUnit?, String.toList_append, if_pos (by simp), String.length_append,
    Nat.add_sub_cancel, ← String.length_toList, List.take_left, String.ofList_toList]

private theorem measure_of_read? {unit text : String} (name : String)
    (read : (read? text).isSome = true) :
    ∃ number, measure unit name (text ++ unit) = .ok number := by
  rcases Option.isSome_iff_exists.mp read with ⟨number, same⟩
  rw [measure, beforeUnit?_append, Option.bind_some, same]
  exact ⟨number, rfl⟩

private theorem measure_height {value : String} (name : String) (height : IsHeight value) :
    ∃ number, measure "rh" name value = .ok number := by
  rcases height with ⟨size, rfl⟩
  exact measure_of_read? name (read?_fixedText 6 size)

private theorem measure_cells {value : String} (name : String)
    (cells : isCellLength value = true) :
    ∃ number, measure "c" name value = .ok number := by
  rcases Option.isSome_iff_exists.mp cells with ⟨numeral, before⟩
  rcases (numeralBefore?_eq_some_iff (by decide)).mp before with ⟨written, same⟩
  have spelled : value = String.ofList numeral.chars ++ "c" :=
    String.toList_injective (by rw [same]; simp)
  rw [spelled]
  exact measure_of_read? name (Option.isSome_iff_exists.mpr ⟨_, read?_chars written⟩)

/-! ## Text -/

private theorem forValue_completes {computed : Computed} {name : String}
    {rule : String → Attempt Bool}
    (each : ∀ value, computed.find? name = some value → (rule value).Completes) :
    (forValue computed name rule).Completes := by
  rw [forValue]
  split
  next value found => exact each value found
  next => exact Attempt.pure_completes true

private theorem measured_completes {measured : Except Fault Float}
    (gives : ∃ number, measured = .ok number) (rule : Float → Verdict) :
    (Attempt.ofExcept measured >>= fun number => Attempt.judge (rule number)).Completes :=
  (Attempt.ofExcept_completes gives).bind fun _ => Attempt.judge_completes _

section

variable {computed : Computed} (canonical : computed.IsCanonical)

include canonical

private theorem checkFont_completes (sizes : Range) (location : String) :
    (checkFont sizes location computed).Completes := by
  rw [checkFont]
  apply Attempt.Completes.bind
  · exact forValue_completes fun _ _ => Attempt.judge_completes _
  intro family
  apply Attempt.Completes.bind
  · apply forValue_completes
    intro value found
    exact measured_completes
      (measure_height _ ((canonical _ value found).fontSize rfl)) _
  intro size
  exact Attempt.pure_completes _

private theorem checkLines_completes (sizes : Range) (location : String) :
    (checkLines sizes location computed).Completes := by
  rw [checkLines]
  apply Attempt.Completes.bind
  · apply forValue_completes
    intro value found
    split
    -- The word for the usual height is told apart before anything is measured.
    next => exact Attempt.judge_completes _
    next other =>
      rcases (canonical _ value found).lineHeight rfl with usual | height
      · exact absurd (beq_iff_eq.mpr usual) other
      · exact measured_completes (measure_height _ height) _
  intro height
  apply Attempt.Completes.bind
  · exact forValue_completes fun _ _ => Attempt.judge_completes _
  intro alignment
  apply Attempt.Completes.bind
  · apply forValue_completes
    intro value found
    exact measured_completes
      (measure_cells _ ((canonical _ value found).linePadding rfl)) _
  intro padding
  apply Attempt.Completes.bind
  · exact forValue_completes fun _ _ => Attempt.judge_completes _
  intro gap
  exact Attempt.pure_completes _

end

/-! ## Content -/

private theorem checkStyleOf_completes {parent : Computed} (inherited : parent.IsCanonical)
    (presentation : Presentation) (element : Element) :
    (checkStyleOf presentation parent element).CompletesWith
      fun (_, computed) => computed.IsCanonical := by
  have canonical : (computeAll presentation.uri
      (specifiedFor presentation.uri presentation.resolved element) parent
      ⟨presentation.cellResolution, none⟩ .fail).computed.IsCanonical :=
    computeAll_canonical inherited rfl
  rw [checkStyleOf]
  dsimp only
  apply (Attempt.judge_completes _).bind
  intro applies
  apply (Attempt.judge_completes _).bind
  intro background
  apply (Attempt.judge_completes _).bind
  intro computes
  apply (checkFont_completes canonical _ _).choice
  intro font
  apply (checkLines_completes canonical _ _).choice
  intro lines
  apply (Attempt.judge_completes _).bind
  intro span
  exact Attempt.pure_completesWith canonical

mutual

private theorem checkStylesWithin_completes (presentation : Presentation) {parent : Computed}
    (inherited : parent.IsCanonical) :
    ∀ element, (checkStylesWithin presentation parent element).Completes
  | ⟨tag, attributes, children, text, tail⟩ => by
      rw [checkStylesWithin]
      apply (checkStyleOf_completes inherited presentation _).bind
      intro ⟨own, computed⟩ canonical
      apply (checkStylesOfAll_completes presentation canonical children).bind
      intro inner
      exact Attempt.pure_completes _

private theorem checkStylesOfAll_completes (presentation : Presentation) {parent : Computed}
    (inherited : parent.IsCanonical) :
    ∀ elements, (checkStylesOfAll presentation parent elements).Completes
  | [] => by
      rw [checkStylesOfAll]
      exact Attempt.pure_completes true
  | first :: rest => by
      rw [checkStylesOfAll]
      apply (checkStylesWithin_completes presentation inherited first).bind
      intro own
      apply (checkStylesOfAll_completes presentation inherited rest).bind
      intro others
      exact Attempt.pure_completes _

end

/-! ## Documents -/

private theorem resolveReferences_completes (styles : Option (Catalogue Element))
    (root : Element) : (resolveReferences styles root).Completes := by
  cases styles with
  | none => exact (Attempt.note_completes _).bind fun _ => Attempt.pure_completes _
  | some styles =>
      apply (Attempt.note_completes _).bind
      intro _
      apply (Attempt.judge_completes _).bind
      intro valid
      exact Attempt.pure_completes _

theorem checkBodyStyles_completes (presentation : Presentation) (root : Element) :
    (checkBodyStyles presentation root).Completes := by
  unfold checkBodyStyles
  dsimp only
  split
  · exact checkStylesWithin_completes presentation empty_canonical _
  · exact Attempt.judge_completes _

theorem checkStyleReferences_completes (root : Element) :
    (checkStyleReferences root).Completes := by
  apply Run.context_completes.bind
  intro context
  apply (Run.ofAttempt_completes (resolveReferences_completes _ root)).bind
  intro ⟨resolves, resolved⟩
  apply (Run.ofAttempt_completes (checkBodyStyles_completes _ root)).bind
  intro styled
  dsimp only
  split
  · exact (Run.change_completes _).bind fun _ => Run.affirmed_completes _ _
  · exact Run.affirmed_completes _ _

end TimedText.Check
