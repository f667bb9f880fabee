import TimedText.Proofs.Frame
/-!
Attempts and runs that complete. An attempt completes with values of some kind if it
does not stop at a fault; so does a run, whatever context it starts in.
-/

namespace TimedText

open Check Timing

/-! ## Attempts -/

namespace Attempt

variable {α β : Type} {post : α → Prop} {last : β → Prop}

def CompletesWith (post : α → Prop) (attempt : Attempt α) : Prop :=
  ∃ value, attempt.result = .ok value ∧ post value

abbrev Completes (attempt : Attempt α) : Prop :=
  attempt.CompletesWith fun _ => True

theorem pure_completesWith {value : α} (holds : post value) :
    (pure value : Attempt α).CompletesWith post :=
  ⟨value, rfl, holds⟩

theorem pure_completes (value : α) : (pure value : Attempt α).Completes :=
  pure_completesWith trivial

theorem note_completes (findings : Log) : (note findings).Completes :=
  ⟨(), rfl, trivial⟩

theorem judge_completes (verdict : Verdict) : (judge verdict).Completes :=
  ⟨verdict.valid, rfl, trivial⟩

theorem ofExcept_completes {result : Except Fault α}
    (gives : ∃ value, result = .ok value) : (ofExcept result).Completes := by
  rcases gives with ⟨value, gives⟩
  exact ⟨value, gives, trivial⟩

theorem CompletesWith.bind {first : Attempt α} {next : α → Attempt β}
    (completes : first.CompletesWith post)
    (goesOn : ∀ value, post value → (next value).CompletesWith last) :
    (first >>= next).CompletesWith last := by
  rcases completes with ⟨value, gives, holds⟩
  rcases goesOn value holds with ⟨final, ends, meets⟩
  rw [bind_of_ok gives]
  exact ⟨final, ends, meets⟩

theorem Completes.bind {first : Attempt α} {next : α → Attempt β}
    (completes : first.Completes) (goesOn : ∀ value, (next value).CompletesWith last) :
    (first >>= next).CompletesWith last :=
  CompletesWith.bind completes fun value _ => goesOn value

theorem Completes.choice {attempt : Attempt α} {other : α} {next : α → Attempt β}
    {condition : Bool} (completes : attempt.Completes)
    (goesOn : ∀ value, (next value).CompletesWith last) :
    (if condition then attempt >>= next else pure other >>= next).CompletesWith last := by
  cases condition with
  | false => exact (pure_completes other).bind goesOn
  | true => exact completes.bind goesOn

end Attempt

namespace Check

/-! ## Runs -/

namespace Run

variable {α β : Type}

def Completes (run : Run α) : Prop :=
  ∀ context, ∃ value, (run context).result = .ok value

theorem pure_completes (value : α) : (pure value : Run α).Completes :=
  fun _ => ⟨value, rfl⟩

theorem context_completes : Run.context.Completes :=
  fun context => ⟨context, rfl⟩

theorem change_completes (update : Context → Context) : (change update).Completes :=
  fun _ => ⟨(), rfl⟩

theorem note_completes (findings : Log) : (note findings).Completes :=
  fun _ => ⟨(), rfl⟩

theorem judge_completes (verdict : Verdict) : (judge verdict).Completes :=
  fun _ => ⟨verdict.valid, rfl⟩

theorem ofAttempt_completes {attempt : Attempt α} (completes : attempt.Completes) :
    (ofAttempt attempt).Completes := by
  intro context
  rcases completes with ⟨value, gives, _⟩
  exact ⟨value, gives⟩

variable {first : Run α} {next : α → Run β}

private theorem Completes.inside (completes : first.Completes) (presence : Presence) :
    (Run.inside presence first).Completes := fun _ => completes _

theorem Completes.bind (completes : first.Completes)
    (goesOn : ∀ value, (next value).Completes) : (first >>= next).Completes := by
  intro context
  rcases completes context with ⟨value, gives⟩
  rw [bind_of_ok gives]
  exact goesOn value _

private theorem Completes.choice {other : α} {condition : Bool} (completes : first.Completes)
    (goesOn : ∀ value, (next value).Completes) :
    (if condition then first >>= next else pure other >>= next).Completes := by
  cases condition with
  | false => exact (pure_completes other).bind goesOn
  | true => exact completes.bind goesOn

theorem filed_completes (update : Context → Context) (verdict : Verdict) :
    (do
      change update
      judge verdict : Run Bool).Completes :=
  (change_completes update).bind fun _ => judge_completes verdict

theorem affirmed_completes (valid : Bool) (finding : Finding) :
    (do
      if valid then Run.note [finding]
      return valid : Run Bool).Completes := by
  cases valid with
  | false => exact pure_completes false
  | true => exact (note_completes _).bind fun _ => pure_completes true

end Run

theorem judgeBy_completes (rule : String → Verdict) : (judgeBy rule).Completes :=
  Run.context_completes.bind fun _ => Run.judge_completes _

/-! ## Checks that file something -/

theorem checkIds_completes (root : Element) : (checkIds root).Completes :=
  Run.filed_completes _ _

theorem fileRoot_completes (root : Element) : (fileRoot root).Completes :=
  Run.filed_completes _ _

theorem fileCellResolution_completes (required : Bool) (root : Element) :
    (fileCellResolution required root).Completes :=
  Run.context_completes.bind fun _ =>
    Run.filed_completes _ _

theorem fileStyles_completes (head : Element) : (fileStyles head).Completes :=
  Run.context_completes.bind fun _ =>
    Run.filed_completes _ _

theorem fileRegions_completes (head : Element) : (fileRegions head).Completes :=
  Run.context_completes.bind fun _ =>
    Run.filed_completes _ _

theorem checkVocabulary_completes (root : Element) : (checkVocabulary root).Completes := by
  have ends (findings : Log) : (do Run.note findings; return true : Run Bool).Completes :=
    (Run.note_completes findings).bind fun _ => Run.pure_completes true
  unfold checkVocabulary
  split
  dsimp only
  split
  · exact (Run.change_completes _).bind fun _ => ends _
  · exact ends _

theorem checkRegionReferences_completes (root : Element) :
    (checkRegionReferences root).Completes := by
  apply Run.context_completes.bind
  intro context
  dsimp only
  split
  · apply (Run.change_completes _).bind
    intro _
    split
    · exact Run.judge_completes _
    · exact Run.filed_completes _ _
  · exact Run.judge_completes _

/-! ## Composite checks -/

section

variable {inner : Element → Run Bool}

theorem checkHead_completes (completes : ∀ element, (inner element).Completes)
    (root : Element) : (checkHead inner root).Completes := by
  apply Run.context_completes.bind
  intro context
  dsimp only
  split
  · exact (completes _).bind fun valid => Run.affirmed_completes valid _
  · exact Run.judge_completes _

theorem checkBody_completes (completes : ∀ element, (inner element).Completes)
    (root : Element) : (checkBody inner root).Completes := by
  apply Run.context_completes.bind
  intro context
  dsimp only
  split
  · exact ((completes _).inside _).bind fun valid => Run.affirmed_completes valid _
  · exact Run.judge_completes _

mutual

theorem checkDivisions_completes (completes : ∀ element, (inner element).Completes)
    (nested : Bool) : ∀ element, (checkDivisions nested inner element).Completes
  | ⟨tag, attributes, children, text, tail⟩ => by
      rw [checkDivisions]
      apply Run.context_completes.bind
      intro context
      apply (Run.judge_completes _).bind
      intro counted
      apply (checkEachDivision_completes completes nested _ children).bind
      intro checked
      exact Run.pure_completes _

theorem checkEachDivision_completes (completes : ∀ element, (inner element).Completes)
    (nested : Bool) (division : String) :
    ∀ elements, (checkEachDivision nested inner division elements).Completes
  | [] => by
      rw [checkEachDivision]
      exact Run.pure_completes true
  | first :: rest => by
      rw [checkEachDivision]
      split
      · refine Run.Completes.bind (Run.Completes.inside ?_ _) ?_
        · apply (checkDivisions_completes completes nested first).choice
          intro within
          apply (completes first).bind
          intro own
          exact Run.pure_completes _
        · intro valid
          apply (checkEachDivision_completes completes nested division rest).bind
          intro others
          exact Run.pure_completes _
      · exact checkEachDivision_completes completes nested division rest

end

theorem runAll_completes_of_mem {checks : List ElementCheck}
    (completes : ∀ check ∈ checks, ∀ element, (check.run element).Completes)
    (element : Element) : (runAll checks element).Completes := by
  induction checks with
  | nil =>
      rw [runAll]
      exact Run.pure_completes true
  | cons first rest induction =>
      rw [runAll]
      apply (completes first List.mem_cons_self element).bind
      intro valid
      apply (induction fun check member => completes check (List.mem_cons_of_mem _ member)).bind
      intro others
      exact Run.pure_completes _

theorem checkInside_completes (completes : ∀ element, (inner element).Completes)
    (elements : List Element) : (checkInside inner elements).Completes := by
  induction elements with
  | nil => exact Run.pure_completes true
  | cons first rest induction =>
      apply ((completes first).inside _).bind
      intro valid
      apply induction.bind
      intro others
      exact Run.pure_completes _

theorem checkParagraphs_completes (completes : ∀ element, (inner element).Completes)
    (element : Element) : (checkParagraphs inner element).Completes := by
  apply Run.context_completes.bind
  intro context
  apply (Run.judge_completes _).bind
  intro counted
  apply (checkInside_completes completes _).bind
  intro checked
  exact Run.pure_completes _

mutual

theorem checkSpans_completes (completes : ∀ element, (inner element).Completes)
    (textRequired nestingPermitted : Bool) :
    ∀ element, (checkSpans textRequired nestingPermitted inner element).Completes
  | ⟨tag, attributes, children, text, tail⟩ => by
      rw [checkSpans]
      apply Run.context_completes.bind
      intro context
      apply (Run.judge_completes _).bind
      intro counted
      apply ((checkEachSpan_completes completes textRequired nestingPermitted _
        children).inside _).bind
      intro checked
      exact Run.pure_completes _

theorem checkEachSpan_completes (completes : ∀ element, (inner element).Completes)
    (textRequired nestingPermitted : Bool) (span : String) :
    ∀ elements,
      (checkEachSpan textRequired nestingPermitted inner span elements).Completes
  | [] => by
      rw [checkEachSpan]
      exact Run.pure_completes true
  | first :: rest => by
      rw [checkEachSpan]
      split
      · apply (completes first).bind
        intro own
        apply (checkSpans_completes completes textRequired nestingPermitted first).bind
        intro within
        apply (checkEachSpan_completes completes textRequired nestingPermitted span
          rest).bind
        intro others
        exact Run.pure_completes _
      · exact checkEachSpan_completes completes textRequired nestingPermitted span rest

end

end

end Check

end TimedText
