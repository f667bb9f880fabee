import TimedText.Proofs.Frame
/-!
The elements that have been entered, in composite checks. Whatever a composite check runs
inside of elements, it leaves each of them that it enters, and so the elements that have been
entered are the same afterwards, also where something stops at a fault further inside.
-/

namespace TimedText.Check

open Timing

namespace Run

variable {α β γ : Type} {first : Run α}

/-- Of what a run inside of an element has entered, the innermost element is the one that is
left, if the run itself leaves those that it enters. -/
private theorem Keeps.inside (keeps : first.Keeps Context.entered) (presence : Presence) :
    (Run.inside presence first).Keeps Context.entered := by
  intro context
  have within := keeps { context with entered := presence :: context.entered }
  exact congrArg List.tail within

private theorem Keeps.choice {entry : Context → γ} {other : α} {next : α → Run β}
    {condition : Bool} (keeps : first.Keeps entry)
    (nextKeeps : ∀ value, (next value).Keeps entry) :
    (if condition then first >>= next else pure other >>= next).Keeps entry := by
  cases condition with
  | false => exact (pure_keeps other).bind nextKeeps
  | true => exact keeps.bind nextKeeps

end Run

/-! ## Composite checks -/

section

variable {inner : Element → Run Bool}

private theorem checkBody_keeps_entered (keeps : ∀ element, (inner element).Keeps Context.entered)
    (root : Element) : (checkBody inner root).Keeps Context.entered := by
  apply Run.context_keeps.bind
  intro context
  dsimp only
  split
  · exact ((keeps _).inside _).bind fun valid => Run.affirmed_keeps valid _
  · exact Run.judge_keeps _

mutual

private theorem checkDivisions_keeps_entered
    (keeps : ∀ element, (inner element).Keeps Context.entered) (nested : Bool) :
    ∀ element, (checkDivisions nested inner element).Keeps Context.entered
  | ⟨tag, attributes, children, text, tail⟩ => by
      rw [checkDivisions]
      apply Run.context_keeps.bind
      intro context
      apply (Run.judge_keeps _).bind
      intro counted
      apply (checkEachDivision_keeps_entered keeps nested _ children).bind
      intro checked
      exact Run.pure_keeps _

private theorem checkEachDivision_keeps_entered
    (keeps : ∀ element, (inner element).Keeps Context.entered) (nested : Bool)
    (division : String) : ∀ elements,
      (checkEachDivision nested inner division elements).Keeps Context.entered
  | [] => by
      rw [checkEachDivision]
      exact Run.pure_keeps true
  | first :: rest => by
      rw [checkEachDivision]
      split
      · refine Run.Keeps.bind (Run.Keeps.inside ?_ _) ?_
        · apply (checkDivisions_keeps_entered keeps nested first).choice
          intro within
          apply (keeps first).bind
          intro own
          exact Run.pure_keeps _
        · intro valid
          apply (checkEachDivision_keeps_entered keeps nested division rest).bind
          intro others
          exact Run.pure_keeps _
      · exact checkEachDivision_keeps_entered keeps nested division rest

end

private theorem checkInside_keeps_entered
    (keeps : ∀ element, (inner element).Keeps Context.entered) (elements : List Element) :
    (checkInside inner elements).Keeps Context.entered := by
  induction elements with
  | nil => exact Run.pure_keeps true
  | cons first rest induction =>
      apply ((keeps first).inside _).bind
      intro valid
      apply induction.bind
      intro others
      exact Run.pure_keeps _

private theorem checkParagraphs_keeps_entered
    (keeps : ∀ element, (inner element).Keeps Context.entered) (element : Element) :
    (checkParagraphs inner element).Keeps Context.entered := by
  apply Run.context_keeps.bind
  intro context
  apply (Run.judge_keeps _).bind
  intro counted
  apply (checkInside_keeps_entered keeps _).bind
  intro checked
  exact Run.pure_keeps _

mutual

private theorem checkSpans_keeps_entered
    (keeps : ∀ element, (inner element).Keeps Context.entered)
    (textRequired nestingPermitted : Bool) : ∀ element,
      (checkSpans textRequired nestingPermitted inner element).Keeps Context.entered
  | ⟨tag, attributes, children, text, tail⟩ => by
      rw [checkSpans]
      apply Run.context_keeps.bind
      intro context
      apply (Run.judge_keeps _).bind
      intro counted
      apply ((checkEachSpan_keeps_entered keeps textRequired nestingPermitted _
        children).inside _).bind
      intro checked
      exact Run.pure_keeps _

private theorem checkEachSpan_keeps_entered
    (keeps : ∀ element, (inner element).Keeps Context.entered)
    (textRequired nestingPermitted : Bool) (span : String) : ∀ elements,
      (checkEachSpan textRequired nestingPermitted inner span elements).Keeps
        Context.entered
  | [] => by
      rw [checkEachSpan]
      exact Run.pure_keeps true
  | first :: rest => by
      rw [checkEachSpan]
      split
      · apply (keeps first).bind
        intro own
        apply (checkSpans_keeps_entered keeps textRequired nestingPermitted first).bind
        intro within
        apply (checkEachSpan_keeps_entered keeps textRequired nestingPermitted span
          rest).bind
        intro others
        exact Run.pure_keeps _
      · exact checkEachSpan_keeps_entered keeps textRequired nestingPermitted span rest

end

end

/-! ## Checks of checks -/

mutual

/-- The simple checks that a check comes down to: those that a composite check runs inside
of elements, or inside of elements in them, and of a simple check it alone. -/
def ElementCheck.leaves : ElementCheck → List ElementCheck
  | .head inner | .body inner | .divisions inner _ | .paragraphs inner
  | .spans inner _ _ => leavesOfAll inner
  | simple => [simple]

def leavesOfAll : List ElementCheck → List ElementCheck
  | [] => []
  | first :: rest => first.leaves ++ leavesOfAll rest

end

abbrev ElementCheck.KeepsEntered (check : ElementCheck) : Prop :=
  ∀ element, (check.run element).Keeps Context.entered

mutual

theorem ElementCheck.keepsEntered_of_leaves (check : ElementCheck)
    (leavesKeep : ∀ leaf ∈ check.leaves, leaf.KeepsEntered) : check.KeepsEntered := by
  intro element
  cases check with
  | head inner =>
      rw [ElementCheck.leaves] at leavesKeep
      rw [ElementCheck.run]
      exact checkHead_keeps (runAll_keeps (keepsEntered_of_leavesOfAll inner leavesKeep))
        element
  | body inner =>
      rw [ElementCheck.leaves] at leavesKeep
      rw [ElementCheck.run]
      exact checkBody_keeps_entered
        (runAll_keeps (keepsEntered_of_leavesOfAll inner leavesKeep)) element
  | divisions inner nested =>
      rw [ElementCheck.leaves] at leavesKeep
      rw [ElementCheck.run]
      exact checkDivisions_keeps_entered
        (runAll_keeps (keepsEntered_of_leavesOfAll inner leavesKeep)) nested element
  | paragraphs inner =>
      rw [ElementCheck.leaves] at leavesKeep
      rw [ElementCheck.run]
      exact checkParagraphs_keeps_entered
        (runAll_keeps (keepsEntered_of_leavesOfAll inner leavesKeep)) element
  | spans inner textRequired nestingPermitted =>
      rw [ElementCheck.leaves] at leavesKeep
      rw [ElementCheck.run]
      exact checkSpans_keeps_entered
        (runAll_keeps (keepsEntered_of_leavesOfAll inner leavesKeep)) textRequired
        nestingPermitted element
  | _ =>
      rw [ElementCheck.leaves] at leavesKeep
      · exact leavesKeep _ (List.mem_singleton_self _) element
      all_goals exact nofun

private theorem keepsEntered_of_leavesOfAll (checks : List ElementCheck)
    (leavesKeep : ∀ leaf ∈ leavesOfAll checks, leaf.KeepsEntered) :
    ∀ check ∈ checks, check.KeepsEntered := by
  cases checks with
  | nil => exact nofun
  | cons first rest =>
      rw [leavesOfAll] at leavesKeep
      rcases List.forall_mem_append.mp leavesKeep with ⟨own, others⟩
      exact List.forall_mem_cons.mpr
        ⟨first.keepsEntered_of_leaves own, keepsEntered_of_leavesOfAll rest others⟩

end

/-- If the simple checks that a check comes down to leave all elements that they enter, then
so does the check, be it that it comes to a verdict or that one of them stops it at a
fault. -/
theorem ElementCheck.run_keeps_entered {check : ElementCheck}
    (leavesKeep : ∀ leaf ∈ check.leaves, leaf.KeepsEntered) (element : Element)
    (context : Context) :
    (check.run element context).context.entered = context.entered :=
  check.keepsEntered_of_leaves leavesKeep element context

def stoppingCheck : ElementCheck :=
  .custom "stopping" fun _ context => ⟨.error (.internal "stopped"), context, []⟩

def stoppingBodyCheck : ElementCheck :=
  .body [.divisions [.paragraphs [.spans [.notNested, stoppingCheck] false true]] true]

def timedSpanDocument : Element :=
  let timed (part : String) (children : List Element) : Element :=
    ⟨Name.qualified Vocabulary.core part, [("begin", "1s")], children, none, none⟩
  timed "tt" [timed "body" [timed "div" [timed "div" [timed "p" [timed "span" []]]]]]

theorem ElementCheck.run_keeps_entered_stopping :
    let context : Context := { Context.initial false with entered := [⟨true, false, true⟩] }
    (∀ leaf ∈ stoppingBodyCheck.leaves, leaf.KeepsEntered) ∧
      (stoppingBodyCheck.run timedSpanDocument context).result.isOk = false ∧
      (stoppingBodyCheck.run timedSpanDocument context).context.entered
        = [⟨true, false, true⟩] := by
  have leavesKeep : ∀ leaf ∈ stoppingBodyCheck.leaves, leaf.KeepsEntered := by
    intro leaf member element
    have simple : leaf = .notNested ∨ leaf = stoppingCheck := by
      simpa [stoppingBodyCheck, stoppingCheck, ElementCheck.leaves, leavesOfAll] using member
    rcases simple with rfl | rfl
    · rw [ElementCheck.run]
      exact Run.context_keeps.bind fun _ => Run.judge_keeps _
    · rw [stoppingCheck]
      unfold ElementCheck.run
      exact fun _ => rfl
  refine ⟨leavesKeep, ?_, ElementCheck.run_keeps_entered leavesKeep _ _⟩
  decide +kernel

end TimedText.Check
