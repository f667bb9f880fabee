import TimedText.Proofs.Run
import TimedText.Validation
/-!
What checks leave alone. A run keeps an entry of the context if it leaves it as it
was, be it that the run stops at a fault; and checks that leave the context alone
altogether leave the same document to those that follow.
-/

namespace TimedText

open Check

namespace Check

namespace Run

variable {α β γ : Type} {entry : Context → γ}

def Keeps (entry : Context → γ) (run : Run α) : Prop :=
  ∀ context, entry (run context).context = entry context

theorem pure_keeps (value : α) : (pure value : Run α).Keeps entry := fun _ => rfl

theorem context_keeps : Run.context.Keeps entry := fun _ => rfl

theorem note_keeps (findings : Log) : (note findings).Keeps entry := fun _ => rfl

theorem judge_keeps (verdict : Verdict) : (judge verdict).Keeps entry := fun _ => rfl

theorem ofAttempt_keeps (attempt : Attempt α) : (ofAttempt attempt).Keeps entry :=
  fun _ => rfl

theorem change_keeps {update : Context → Context}
    (kept : ∀ context, entry (update context) = entry context) :
    (change update).Keeps entry := kept

theorem Keeps.bind {first : Run α} {next : α → Run β} (firstKeeps : first.Keeps entry)
    (nextKeeps : ∀ value, (next value).Keeps entry) : (first >>= next).Keeps entry := by
  intro context
  cases gives : (first context).result with
  | error fault =>
      rw [bind_of_error gives]
      exact firstKeeps context
  | ok value =>
      rw [bind_of_ok gives]
      exact (nextKeeps value _).trans (firstKeeps context)

theorem affirmed_keeps (valid : Bool) (finding : Finding) :
    (do
      if valid then Run.note [finding]
      return valid : Run Bool).Keeps entry := by
  cases valid with
  | false => exact pure_keeps false
  | true => exact (note_keeps _).bind fun _ => pure_keeps true

end Run

variable {γ : Type} {entry : Context → γ}

theorem judgeBy_keeps (rule : String → Verdict) : (judgeBy rule).Keeps entry :=
  fun _ => rfl

theorem checkStyleReferences_keeps_regions (root : Element) :
    (checkStyleReferences root).Keeps Context.regions := by
  apply Run.context_keeps.bind
  intro context
  apply (Run.ofAttempt_keeps _).bind
  intro ⟨resolves, resolved⟩
  apply (Run.ofAttempt_keeps _).bind
  intro styled
  dsimp only
  split
  · refine (Run.change_keeps ?_).bind fun _ => Run.affirmed_keeps _ _
    exact fun _ => rfl
  · exact Run.affirmed_keeps _ _

theorem checkHead_keeps {inner : Element → Run Bool}
    (keeps : ∀ head, (inner head).Keeps entry) (root : Element) :
    (checkHead inner root).Keeps entry := by
  apply Run.context_keeps.bind
  intro context
  dsimp only
  split
  · exact (keeps _).bind fun valid => Run.affirmed_keeps valid _
  · exact Run.judge_keeps _

theorem runAll_keeps {checks : List ElementCheck}
    (keeps : ∀ check ∈ checks, ∀ element, (check.run element).Keeps entry)
    (element : Element) : (runAll checks element).Keeps entry := by
  induction checks with
  | nil =>
      rw [runAll]
      exact Run.pure_keeps true
  | cons first rest induction =>
      rw [runAll]
      apply (keeps first List.mem_cons_self element).bind
      intro valid
      apply (induction fun check member =>
        keeps check (List.mem_cons_of_mem first member)).bind
      intro others
      exact Run.pure_keeps _

end Check

/-! ## Checks in turn -/

/-- The context and the document that checks leave to those that follow. -/
def passOn (context : Context) (root : Element) :
    List ElementCheck → Context × Element
  | [] => (context, root)
  | check :: rest =>
    passOn { (check.run root context).context with replacement := none }
      ((check.run root context).context.replacement.getD root) rest

theorem passOn_append (context : Context) (root : Element)
    (front last : List ElementCheck) :
    passOn context root (front ++ last)
      = passOn (passOn context root front).1 (passOn context root front).2 last := by
  induction front generalizing context root with
  | nil => rfl
  | cons check rest induction => exact induction _ _

theorem passOn_unreplaced {context : Context} (unreplaced : context.replacement = none)
    (root : Element) (checks : List ElementCheck) :
    (passOn context root checks).1.replacement = none := by
  induction checks generalizing context root with
  | nil => exact unreplaced
  | cons check rest induction => exact induction rfl _

theorem Verdict.append_assoc (first second third : Verdict) :
    first ++ second ++ third = first ++ (second ++ third) := by
  change Verdict.mk _ _ = Verdict.mk _ _
  rw [Verdict.mk.injEq]
  exact ⟨Bool.and_assoc _ _ _, List.append_assoc _ _ _⟩

theorem runChecks_append (context : Context) (root : Element)
    (front last : List ElementCheck) :
    runChecks context root (front ++ last)
      = runChecks context root front
        ++ runChecks (passOn context root front).1 (passOn context root front).2 last := by
  induction front generalizing context root with
  | nil => rfl
  | cons check rest induction =>
      rw [List.cons_append, runChecks, induction, runChecks, passOn,
        Verdict.append_assoc]

def Check.ElementCheck.IsStill (check : ElementCheck) : Prop :=
  ∀ element, (check.run element).Keeps id

theorem passOn_of_still {checks : List ElementCheck}
    (still : ∀ check ∈ checks, check.IsStill) {context : Context}
    (unreplaced : context.replacement = none) (root : Element) :
    passOn context root checks = (context, root) := by
  induction checks with
  | nil => rfl
  | cons check rest induction =>
      have same : (check.run root context).context = context :=
        still check List.mem_cons_self root context
      have whole : { context with replacement := none } = context := by
        rw [← unreplaced]
      rw [passOn, same, unreplaced, whole]
      exact induction fun check member => still check (List.mem_cons_of_mem _ member)

end TimedText
