import TimedText.Proofs.Frame
/-!
What checks look at. A run sees a view of the context only if it comes to the same for all
contexts that look alike, and leaves contexts that look alike. Checks in turn that see such
a view are the same steps in all these contexts.
-/

namespace TimedText

open Check

namespace Check.Run

variable {α β γ : Type} {view : Context → γ}

/-- Nothing but a view of the contexts tells two outcomes apart. -/
structure Alike (view : Context → γ) (left right : Outcome α) : Prop where
  result : left.result = right.result
  findings : left.findings = right.findings
  context : view left.context = view right.context

/-- The run comes to the same in contexts that look alike. -/
def SeesOnly (view : Context → γ) (run : Run α) : Prop :=
  ∀ left right, view left = view right → Alike view (run left) (run right)

private theorem pure_sees (value : α) : (pure value : Run α).SeesOnly view :=
  fun _ _ same => ⟨rfl, rfl, same⟩

private theorem note_sees (findings : Log) : (note findings).SeesOnly view :=
  fun _ _ same => ⟨rfl, rfl, same⟩

private theorem judge_sees (verdict : Verdict) : (judge verdict).SeesOnly view :=
  fun _ _ same => ⟨rfl, rfl, same⟩

private theorem change_sees {update : Context → Context}
    (agrees : ∀ left right, view left = view right → view (update left) = view (update right)) :
    (change update).SeesOnly view :=
  fun left right same => ⟨rfl, rfl, agrees left right same⟩

private theorem SeesOnly.bind {first : Run α} {next : α → Run β} (firstSees : first.SeesOnly view)
    (nextSees : ∀ value, (next value).SeesOnly view) : (first >>= next).SeesOnly view := by
  intro left right same
  rcases firstSees left right same with ⟨result, findings, context⟩
  cases gives : (first left).result with
  | error fault =>
      rw [bind_of_error gives, bind_of_error (result ▸ gives)]
      exact ⟨rfl, findings, context⟩
  | ok value =>
      rw [bind_of_ok gives, bind_of_ok (result ▸ gives)]
      rcases nextSees value _ _ context with ⟨nextResult, nextFindings, nextContext⟩
      exact ⟨nextResult, by rw [findings, nextFindings], nextContext⟩

private theorem context_bind_sees {next : Context → Run β}
    (agrees : ∀ left right, view left = view right → next left = next right)
    (nextSees : ∀ context, (next context).SeesOnly view) :
    (Run.context >>= next).SeesOnly view := by
  intro left right same
  have leftRuns : (Run.context >>= next) left = next left left := rfl
  have rightRuns : (Run.context >>= next) right = next right right := rfl
  rw [leftRuns, rightRuns, agrees left right same]
  exact nextSees right left right same

private theorem affirmed_sees (valid : Bool) (finding : Finding) :
    (do
      if valid then Run.note [finding]
      return valid : Run Bool).SeesOnly view := by
  cases valid with
  | false => exact pure_sees false
  | true => exact (note_sees _).bind fun _ => pure_sees true

end Check.Run

/-! ## Steps -/

structure Step where
  check : ElementCheck
  seen : Element
  result : Except Fault Bool
  findings : Log

def Step.verdict (step : Step) : Verdict :=
  match step.result with
  | .ok valid => ⟨valid, step.findings⟩
  | .error fault => ⟨false, step.findings ++ [faultFinding step.check.name fault]⟩

def steps (context : Context) (root : Element) : List ElementCheck → List Step
  | [] => []
  | check :: rest =>
    ⟨check, root, (check.run root context).result, (check.run root context).findings⟩
      :: steps { (check.run root context).context with replacement := none }
        ((check.run root context).context.replacement.getD root) rest

def verdictOf (steps : List Step) : Verdict :=
  steps.foldr (fun step others => step.verdict ++ others) .silent

theorem verdictOf_append (front last : List Step) :
    verdictOf (front ++ last) = verdictOf front ++ verdictOf last := by
  induction front with
  | nil => rfl
  | cons step front induction =>
      change step.verdict ++ verdictOf (front ++ last) = _
      rw [induction, ← Verdict.append_assoc]
      rfl

theorem runChecks_steps (context : Context) (root : Element) (checks : List ElementCheck) :
    runChecks context root checks = verdictOf (steps context root checks) := by
  induction checks generalizing context root with
  | nil => rfl
  | cons check rest induction =>
      rw [runChecks, induction]
      rfl

theorem map_check_steps (context : Context) (root : Element) (checks : List ElementCheck) :
    (steps context root checks).map Step.check = checks := by
  induction checks generalizing context root with
  | nil => rfl
  | cons check rest induction => exact congrArg (check :: ·) (induction _ _)

theorem steps_append (context : Context) (root : Element) (front last : List ElementCheck) :
    steps context root (front ++ last)
      = steps context root front
        ++ steps (passOn context root front).1 (passOn context root front).2 last := by
  induction front generalizing context root with
  | nil => rfl
  | cons check rest induction => exact congrArg (_ :: ·) (induction _ _)

theorem seen_of_keeps {checks : List ElementCheck}
    (keeps : ∀ check ∈ checks, ∀ element, (check.run element).Keeps Context.replacement)
    {context : Context} (unreplaced : context.replacement = none) (root : Element) :
    ∀ step ∈ steps context root checks, step.seen = root := by
  induction checks generalizing context with
  | nil => exact nofun
  | cons check rest induction =>
      have kept := keeps check List.mem_cons_self root context
      have others := fun other member => keeps other (List.mem_cons_of_mem check member)
      refine List.forall_mem_cons.mpr ⟨rfl, ?_⟩
      rw [kept, unreplaced]
      exact induction others rfl

def withoutIds (context : Context) : Context := { context with ids := none }

private theorem eq_of_withoutIds_eq {γ : Type} (entry : Context → γ) {left right : Context}
    (same : withoutIds left = withoutIds right)
    (ignores : ∀ context, entry (withoutIds context) = entry context) :
    entry left = entry right := by
  rw [← ignores left, same, ignores right]

theorem steps_of_withoutIds_eq {checks : List ElementCheck}
    (sees : ∀ check ∈ checks, ∀ element, (check.run element).SeesOnly withoutIds)
    {left right : Context} (same : withoutIds left = withoutIds right) (root : Element) :
    steps left root checks = steps right root checks := by
  induction checks generalizing left right root with
  | nil => rfl
  | cons check rest induction =>
      rcases sees check List.mem_cons_self root left right same with
        ⟨result, findings, context⟩
      have replacement : (check.run root left).context.replacement
          = (check.run root right).context.replacement :=
        eq_of_withoutIds_eq Context.replacement context fun _ => rfl
      have cleared : withoutIds { (check.run root left).context with replacement := none }
          = withoutIds { (check.run root right).context with replacement := none } :=
        eq_of_withoutIds_eq (fun later => withoutIds { later with replacement := none })
          context fun _ => rfl
      have others := induction
        (fun other member => sees other (List.mem_cons_of_mem check member)) cleared
        ((check.run root right).context.replacement.getD root)
      rw [steps, steps, result, findings, replacement, others]

namespace Check

private theorem judgeBy_sees (rule : String → Verdict) : (judgeBy rule).SeesOnly withoutIds := by
  refine Run.context_bind_sees (fun left right same => ?_) fun _ => Run.judge_sees _
  have uri : left.uri = right.uri := eq_of_withoutIds_eq Context.uri same fun _ => rfl
  rw [uri]

private theorem fileRoot_sees (root : Element) : (fileRoot root).SeesOnly withoutIds := by
  refine (Run.change_sees fun left right same => ?_).bind fun _ => Run.judge_sees _
  exact eq_of_withoutIds_eq
    (fun seen => withoutIds { seen with rootUri := some (root.uri?.getD "") }) same fun _ => rfl

private theorem checkHead_sees {inner : Element → Run Bool}
    (innerSees : ∀ head, (inner head).SeesOnly withoutIds) (root : Element) :
    (checkHead inner root).SeesOnly withoutIds := by
  apply Run.context_bind_sees
  · intro left right same
    have uri : left.uri = right.uri := eq_of_withoutIds_eq Context.uri same fun _ => rfl
    rw [uri]
  · intro context
    dsimp only
    split
    · exact (innerSees _).bind fun valid => Run.affirmed_sees valid _
    · exact Run.judge_sees _

private theorem runAll_sees {checks : List ElementCheck}
    (sees : ∀ check ∈ checks, ∀ element, (check.run element).SeesOnly withoutIds)
    (element : Element) : (runAll checks element).SeesOnly withoutIds := by
  induction checks with
  | nil =>
      rw [runAll]
      exact Run.pure_sees true
  | cons first rest induction =>
      rw [runAll]
      apply (sees first List.mem_cons_self element).bind
      intro valid
      apply (induction fun check member =>
        sees check (List.mem_cons_of_mem first member)).bind
      intro others
      exact Run.pure_sees _

/-- Whether a check neither sees the ids that are filed nor replaces the document. -/
def ElementCheck.IsIndifferent (check : ElementCheck) : Prop :=
  ∀ element, (check.run element).SeesOnly withoutIds ∧
    (check.run element).Keeps Context.replacement

theorem isIndifferent_of_judge {check : ElementCheck} {verdict : Element → Verdict}
    (judges : ∀ element, check.run element = Run.judge (verdict element)) :
    check.IsIndifferent := by
  intro element
  rw [judges]
  exact ⟨Run.judge_sees _, Run.judge_keeps _⟩

theorem isIndifferent_of_judgeBy {check : ElementCheck} {rule : Element → String → Verdict}
    (judges : ∀ element, check.run element = judgeBy (rule element)) :
    check.IsIndifferent := by
  intro element
  rw [judges]
  exact ⟨judgeBy_sees _, judgeBy_keeps _⟩

theorem root_isIndifferent : ElementCheck.root.IsIndifferent := by
  intro element
  rw [ElementCheck.run]
  refine ⟨fileRoot_sees element, ?_⟩
  refine (Run.change_keeps ?_).bind fun _ => Run.judge_keeps _
  exact fun _ => rfl

theorem head_isIndifferent {inner : List ElementCheck}
    (indifferent : ∀ check ∈ inner, check.IsIndifferent) :
    (ElementCheck.head inner).IsIndifferent := by
  intro element
  rw [ElementCheck.run]
  refine ⟨checkHead_sees (runAll_sees fun check member head => ?_) element,
    checkHead_keeps (runAll_keeps fun check member head => ?_) element⟩
  · exact (indifferent check member head).1
  · exact (indifferent check member head).2

end Check

end TimedText
