import TimedText.Check.Composition
import TimedText.Proofs.Codes
/-!
What checks find under one code. Checks that only use other codes find nothing under it, and a
check that is made of others finds what these find, one after the other.
-/

namespace TimedText.Check

open Timing

private theorem withCode_append (code : Code) (left right : Log) :
    Log.withCode (left ++ right) code = Log.withCode left code ++ Log.withCode right code :=
  List.filter_append left right

namespace Run

variable {α β : Type} {code : Code} {context : Context} {found more : Log} {run first : Run α}
  {next : α → Run β}

/-- In a context the run comes to a value and leaves the context as it is, and these are its
findings with a code. -/
structure Finds (code : Code) (context : Context) (found : Log) (run : Run α) : Prop where
  completes : ∃ value, (run context).result = .ok value
  keeps : (run context).context = context
  finds : (run context).findings.withCode code = found

theorem pure_finds (value : α) : (pure value : Run α).Finds code context [] :=
  ⟨⟨value, rfl⟩, rfl, rfl⟩

theorem judge_finds (verdict : Verdict) :
    (judge verdict).Finds code context (verdict.findings.withCode code) :=
  ⟨⟨verdict.valid, rfl⟩, rfl, rfl⟩

theorem judge_finds_nothing {codes : List Code} {verdict : Verdict}
    (uses : verdict.UsesOnly codes) (other : code ∉ codes) :
    (judge verdict).Finds code context [] := by
  have none : verdict.findings.withCode code = [] := by
    rw [Log.withCode, List.filter_eq_nil_iff]
    intro finding member same
    exact other (of_decide_eq_true same ▸ uses finding member)
  rw [← none]
  exact judge_finds verdict

theorem Finds.bind (firstFinds : first.Finds code context found)
    (nextFinds : ∀ value, (next value).Finds code context more) :
    (first >>= next).Finds code context (found ++ more) := by
  rcases firstFinds with ⟨⟨value, gives⟩, keeps, finds⟩
  rcases nextFinds value with ⟨⟨last, ends⟩, keepsToo, findsMore⟩
  have whole : (first >>= next) context = _ := bind_of_ok gives
  rw [keeps] at whole
  refine ⟨⟨last, ?_⟩, ?_, ?_⟩
  · rw [whole, ends]
  · rw [whole, keepsToo]
  · rw [whole, withCode_append, finds, findsMore]

theorem Finds.before (firstFinds : first.Finds code context [])
    (nextFinds : ∀ value, (next value).Finds code context found) :
    (first >>= next).Finds code context found :=
  firstFinds.bind nextFinds

theorem Finds.followed (runFinds : run.Finds code context found) (made : α → β) :
    (run >>= fun value => pure (made value)).Finds code context found := by
  rw [← List.append_nil found]
  exact runFinds.bind fun value => pure_finds (made value)

theorem context_bind_finds {next : Context → Run β}
    (nextFinds : (next context).Finds code context found) :
    (Run.context >>= next).Finds code context found :=
  ⟨nextFinds.completes, nextFinds.keeps, nextFinds.finds⟩

theorem Finds.inside {presence : Presence}
    (runFinds : run.Finds code { context with entered := presence :: context.entered } found) :
    (Run.inside presence run).Finds code context found := by
  rcases runFinds with ⟨completes, keeps, finds⟩
  refine ⟨completes, ?_, finds⟩
  rw [Run.inside]
  dsimp only
  rw [keeps]
  rfl

theorem affirmed_finds (valid : Bool) {finding : Finding} (other : finding.code ≠ code) :
    (do
      if valid then Run.note [finding]
      return valid : Run Bool).Finds code context [] := by
  cases valid with
  | false => exact pure_finds false
  | true =>
      have none : Log.withCode [finding] code = [] := by
        rw [Log.withCode, List.filter_cons_of_neg (by simpa using other), List.filter_nil]
      exact ⟨⟨true, rfl⟩, rfl, by
        change Log.withCode ([finding] ++ []) code = []
        rw [List.append_nil, none]⟩

end Run

section

variable {code : Code} {context : Context} {found : Log} {check : ElementCheck}
  {checks : List ElementCheck} {element : Element}

theorem runAll_finds_after (checkFinds : (check.run element).Finds code context [])
    (othersFind : (runAll checks element).Finds code context found) :
    (runAll (check :: checks) element).Finds code context found := by
  rw [runAll]
  exact checkFinds.before fun valid => othersFind.followed _

theorem runAll_singleton_finds (checkFinds : (check.run element).Finds code context found) :
    (runAll [check] element).Finds code context found := by
  rw [runAll, runAll]
  exact checkFinds.followed _

theorem judgeBy_finds_nothing {codes : List Code} {rule : String → Verdict}
    (uses : ∀ uri, (rule uri).UsesOnly codes) (other : code ∉ codes) :
    (judgeBy rule).Finds code context [] :=
  Run.context_bind_finds (Run.judge_finds_nothing (uses context.uri) other)

theorem checkInside_finds {inner : Element → Run Bool}
    {elements : List Element} {found : Element → Log}
    (innerFinds : ∀ element ∈ elements, (inner element).Finds code
      { context with entered := Presence.of element :: context.entered } (found element)) :
    (checkInside inner elements).Finds code context (elements.flatMap found) := by
  induction elements with
  | nil => exact Run.pure_finds true
  | cons first rest induction =>
      rcases List.forall_mem_cons.mp innerFinds with ⟨own, others⟩
      rw [checkInside, List.flatMap_cons]
      apply own.inside.bind
      intro valid
      exact (induction others).followed _

end

end TimedText.Check
