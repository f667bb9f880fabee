import TimedText.Finding.Verdict
/-!
What verdicts that are put together come to: when they are positive, and what they find.
-/

namespace TimedText.Verdict

variable {α : Type}

/-! ## Validity -/

theorem append_valid (first second : Verdict) :
    (first ++ second).valid = true ↔ first.valid = true ∧ second.valid = true :=
  Bool.and_eq_true_iff

theorem forEach_valid (members : List α) (rule : α → Verdict) :
    (forEach members rule).valid = true ↔
      ∀ member ∈ members, (rule member).valid = true := by
  simp [forEach, all]

theorem when_valid (condition : Bool) (verdict : Verdict) :
    (Verdict.when condition verdict).valid = true ↔
      (condition = true → verdict.valid = true) := by
  cases condition
  · simp [Verdict.when, silent]
  · simp [Verdict.when]

theorem when_against_valid (condition : Bool) (finding : Finding) :
    (Verdict.when condition (against finding)).valid = !condition := by
  cases condition <;> rfl

theorem affirm_valid (verdict : Verdict) (finding : Finding) :
    (verdict.affirm finding).valid = verdict.valid := by
  change (verdict.valid && (Verdict.when verdict.valid (remark finding)).valid) = verdict.valid
  cases verdict.valid <;> rfl

/-! ## Findings -/

theorem findings_append (first second : Verdict) :
    (first ++ second).findings = first.findings ++ second.findings := rfl

theorem forEach_findings (members : List α) (rule : α → Verdict) :
    (forEach members rule).findings = members.flatMap fun member => (rule member).findings :=
  List.flatMap_map rule (·.findings) members

theorem mem_when_against {condition : Bool} {finding defect : Finding} :
    finding ∈ (Verdict.when condition (against defect)).findings ↔
      condition = true ∧ finding = defect := by
  cases condition <;> simp [Verdict.when, against, silent]

end TimedText.Verdict
