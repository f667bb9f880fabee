import TimedText.Proofs.Omission.Captions
import TimedText.Proofs.Omission.Scripts
import TimedText.Proofs.Tally
/-!
The exit status. It is the number of defects, and so it is zero for a document
that is not valid only because some rule could not be looked at. Captions are
never left at that. A script is if all that can be said against it is that it has
no body.
-/

namespace TimedText

open Check Profile

private theorem Report.exitStatus_eq_zero_iff (report : Report) :
    report.exitStatus = 0 ↔ report.valid = true ∨ report.fails = 0 := by
  rw [exitStatus]
  split
  next valid => exact iff_of_true rfl (.inl valid)
  next invalid =>
    have positive : greatestExit ≠ 0 := by decide
    rw [or_iff_right invalid, Nat.min_eq_zero_iff]
    exact or_iff_left positive

/-- The status is that of a valid document for another one if only omissions
count against it. -/
theorem Report.exitStatus_misleads_iff {report : Report}
    (agrees : report.valid = true ↔ report.fails = 0 ∧ report.skips = 0) :
    ¬(report.exitStatus = 0 ↔ report.valid = true) ↔
      report.fails = 0 ∧ report.skips ≠ 0 := by
  rw [report.exitStatus_eq_zero_iff, agrees]
  tauto

section

variable (configuration : Configuration) (bytes : Text.Bytes)

theorem validate_fails_eq_zero_iff :
    (validate configuration bytes).fails = 0 ↔
      ¬(runStages configuration.constraints configuration.vertical bytes).findings.Has
        .fail := by
  rw [← Log.count_eq_zero_iff, ← conclude_fails configuration.constraints_covered]
  rfl

theorem validate_skips_eq_zero_iff :
    (validate configuration bytes).skips = 0 ↔
      ¬(runStages configuration.constraints configuration.vertical bytes).findings.Has
        .skip := by
  rw [← Log.count_eq_zero_iff, ← conclude_skips configuration.constraints_covered]
  rfl

end

/-- Exactly the scripts without a body that have no defect are not valid and yet
exit like a valid document. -/
theorem validate_exitStatus_misleads_iff (configuration : Configuration)
    (bytes : Text.Bytes) :
    ¬((validate configuration bytes).exitStatus = 0 ↔
        (validate configuration bytes).valid = true) ↔
      configuration.profile = .scripts ∧ (validate configuration bytes).fails = 0 ∧
        ∃ root,
          readRoot (runByteChecks bytes configuration.constraints.byteChecks).2
            = .ok root ∧
          ∀ child ∈ (prune root).1.children, child.localPart ≠ "body" := by
  have agrees := runStages_valid_iff configuration.constraints_covered
    configuration.vertical bytes
  rw [Report.exitStatus_misleads_iff agrees, ne_eq, validate_skips_eq_zero_iff, not_not,
    and_left_comm]
  apply and_congr_right
  intro none
  have sound := (validate_fails_eq_zero_iff configuration bytes).mp none
  cases profile : configuration.profile with
  | captions =>
      have selected : configuration.constraints
          = captions configuration.segment configuration.schema := by
        rw [Configuration.constraints, profile]
      rw [selected] at sound ⊢
      refine iff_of_false (fun omitted => sound ?_) (by simp)
      exact captions_caused _ _ _ _ omitted
  | scripts =>
      have selected : configuration.constraints
          = scripts configuration.segment configuration.schema configuration.registries := by
        rw [Configuration.constraints, profile]
      rw [selected] at sound ⊢
      simpa using scripts_omit_iff _ _ _ _ _ sound

end TimedText
