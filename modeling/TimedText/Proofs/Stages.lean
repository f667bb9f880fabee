import TimedText.Proofs.Account.Composition
import TimedText.Validation
/-!
The accounts of the stages of validation. A check that stops at a fault is a
defect under a code of its own, so that a stage within under the charges of its
checks or because of a fault.
-/

namespace TimedText

open Check Profile

def Finding.IsFault (finding : Finding) : Prop :=
  ∃ name fault, finding = faultFinding name fault

/-- The verdict is negative exactly if one of its findings counts against the
document, and those that count are of some charges or about faults. -/
structure Verdict.Answers (charges : List Charge) (verdict : Verdict) : Prop where
  agrees : verdict.valid = verdict.findings.isClean
  within : ∀ finding ∈ verdict.findings, finding.status.counts = true →
    finding.charge ∈ charges ∨ finding.IsFault

section

variable {charges more : List Charge} {verdict left right : Verdict}

private theorem Verdict.Accounts.answers (accounts : verdict.Accounts charges) :
    verdict.Answers charges where
  agrees := accounts.agrees
  within finding member counts := .inl (accounts.within finding member counts)

private theorem Verdict.Answers.mono (answers : verdict.Answers charges)
    (subset : charges ⊆ more) : verdict.Answers more where
  agrees := answers.agrees
  within finding member counts :=
    (answers.within finding member counts).imp_left (subset ·)

private theorem Verdict.Answers.append (leftAnswers : left.Answers charges)
    (rightAnswers : right.Answers charges) : (left ++ right).Answers charges where
  agrees := by
    change (left.valid && right.valid) = Log.isClean (left.findings ++ right.findings)
    rw [Log.isClean_append, leftAnswers.agrees, rightAnswers.agrees]
  within finding member counts := by
    rcases List.mem_append.mp member with member | member
    · exact leftAnswers.within finding member counts
    · exact rightAnswers.within finding member counts

variable {α : Type} {flag : α → Bool} {attempt : Attempt α}

private theorem Attempt.Accounts.answers {value : α} (accounts : attempt.Accounts charges true flag)
    (gives : attempt.result = .ok value) :
    (⟨flag value, attempt.findings⟩ : Verdict).Answers charges where
  agrees := accounts.agrees value gives
  within finding member counts := .inl (accounts.within finding member counts)

private theorem Attempt.Accounts.faulted (accounts : attempt.Accounts charges true flag)
    (name : String) (fault : Fault) :
    (⟨false, attempt.findings ++ [faultFinding name fault]⟩ : Verdict).Answers
      charges where
  agrees := by
    rw [Log.isClean_append]
    exact (Bool.and_false _).symm
  within finding member counts := by
    rcases List.mem_append.mp member with member | member
    · exact .inl (accounts.within finding member counts)
    · exact .inr ⟨name, fault, List.mem_singleton.mp member⟩

end

/-! ## Stages -/

theorem runByteChecks_answers (checks : List ByteCheck) (bytes : Text.Bytes) :
    (runByteChecks bytes checks).1.Answers byteCharges := by
  induction checks generalizing bytes with
  | nil => exact Verdict.silent_accounts.answers
  | cons check rest induction =>
      have accounts := check.run_accounts bytes
      rw [runByteChecks]
      dsimp only
      split
      next valid mended gives =>
        exact (accounts.answers gives).append (induction mended)
      next fault gives =>
        exact (accounts.faulted check.name fault).append (induction bytes)

def readingCharges : List Charge := defects [.preParseEncoding, .xmlParse]

theorem readRoot_answers {bytes : Text.Bytes} {finding : Finding}
    (unread : readRoot bytes = .error finding) :
    (Verdict.against finding).Answers readingCharges := by
  unfold readRoot at unread
  split at unread
  · cases unread
    exact (Verdict.fail_accounts (by decide)).answers
  · split at unread
    · cases unread
    · cases unread
      exact (Verdict.fail_accounts (by decide)).answers

theorem runChecks_answers (checks : List ElementCheck)
    (named : areNamed checks = true) (context : Context) (root : Element) :
    (runChecks context root checks).Answers (chargesOfAll checks) := by
  induction checks generalizing context root with
  | nil => exact Verdict.silent_accounts.answers
  | cons check rest induction =>
      rw [areNamed, Bool.and_eq_true] at named
      have accounts := check.run_sound named.1 root context
      rw [runChecks, chargesOfAll]
      apply Verdict.Answers.append
      · apply Verdict.Answers.mono _ (List.subset_append_left _ _)
        split
        next valid gives => exact accounts.answers gives
        next fault gives => exact accounts.faulted check.name fault
      · exact (induction named.2 _ _).mono (List.subset_append_right _ _)

def Profile.ConstraintSet.charges (constraints : ConstraintSet) : List Charge :=
  byteCharges ++ readingCharges ++ chargesOfAll constraints.checks

theorem runStages_answers (constraints : ConstraintSet)
    (named : areNamed constraints.checks = true) (vertical : Bool)
    (bytes : Text.Bytes) :
    (runStages constraints vertical bytes).Answers constraints.charges := by
  have mending := (runByteChecks_answers constraints.byteChecks bytes).mono
    (fun _ member => List.mem_append_left _ (List.mem_append_left _ member) :
      byteCharges ⊆ constraints.charges)
  rw [runStages]
  dsimp only
  split
  next finding unread =>
    apply mending.append ((readRoot_answers unread).mono _)
    exact fun _ member => List.mem_append_left _ (List.mem_append_right _ member)
  next root read =>
    exact mending.append
      ((runChecks_answers _ named _ _).mono (List.subset_append_right _ _))

end TimedText
