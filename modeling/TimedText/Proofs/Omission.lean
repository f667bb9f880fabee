import TimedText.Proofs.Stages
/-!
Omissions. A finding that some rule was left out counts against a document as a
defect does, but it is none. Most checks charge with defects only and so leave
nothing out.
-/

namespace TimedText

open Check

/-! ## Logs -/

namespace Log

def Has (log : Log) (status : Status) : Prop :=
  ∃ finding ∈ log, finding.status = status

/-- Nothing is left out unless a defect is found as well. -/
def Caused (log : Log) : Prop :=
  log.Has .skip → log.Has .fail

variable {left right log : Log} {status : Status}

theorem has_append_iff :
    Has (left ++ right) status ↔ left.Has status ∨ right.Has status := by
  simp only [Has, List.mem_append, or_and_right, exists_or]

theorem has_of_fail {code : Code} {location message : String}
    (member : .fail code location message ∈ log) : log.Has .fail :=
  ⟨_, member, rfl⟩

theorem count_eq_zero_iff : log.count status = 0 ↔ ¬log.Has status := by
  simp [count, Has]

theorem Within.not_has_skip {charges : List Charge} (within : log.Within charges)
    (defective : ∀ charge ∈ charges, charge.1 = .fail) : ¬log.Has .skip := by
  rintro ⟨finding, member, omitted⟩
  have charged := within finding member (by rw [omitted]; rfl)
  have failed : finding.status = .fail := defective _ charged
  simp [omitted] at failed

theorem caused_of_not_has (none : ¬log.Has .skip) : log.Caused :=
  fun omitted => absurd omitted none

theorem Caused.append (leftCaused : left.Caused) (rightCaused : right.Caused) :
    Caused (left ++ right) := by
  intro omitted
  rcases has_append_iff.mp omitted with omitted | omitted
  · exact has_append_iff.mpr (.inl (leftCaused omitted))
  · exact has_append_iff.mpr (.inr (rightCaused omitted))

end Log

theorem defects_fail (codes : List Code) : ∀ charge ∈ defects codes, charge.1 = .fail := by
  intro charge member
  rcases List.mem_map.mp member with ⟨code, _, rfl⟩
  rfl

theorem Verdict.Answers.not_has_skip {charges : List Charge} {verdict : Verdict}
    (answers : verdict.Answers charges)
    (defective : ∀ charge ∈ charges, charge.1 = .fail) :
    ¬verdict.findings.Has .skip := by
  rintro ⟨finding, member, omitted⟩
  rcases answers.within finding member (by rw [omitted]; rfl) with
    charged | ⟨name, fault, rfl⟩
  · have failed : finding.status = .fail := defective _ charged
    simp [omitted] at failed
  · cases omitted

theorem Verdict.Accounts.valid_eq_false_iff {charges : List Charge} {verdict : Verdict}
    (accounts : verdict.Accounts charges)
    (defective : ∀ charge ∈ charges, charge.1 = .fail) :
    verdict.valid = false ↔ verdict.findings.Has .fail := by
  rw [accounts.agrees, Log.isClean, List.all_eq_false]
  constructor
  · rintro ⟨finding, member, notHarmless⟩
    have counts : finding.status.counts = true := by simpa using notHarmless
    exact ⟨finding, member, defective _ (accounts.within finding member counts)⟩
  · rintro ⟨finding, member, failed⟩
    exact ⟨finding, member, by simp [failed, Status.counts]⟩

/-! ## Stages -/

theorem runChecks_not_has_skip {checks : List ElementCheck}
    (named : areNamed checks = true)
    (defective : ∀ charge ∈ chargesOfAll checks, charge.1 = .fail) (context : Context)
    (root : Element) : ¬(runChecks context root checks).findings.Has .skip :=
  (runChecks_answers checks named context root).not_has_skip defective

/-- Checks that may have one against a schema among them. -/
theorem runChecks_schema_not_has_skip (before after : List ElementCheck) (name : String)
    (schema : Option Schema)
    (named : areNamed (before ++ ((schema.map (ElementCheck.schema name)).toList ++ after))
      = true)
    (defective : ∀ charge ∈
      chargesOfAll (before ++ ([.schema name fun _ => none] ++ after)), charge.1 = .fail)
    (context : Context) (root : Element) :
    ¬(runChecks context root
      (before ++ ((schema.map (ElementCheck.schema name)).toList ++ after))).findings.Has
        .skip :=
  runChecks_not_has_skip named
    (fun charge member =>
      defective charge (chargesOfAll_schema_subset before after name schema member))
    context root

theorem runByteChecks_not_has_skip (checks : List ByteCheck) (bytes : Text.Bytes) :
    ¬(runByteChecks bytes checks).1.findings.Has .skip :=
  (runByteChecks_answers checks bytes).not_has_skip (defects_fail _)

theorem readRoot_is_fail {bytes : Text.Bytes} {finding : Finding}
    (unread : readRoot bytes = .error finding) : finding.status = .fail := by
  unfold readRoot at unread
  split at unread
  · cases unread
    rfl
  · split at unread
    · cases unread
    · cases unread
      rfl

end TimedText
