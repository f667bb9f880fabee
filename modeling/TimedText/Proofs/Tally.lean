import Mathlib
import TimedText.Proofs.Stages
/-!
The tally of a report. The standards of a profile share no code, and between
them they have every code under which the stages charge. So each finding that
counts is counted once, and the summaries say the same as the checks do.
-/

namespace TimedText

open Check Profile

/-! ## Counting -/

private theorem Log.isClean_iff_count {log : Log} :
    log.isClean = true ↔ log.count .fail = 0 ∧ log.count .skip = 0 := by
  simp only [isClean, count, List.all_eq_true, List.countP_eq_zero,
    decide_eq_true_eq, ← forall_and]
  apply forall_congr'
  intro finding
  cases finding.status <;> simp [Status.counts]

private def Log.countWithin (codes : List Code) (log : Log) (status : Status) : Nat :=
  log.countP fun finding => finding.status = status && codes.contains finding.code

private theorem Log.countWithin_append {first rest : List Code}
    (apart : first.Disjoint rest) (log : Log) (status : Status) :
    log.countWithin (first ++ rest) status
      = log.countWithin first status + log.countWithin rest status := by
  simp only [countWithin, List.contains_eq_mem, List.mem_append, Bool.decide_or]
  induction log with
  | nil => rfl
  | cons finding log induction =>
      rw [List.countP_cons, List.countP_cons, List.countP_cons, induction]
      by_cases inFirst : finding.code ∈ first
      · have notInRest : finding.code ∉ rest := apart inFirst
        simp [inFirst, notInRest]
        omega
      · simp [inFirst]
        omega

private theorem Log.countWithin_of_known {codes : List Code} {log : Log} {status : Status}
    (known : ∀ finding ∈ log, finding.status = status → finding.code ∈ codes) :
    log.countWithin codes status = log.count status := by
  apply List.countP_congr
  intro finding member
  by_cases has : finding.status = status
  · simp [has, known finding member has]
  · simp [has]

namespace Profile

private theorem Standard.count_fails (standard : Standard) (log : Log) :
    (standard.count log).fails = log.countWithin standard.codes .fail :=
  List.countP_filter

private theorem Standard.count_skips (standard : Standard) (log : Log) :
    (standard.count log).skips = log.countWithin standard.codes .skip :=
  List.countP_filter

abbrev codesOf (standards : List Standard) : List Code :=
  standards.flatMap (·.codes)

private theorem sum_countWithin {standards : List Standard}
    (distinct : (codesOf standards).Nodup) (log : Log) (status : Status) :
    (standards.map fun standard => log.countWithin standard.codes status).sum
      = log.countWithin (codesOf standards) status := by
  induction standards with
  | nil =>
      symm
      apply List.countP_eq_zero.mpr
      simp
  | cons first rest induction =>
      rw [codesOf, List.flatMap_cons] at distinct
      have parts := List.nodup_append.mp distinct
      have apart : first.codes.Disjoint (codesOf rest) := fun code inFirst inRest =>
        parts.2.2 code inFirst code inRest rfl
      rw [List.map_cons, List.sum_cons, induction parts.2.1]
      exact (Log.countWithin_append apart log status).symm

/-! ## Summaries -/

private theorem Counts.passed_iff {counts : Counts} :
    counts.passed = true ↔ counts.fails = 0 ∧ counts.skips = 0 := by
  simp [passed]

private theorem Standard.summarise_code (standard : Standard) (counts : Counts) :
    (standard.summarise counts).code = standard.summary := by
  rw [summarise]
  dsimp only
  split
  · rfl
  · split <;> rfl

private theorem Standard.summarise_passes_iff (standard : Standard) (counts : Counts) :
    (standard.summarise counts).status = .pass ↔ counts.passed = true := by
  rw [summarise]
  dsimp only
  split
  next passed => exact iff_of_true rfl passed
  next short =>
    refine iff_of_false ?_ short
    split <;> simp [Finding.fail, Finding.skip]

private theorem summarisePlayer_code (counts : Counts) (mightPlay : Bool) :
    (summarisePlayer counts mightPlay).code = player.summary := by
  rw [summarisePlayer]
  dsimp only
  split
  · rfl
  · split <;> rfl

private theorem summarisePlayer_passes_iff (counts : Counts) (mightPlay : Bool) :
    (summarisePlayer counts mightPlay).status = .pass ↔ counts.passed = true := by
  rw [summarisePlayer]
  dsimp only
  split
  next passed => exact iff_of_true rfl passed
  next short =>
    refine iff_of_false ?_ short
    split <;> simp [Finding.fail, Finding.skip]

/-- A conclusion with one summary for each of some standards, which passes if
the standard is met, and with the counts of all of them. -/
structure Conclusion.Tallies (standards : List Standard) (log : Log)
    (conclusion : Conclusion) : Prop where
  codes : conclusion.summaries.map (·.code) = standards.map (·.summary)
  passes : (∀ summary ∈ conclusion.summaries, summary.status = .pass) ↔
    ∀ standard ∈ standards, (standard.count log).passed = true
  fails : conclusion.fails
    = (standards.map fun standard => (standard.count log).fails).sum
  skips : conclusion.skips
    = (standards.map fun standard => (standard.count log).skips).sum

private theorem concludeCaptions_tallies (log : Log) :
    (concludeCaptions log).Tallies [xml, core, broadcast, player] log where
  codes := by
    simp [concludeCaptions, conclude, Standard.summarise_code, summarisePlayer_code]
  passes := by
    simp [concludeCaptions, conclude, Standard.summarise_passes_iff,
      summarisePlayer_passes_iff]
  fails := rfl
  skips := rfl

theorem concludeScript_tallies (log : Log) :
    (concludeScript log).Tallies [xml, core, script] log where
  codes := by simp [concludeScript, conclude, Standard.summarise_code]
  passes := by simp [concludeScript, conclude, Standard.summarise_passes_iff]
  fails := by simp [concludeScript, conclude]
  skips := by simp [concludeScript, conclude]

end Profile

/-! ## Reports -/

/-- Whether something is a matter of some standards, and not of the validator. -/
def IsMatter (standards : List Standard) (charge : Charge) : Prop :=
  charge.2 ∈ codesOf standards ∧ charge.2 ≠ .validatorInternalException

instance (standards : List Standard) (charge : Charge) :
    Decidable (IsMatter standards charge) :=
  inferInstanceAs (Decidable (_ ∧ _))

/-- A constraint set whose checks charge documents with matters of some standards
only, each code being of one of them, and whose conclusion is about these
standards. -/
structure Profile.ConstraintSet.Covered (standards : List Standard)
    (constraints : ConstraintSet) : Prop where
  named : areNamed constraints.checks = true
  distinct : (codesOf standards).Nodup
  matters : ∀ charge ∈ constraints.charges, IsMatter standards charge
  internal : .validatorInternalException ∈ codesOf standards
  reserved : .validatorInternalException ∉ standards.map (·.summary)
  tallies : ∀ log, (constraints.conclude log).Tallies standards log

section

variable {standards : List Standard} {constraints : ConstraintSet}
  (covered : constraints.Covered standards) (vertical : Bool) (bytes : Text.Bytes)

include covered

/-- Each finding of a status that counts is counted for one standard. -/
private theorem sum_countWithin_stages {status : Status} (counts : status.counts = true) :
    (standards.map fun standard =>
        (runStages constraints vertical bytes).findings.countWithin
          standard.codes status).sum
      = (runStages constraints vertical bytes).findings.count status := by
  have answers := runStages_answers constraints covered.named vertical bytes
  rw [sum_countWithin covered.distinct]
  apply Log.countWithin_of_known
  intro finding member has
  rcases answers.within finding member (by rwa [has]) with known | ⟨name, fault, rfl⟩
  · exact (covered.matters _ known).1
  · exact covered.internal

theorem conclude_fails :
    (constraints.conclude (runStages constraints vertical bytes).findings).fails
      = (runStages constraints vertical bytes).findings.count .fail := by
  rw [(covered.tallies _).fails, ← sum_countWithin_stages covered vertical bytes rfl]
  simp only [Standard.count_fails]

theorem conclude_skips :
    (constraints.conclude (runStages constraints vertical bytes).findings).skips
      = (runStages constraints vertical bytes).findings.count .skip := by
  rw [(covered.tallies _).skips, ← sum_countWithin_stages covered vertical bytes rfl]
  simp only [Standard.count_skips]

theorem runStages_valid_iff :
    (runStages constraints vertical bytes).valid = true ↔
      (constraints.conclude (runStages constraints vertical bytes).findings).fails = 0 ∧
        (constraints.conclude (runStages constraints vertical bytes).findings).skips
          = 0 := by
  have answers := runStages_answers constraints covered.named vertical bytes
  rw [conclude_fails covered, conclude_skips covered, answers.agrees,
    Log.isClean_iff_count]

theorem runStages_valid_iff_passes :
    (runStages constraints vertical bytes).valid = true ↔
      ∀ summary ∈
        (constraints.conclude (runStages constraints vertical bytes).findings).summaries,
        summary.status = .pass := by
  have tallies := covered.tallies (runStages constraints vertical bytes).findings
  rw [runStages_valid_iff covered, tallies.passes, tallies.fails, tallies.skips,
    List.sum_eq_zero_iff_forall_eq_nat, List.sum_eq_zero_iff_forall_eq_nat,
    List.forall_mem_map, List.forall_mem_map]
  simp only [Counts.passed_iff, forall_and]

theorem disagreement_eq_nil :
    disagreement (runStages constraints vertical bytes).valid
      (constraints.conclude (runStages constraints vertical bytes).findings) = [] := by
  have valid := runStages_valid_iff covered vertical bytes
  apply if_pos
  rw [beq_iff_eq, Bool.eq_iff_iff, valid, Bool.and_eq_true, beq_iff_eq, beq_iff_eq]

theorem disagreement_not_mem (message : String) :
    .fail .validatorInternalException "Document validity summaries" message ∉
      (runStages constraints vertical bytes).findings
        ++ (constraints.conclude (runStages constraints vertical bytes).findings).summaries
        := by
  intro member
  have answers := runStages_answers constraints covered.named vertical bytes
  rcases List.mem_append.mp member with staged | summary
  · rcases answers.within _ staged rfl with known | ⟨name, fault, same⟩
    · exact (covered.matters _ known).2 rfl
    · have places := congrArg (fun finding => finding.location.toList.head?) same
      simp [faultFinding, Finding.fail, toString] at places
  · have tallies := covered.tallies (runStages constraints vertical bytes).findings
    apply covered.reserved
    rw [← tallies.codes]
    exact List.mem_map_of_mem summary

end

/-! ## Profiles -/

def DeliveryProfile.standards : DeliveryProfile → List Standard
  | .captions => [xml, core, broadcast, player]
  | .scripts => [xml, core, script]

private theorem matters_of_schema {standards : List Standard} {constraints : ConstraintSet}
    (before after : List ElementCheck) (name : String) (schema : Option Schema)
    (checks : constraints.checks =
      before ++ ((schema.map (ElementCheck.schema name)).toList ++ after))
    (matters : ∀ charge ∈ byteCharges ++ readingCharges
      ++ chargesOfAll (before ++ ([.schema name fun _ => none] ++ after)),
      IsMatter standards charge) :
    ∀ charge ∈ constraints.charges, IsMatter standards charge := by
  intro charge member
  rw [ConstraintSet.charges, checks] at member
  apply matters
  rcases List.mem_append.mp member with early | late
  · exact List.mem_append_left _ early
  · exact List.mem_append_right _
      (chargesOfAll_schema_subset before after name schema late)

-- The charges do not depend on the segment.
private theorem captions_covered (segment : Timing.Segment Float) (schema : Option Schema) :
    (captions segment schema).Covered DeliveryProfile.captions.standards where
  named := by cases schema <;> rfl
  distinct := by decide
  matters := by
    have schematic : ∀ charge ∈ (captions .whole (some fun _ => none)).charges,
        IsMatter DeliveryProfile.captions.standards charge := by decide
    exact matters_of_schema [.unqualifiedIds] _ _ schema rfl schematic
  internal := by decide
  reserved := by decide
  tallies := concludeCaptions_tallies

private theorem scripts_covered (segment : Timing.Segment Float) (schema : Option Schema)
    (registries : Registries) :
    (scripts segment schema registries).Covered DeliveryProfile.scripts.standards where
  named := by cases schema <;> rfl
  distinct := by decide
  matters := by
    have schematic : ∀ charge ∈ (scripts .whole (some fun _ => none)
        .published).charges,
        IsMatter DeliveryProfile.scripts.standards charge := by decide
    exact matters_of_schema [.uniqueIds, .vocabulary] _ _ schema rfl schematic
  internal := by decide
  reserved := by decide
  tallies := concludeScript_tallies

theorem Configuration.constraints_covered (configuration : Configuration) :
    configuration.constraints.Covered configuration.profile.standards := by
  rw [constraints]
  split
  next captions =>
    rw [captions]
    exact captions_covered configuration.segment configuration.schema
  next scripts =>
    rw [scripts]
    exact scripts_covered configuration.segment configuration.schema
      configuration.registries

/-- Each finding of the stages that counts is counted once, and validity, the
counts and the summaries agree, so that no disagreement is ever found. -/
theorem validate_tallies (configuration : Configuration) (bytes : Text.Bytes)
    (verbatim : configuration.collationLimit = 0) :
    let report := validate configuration bytes
    let stages :=
      (runStages configuration.constraints configuration.vertical bytes).findings
    report.fails = stages.count .fail ∧ report.skips = stages.count .skip ∧
      (report.valid = true ↔ report.fails = 0 ∧ report.skips = 0) ∧
      (∃ summaries, report.log = stages ++ summaries ∧
        summaries.map (·.code) = configuration.profile.standards.map (·.summary) ∧
        (report.valid = true ↔ ∀ summary ∈ summaries, summary.status = .pass)) ∧
      ∀ message, .fail .validatorInternalException "Document validity summaries"
        message ∉ report.log := by
  intro report stages
  have covered := configuration.constraints_covered
  have log : report.log
      = stages ++ (configuration.constraints.conclude stages).summaries := by
    change (if 0 < configuration.collationLimit then _ else stages ++ _ ++ _) = _
    rw [if_neg (by omega), disagreement_eq_nil covered, List.append_nil]
  refine ⟨conclude_fails covered _ bytes, conclude_skips covered _ bytes,
    runStages_valid_iff covered _ bytes, ⟨_, log, ?_, ?_⟩, ?_⟩
  · exact (covered.tallies stages).codes
  · exact runStages_valid_iff_passes covered _ bytes
  · intro message
    rw [log]
    exact disagreement_not_mem covered _ bytes message

/-- Captions as they are validated by default, with every finding listed. -/
def verbatimCaptions : Configuration :=
  { Configuration.standard .captions with collationLimit := 0 }

/-- Captions without a head and with one paragraph, which is not named. -/
def paragraphText : String :=
  "<tt xmlns=\"http://www.w3.org/ns/ttml\"><body><div>"
    ++ "<p begin=\"1s\">Hello</p></div></body></tt>"

theorem validate_tallies_paragraph :
    let bytes := Text.Utf8.encode paragraphText.toList
    let report := validate verbatimCaptions bytes
    let stages := (runStages verbatimCaptions.constraints false bytes).findings
    verbatimCaptions.collationLimit = 0 ∧
      (report.valid = false ∧ report.fails = 9 ∧ report.skips = 2) ∧
      (stages.count .fail = 9 ∧ stages.count .skip = 2) ∧
      (∃ summaries, report.log = stages ++ summaries ∧
        summaries.map (·.code) = DeliveryProfile.captions.standards.map (·.summary) ∧
        ¬∀ summary ∈ summaries, summary.status = .pass) ∧
      ∀ message, .fail .validatorInternalException "Document validity summaries"
        message ∉ report.log := by
  have counted : (validate verbatimCaptions (Text.Utf8.encode paragraphText.toList)).valid
        = false ∧
      (validate verbatimCaptions (Text.Utf8.encode paragraphText.toList)).fails = 9 ∧
      (validate verbatimCaptions (Text.Utf8.encode paragraphText.toList)).skips = 2 := by
    decide +kernel
  rcases validate_tallies verbatimCaptions (Text.Utf8.encode paragraphText.toList) rfl
    with ⟨fails, skips, _, ⟨summaries, log, codes, passes⟩, agrees⟩
  refine ⟨rfl, counted, ⟨fails.symm.trans counted.2.1, skips.symm.trans counted.2.2⟩,
    ⟨summaries, log, codes, fun all => ?_⟩, agrees⟩
  exact Bool.false_ne_true (counted.1.symm.trans (passes.mpr all))

end TimedText
