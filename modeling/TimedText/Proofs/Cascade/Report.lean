import Mathlib.Data.List.Nodup
import TimedText.Proofs.Cascade.Walk
/-!
What a resolution of style references reports: each id that was found to close a
cycle, once and in the order in which they were found. An id that was reported by
an earlier resolution is not reported again, but still counts against the
references.
-/

namespace TimedText.Style

variable {styles : Catalogue Element} {before : List String} {cascade : Cascade}

def cycleFinding (reference : String) : Finding :=
  .fail .ttmlStylingReferentialChained "style element"
    s!"Cyclic style ref to {reference} found"

/-! ## One resolution -/

structure Cascade.Records (before : List String) (cascade : Cascade) : Prop where
  fresh : ∃ fresh : List String, cascade.reported = fresh.reverse ++ before ∧
    cascade.findings = fresh.map cycleFinding
  distinct : before.Nodup → cascade.reported.Nodup
  invalid : cascade.findings ≠ [] → cascade.valid = false
  reported : cascade.valid = false → cascade.reported ≠ []

private theorem Cascade.Records.closeCycle (records : cascade.Records before)
    (reference : String) : (cascade.closeCycle reference).Records before := by
  by_cases known : reference ∈ cascade.reported
  · have same : cascade.closeCycle reference = { cascade with valid := false } := by
      simp [Cascade.closeCycle, known]
    rw [same]
    exact ⟨records.fresh, records.distinct, fun _ => rfl,
      fun _ => List.ne_nil_of_mem known⟩
  · have added : cascade.closeCycle reference =
        { cascade with
          valid := false
          reported := reference :: cascade.reported
          findings := cascade.findings ++ [cycleFinding reference] } := by
      simp [Cascade.closeCycle, known, cycleFinding]
    rw [added]
    rcases records.fresh with ⟨fresh, reported, findings⟩
    refine ⟨⟨fresh ++ [reference], ?_, ?_⟩, ?_, fun _ => rfl,
      fun _ => List.cons_ne_nil _ _⟩
    · simp [reported]
    · simp [findings]
    · exact fun distinct => List.nodup_cons.mpr ⟨known, records.distinct distinct⟩

private theorem Cascade.Records.addStyle (records : cascade.Records before)
    (style : Element) : (cascade.addStyle style).Records before :=
  ⟨records.fresh, records.distinct, records.invalid, records.reported⟩

private theorem Cascade.Records.finish (records : cascade.Records before)
    (reference : String) : (cascade.finish reference).Records before :=
  ⟨records.fresh, records.distinct, records.invalid, records.reported⟩

private theorem Cascade.starting_records (before : List String) :
    (Cascade.starting before).Records before :=
  ⟨⟨[], rfl, rfl⟩, id, fun finds => absurd rfl finds, nofun⟩

private theorem Cascade.Records.before_or_findings (records : cascade.Records before)
    (reported : cascade.reported ≠ []) : before ≠ [] ∨ cascade.findings ≠ [] := by
  rcases records.fresh with ⟨fresh, told, findings⟩
  rw [told] at reported
  rcases not_and_or.mp (List.append_eq_nil_iff.not.mp reported) with fresher | earlier
  · exact .inr (by simpa [findings] using fresher)
  · exact .inl earlier

theorem resolveFrom_records (styles : Catalogue Element) (before : List String)
    (id : String) (style : Element) :
    (resolveFrom styles before id style).Records before :=
  follow_preserves (fun _ cascade => cascade.Records before)
    (fun _ records => records.closeCycle _)
    (fun _ records => records.addStyle _)
    (fun records => records.finish _)
    (references style) ((Cascade.starting_records before).addStyle style)

/-! ## All resolutions -/

/-- All findings are about cycles; and the references are as they should be
exactly if there are none, provided that nothing was reported before. -/
structure Reports (before : List String) (verdict : Verdict) : Prop where
  findings : ∃ fresh : List String, verdict.findings = fresh.map cycleFinding
  invalid : verdict.findings ≠ [] → verdict.valid = false
  reported : verdict.valid = false → before ≠ [] ∨ verdict.findings ≠ []

private theorem Reports.cons {verdict : Verdict} (own : cascade.Records before)
    (others : Reports cascade.reported verdict) :
    Reports before (.both ⟨cascade.valid, cascade.findings⟩ verdict) where
  findings := by
    rcases own.fresh with ⟨fresh, _, findings⟩
    rcases others.findings with ⟨later, laterFindings⟩
    refine ⟨fresh ++ later, ?_⟩
    rw [Verdict.both, findings, laterFindings, List.map_append]
  invalid := by
    intro finds
    apply Bool.and_eq_false_iff.mpr
    rcases not_and_or.mp (List.append_eq_nil_iff.not.mp finds) with finds | finds
    · exact .inl (own.invalid finds)
    · exact .inr (others.invalid finds)
  reported := by
    intro invalid
    have early (reported : cascade.reported ≠ []) :
        before ≠ [] ∨ cascade.findings ++ verdict.findings ≠ [] :=
      (own.before_or_findings reported).imp_right fun finds =>
        List.append_ne_nil_of_left_ne_nil finds _
    rcases Bool.and_eq_false_iff.mp invalid with invalid | invalid
    · exact early (own.reported invalid)
    · rcases others.reported invalid with reported | finds
      · exact early reported
      · exact .inr (List.append_ne_nil_of_right_ne_nil _ finds)

theorem resolveEach_reports (styles : Catalogue Element)
    (entries : List (String × Element)) :
    ∀ before, Reports before (resolveEach styles before entries).2 := by
  induction entries with
  | nil => exact fun _ => ⟨⟨[], rfl⟩, fun finds => absurd rfl finds, nofun⟩
  | cons entry rest induction =>
      intro before
      rcases entry with ⟨id, style⟩
      exact Reports.cons (resolveFrom_records styles before id style) (induction _)

end TimedText.Style
