import TimedText.Proofs.Run
/-!
The codes that findings have. A rule classifies all that it finds under a few codes, which are
known before anything is looked at. The lemmas here carry such codes from parts of a rule to
the whole.
-/

namespace TimedText

variable {codes more : List Code}

/-! ## Logs -/

namespace Log

def UsesOnly (codes : List Code) (log : Log) : Prop :=
  ∀ finding ∈ log, finding.code ∈ codes

variable {log left right : Log}

theorem usesOnly_nil (codes : List Code) : UsesOnly codes [] := nofun

theorem usesOnly_singleton {status : Status} {code : Code} {location message : String}
    (known : code ∈ codes) : UsesOnly codes [⟨status, code, location, message⟩] :=
  List.forall_mem_singleton.mpr known

theorem UsesOnly.append (leftUses : left.UsesOnly codes) (rightUses : right.UsesOnly codes) :
    UsesOnly codes (left ++ right) :=
  List.forall_mem_append.mpr ⟨leftUses, rightUses⟩

theorem UsesOnly.mono (uses : log.UsesOnly codes) (subset : codes ⊆ more) :
    log.UsesOnly more :=
  fun finding member => subset (uses finding member)

theorem usesOnly_flatMap {α : Type} {members : List α} {found : α → Log}
    (each : ∀ member ∈ members, (found member).UsesOnly codes) :
    UsesOnly codes (members.flatMap found) := by
  intro finding member
  rcases List.mem_flatMap.mp member with ⟨source, sourceMember, member⟩
  exact each source sourceMember finding member

end Log

/-! ## Verdicts -/

namespace Verdict

def UsesOnly (codes : List Code) (verdict : Verdict) : Prop :=
  verdict.findings.UsesOnly codes

variable {verdict left right : Verdict}

theorem UsesOnly.mono (uses : verdict.UsesOnly codes) (subset : codes ⊆ more) :
    verdict.UsesOnly more :=
  Log.UsesOnly.mono uses subset

theorem silent_usesOnly : silent.UsesOnly codes := Log.usesOnly_nil codes

section

variable {status : Status} {code : Code} {location message : String} (known : code ∈ codes)

include known

theorem remark_usesOnly : (remark ⟨status, code, location, message⟩).UsesOnly codes :=
  Log.usesOnly_singleton known

theorem against_usesOnly : (against ⟨status, code, location, message⟩).UsesOnly codes :=
  Log.usesOnly_singleton known

end

theorem UsesOnly.append (leftUses : left.UsesOnly codes) (rightUses : right.UsesOnly codes) :
    (left ++ right).UsesOnly codes :=
  Log.UsesOnly.append leftUses rightUses

theorem UsesOnly.when (uses : verdict.UsesOnly codes) (condition : Bool) :
    (Verdict.when condition verdict).UsesOnly codes := by
  cases condition with
  | false => exact silent_usesOnly
  | true => exact uses

theorem forEach_usesOnly {α : Type} {members : List α} {rule : α → Verdict}
    (each : ∀ member, (rule member).UsesOnly codes) : (forEach members rule).UsesOnly codes := by
  apply Log.usesOnly_flatMap
  intro verdict member
  rcases List.mem_map.mp member with ⟨source, -, rfl⟩
  exact each source

theorem UsesOnly.affirm (uses : verdict.UsesOnly codes) {status : Status} {code : Code}
    {location message : String} (known : code ∈ codes) :
    (verdict.affirm ⟨status, code, location, message⟩).UsesOnly codes :=
  uses.append ((remark_usesOnly known).when verdict.valid)

end Verdict

/-! ## Attempts -/

namespace Attempt

variable {α β : Type} {attempt : Attempt α} {first : Attempt α} {next : α → Attempt β}

def UsesOnly (codes : List Code) (attempt : Attempt α) : Prop :=
  attempt.findings.UsesOnly codes

theorem pure_usesOnly (value : α) : (pure value : Attempt α).UsesOnly codes :=
  Log.usesOnly_nil codes

theorem stop_usesOnly (fault : Fault) : (stop fault : Attempt α).UsesOnly codes :=
  Log.usesOnly_nil codes

theorem ofExcept_usesOnly (result : Except Fault α) : (ofExcept result).UsesOnly codes :=
  Log.usesOnly_nil codes

theorem note_usesOnly {findings : Log} (uses : findings.UsesOnly codes) :
    (note findings).UsesOnly codes := uses

theorem judge_usesOnly {verdict : Verdict} (uses : verdict.UsesOnly codes) :
    (judge verdict).UsesOnly codes := uses

theorem UsesOnly.bind (firstUses : first.UsesOnly codes)
    (nextUses : ∀ value, (next value).UsesOnly codes) : (first >>= next).UsesOnly codes := by
  cases gives : first.result with
  | error fault =>
      rw [bind_of_error gives]
      exact firstUses
  | ok value =>
      rw [bind_of_ok gives]
      exact Log.UsesOnly.append firstUses (nextUses value)

end Attempt

/-! ## Runs -/

namespace Check.Run

variable {α β : Type} {run first : Run α} {next : α → Run β}

def UsesOnly (codes : List Code) (run : Run α) : Prop :=
  ∀ context, (run context).findings.UsesOnly codes

theorem UsesOnly.mono (uses : run.UsesOnly codes) (subset : codes ⊆ more) :
    run.UsesOnly more :=
  fun context => (uses context).mono subset

theorem pure_usesOnly (value : α) : (pure value : Run α).UsesOnly codes :=
  fun _ => Log.usesOnly_nil codes

theorem context_usesOnly : Run.context.UsesOnly codes := fun _ => Log.usesOnly_nil codes

theorem change_usesOnly (update : Context → Context) : (change update).UsesOnly codes :=
  fun _ => Log.usesOnly_nil codes

theorem note_usesOnly {findings : Log} (uses : findings.UsesOnly codes) :
    (note findings).UsesOnly codes :=
  fun _ => uses

theorem judge_usesOnly {verdict : Verdict} (uses : verdict.UsesOnly codes) :
    (judge verdict).UsesOnly codes :=
  fun _ => uses

theorem UsesOnly.bind (firstUses : first.UsesOnly codes)
    (nextUses : ∀ value, (next value).UsesOnly codes) : (first >>= next).UsesOnly codes := by
  intro context
  cases gives : (first context).result with
  | error fault =>
      rw [bind_of_error gives]
      exact firstUses context
  | ok value =>
      rw [bind_of_ok gives]
      exact (firstUses context).append (nextUses value _)

end Check.Run

end TimedText
