import TimedText.Proofs.Run
/-!
Accounts. What is said about validity has to agree with what is found: a verdict
accounts for its findings when it is negative exactly if one of them counts
against the document, and when what those charge it with is known beforehand.
Attempts and runs are looked at after something else was, so that what they say
takes in what was known before them.
-/

namespace TimedText

/-! ## Logs -/

abbrev Charge := Status × Code

/-- What a finding charges the document with, if it counts. -/
def Finding.charge (finding : Finding) : Charge :=
  (finding.status, finding.code)

def defects (codes : List Code) : List Charge :=
  codes.map fun code => (.fail, code)

/-- Charges, which an omission joins where something is not known. -/
def omitting (known : Bool) (code : Code) (charges : List Charge) : List Charge :=
  bif known then charges else (.skip, code) :: charges

theorem subset_omitting (known : Bool) (code : Code) (charges : List Charge) :
    charges ⊆ omitting known code charges := by
  cases known with
  | false => exact List.subset_cons_self _ _
  | true => exact List.Subset.refl _

theorem omitting_subset (known : Bool) (code : Code) (charges : List Charge) :
    omitting known code charges ⊆ omitting false code charges := by
  cases known with
  | false => exact List.Subset.refl _
  | true => exact List.subset_cons_self _ _

namespace Log

def isClean (log : Log) : Bool :=
  log.all fun finding => !finding.status.counts

/-- Whatever counts against the document charges it with one of some things. -/
def Within (charges : List Charge) (log : Log) : Prop :=
  ∀ finding ∈ log, finding.status.counts = true → finding.charge ∈ charges

@[simp] theorem isClean_append (left right : Log) :
    isClean (left ++ right) = (isClean left && isClean right) :=
  List.all_append

theorem isClean_flatMap {α : Type} (members : List α) (findings : α → Log) :
    isClean (members.flatMap findings)
      = members.all fun member => isClean (findings member) :=
  List.all_flatMap

theorem within_nil (charges : List Charge) : Within charges [] := by
  intro finding member
  cases member

theorem within_append {charges : List Charge} {left right : Log}
    (leftWithin : left.Within charges) (rightWithin : right.Within charges) :
    (left ++ right).Within charges := by
  intro finding member counts
  rcases List.mem_append.mp member with member | member
  · exact leftWithin finding member counts
  · exact rightWithin finding member counts

theorem within_singleton {charges : List Charge} {finding : Finding}
    (known : finding.status.counts = true → finding.charge ∈ charges) :
    Within charges [finding] := by
  intro other member counts
  cases List.mem_singleton.mp member
  exact known counts

theorem within_fail {charges : List Charge} {code : Code} {location message : String}
    (known : (.fail, code) ∈ charges) : Within charges [.fail code location message] :=
  within_singleton fun _ => known

theorem Within.mono {charges more : List Charge} {log : Log}
    (within : log.Within charges) (subset : charges ⊆ more) : log.Within more :=
  fun finding member counts => subset (within finding member counts)

theorem within_of_isClean {log : Log} (clean : log.isClean = true)
    (charges : List Charge) : log.Within charges := by
  intro finding member counts
  have harmless := List.all_eq_true.mp clean finding member
  simp [counts] at harmless

end Log

/-! ## Verdicts -/

namespace Verdict

/-- The verdict is negative exactly if one of its findings counts against the
document, and those that count charge it with some things only. -/
structure Accounts (charges : List Charge) (verdict : Verdict) : Prop where
  agrees : verdict.valid = verdict.findings.isClean
  within : verdict.findings.Within charges

variable {charges more : List Charge} {verdict left right : Verdict}

theorem Accounts.mono (accounts : verdict.Accounts charges)
    (subset : charges ⊆ more) : verdict.Accounts more :=
  ⟨accounts.agrees, accounts.within.mono subset⟩

theorem silent_accounts : silent.Accounts charges :=
  ⟨rfl, Log.within_nil charges⟩

theorem remark_accounts {finding : Finding}
    (harmless : finding.status.counts = false) :
    (remark finding).Accounts charges where
  agrees := by simp [remark, Log.isClean, harmless]
  within := Log.within_singleton fun counts => by simp [harmless] at counts

theorem against_accounts {finding : Finding}
    (counts : finding.status.counts = true) (known : finding.charge ∈ charges) :
    (against finding).Accounts charges where
  agrees := by simp [against, Log.isClean, counts]
  within := Log.within_singleton fun _ => known

theorem fail_accounts {code : Code} {location message : String}
    (known : (.fail, code) ∈ charges) :
    (against (.fail code location message)).Accounts charges :=
  against_accounts rfl known

theorem skip_accounts {code : Code} {location message : String}
    (known : (.skip, code) ∈ charges) :
    (against (.skip code location message)).Accounts charges :=
  against_accounts rfl known

theorem Accounts.append (leftAccounts : left.Accounts charges)
    (rightAccounts : right.Accounts charges) : (left ++ right).Accounts charges where
  agrees := by
    change (left.valid && right.valid) = Log.isClean (left.findings ++ right.findings)
    rw [Log.isClean_append, leftAccounts.agrees, rightAccounts.agrees]
  within := Log.within_append leftAccounts.within rightAccounts.within

theorem Accounts.when (accounts : verdict.Accounts charges) (condition : Bool) :
    (Verdict.when condition verdict).Accounts charges := by
  cases condition with
  | false => exact silent_accounts
  | true => exact accounts

theorem all_accounts {verdicts : List Verdict}
    (each : ∀ verdict ∈ verdicts, verdict.Accounts charges) :
    (all verdicts).Accounts charges := by
  induction verdicts with
  | nil => exact silent_accounts
  | cons first rest induction =>
      have others := induction fun verdict member =>
        each verdict (List.mem_cons_of_mem first member)
      exact (each first List.mem_cons_self).append others

theorem forEach_accounts {α : Type} {members : List α} {rule : α → Verdict}
    (each : ∀ member, (rule member).Accounts charges) :
    (forEach members rule).Accounts charges := by
  apply all_accounts
  intro verdict member
  rcases List.mem_map.mp member with ⟨source, _, rfl⟩
  exact each source

theorem Accounts.affirm (accounts : verdict.Accounts charges) {finding : Finding}
    (harmless : finding.status.counts = false) :
    (verdict.affirm finding).Accounts charges :=
  accounts.append ((remark_accounts harmless).when verdict.valid)

end Verdict

/-! ## Attempts -/

namespace Attempt

variable {α β : Type} {charges more : List Charge} {prior : Bool}

/-- If the attempt gives a value, a flag on the value tells whether nothing
counted against the document before the attempt or in it; and what counts charges
it with some things only. -/
structure Accounts (charges : List Charge) (prior : Bool) (flag : α → Bool)
    (attempt : Attempt α) : Prop where
  agrees : ∀ value, attempt.result = .ok value →
    flag value = (prior && attempt.findings.isClean)
  within : attempt.findings.Within charges

variable {flag : α → Bool} {attempt : Attempt α}

theorem Accounts.mono (accounts : attempt.Accounts charges prior flag)
    (subset : charges ⊆ more) : attempt.Accounts more prior flag :=
  ⟨accounts.agrees, accounts.within.mono subset⟩

theorem Accounts.after (accounts : attempt.Accounts charges true flag)
    (prior : Bool) :
    attempt.Accounts charges prior fun value => prior && flag value where
  agrees value gives := by rw [accounts.agrees value gives, Bool.true_and]
  within := accounts.within

theorem pure_accounts {value : α} (told : flag value = prior) :
    (pure value : Attempt α).Accounts charges prior flag where
  agrees := by
    intro given gives
    cases gives
    change flag value = (prior && true)
    rw [told, Bool.and_true]
  within := Log.within_nil charges

theorem stop_accounts (fault : Fault) :
    (stop fault : Attempt α).Accounts charges prior flag where
  agrees := by
    intro value gives
    cases gives
  within := Log.within_nil charges

theorem ofExcept_accounts (result : Except Fault α) :
    (ofExcept result).Accounts charges prior fun _ => prior where
  agrees := fun _ _ => (Bool.and_true prior).symm
  within := Log.within_nil charges

theorem note_accounts {findings : Log} (within : findings.Within charges) :
    (note findings).Accounts charges prior fun _ => prior && findings.isClean where
  agrees := fun _ _ => rfl
  within := within

theorem judge_accounts {verdict : Verdict} (accounts : verdict.Accounts charges) :
    (judge verdict).Accounts charges prior fun valid => prior && valid where
  agrees := by
    intro value gives
    cases gives
    exact congrArg (prior && ·) accounts.agrees
  within := accounts.within

theorem Accounts.bind {first : Attempt α} {next : α → Attempt β}
    {outcome : β → Bool} (firstAccounts : first.Accounts charges prior flag)
    (nextAccounts : ∀ value, (next value).Accounts charges (flag value) outcome) :
    (first >>= next).Accounts charges prior outcome := by
  cases gives : first.result with
  | error fault =>
      rw [bind_of_error gives]
      refine ⟨?_, firstAccounts.within⟩
      intro value impossible
      cases impossible
  | ok value =>
      rw [bind_of_ok gives]
      refine ⟨?_, Log.within_append firstAccounts.within
        (nextAccounts value).within⟩
      intro last ends
      rw [(nextAccounts value).agrees last ends, firstAccounts.agrees value gives,
        Log.isClean_append, Bool.and_assoc]

theorem Accounts.choice {attempt : Attempt Bool} {next : Bool → Attempt β}
    {outcome : β → Bool} {condition : Bool}
    (accounts : attempt.Accounts charges true id)
    (nextAccounts : ∀ value, (next value).Accounts charges (prior && value) outcome) :
    (if condition then attempt >>= next else pure true >>= next).Accounts
      charges prior outcome := by
  cases condition with
  | false => exact Accounts.bind (pure_accounts (Bool.and_true prior)) nextAccounts
  | true => exact Accounts.bind (accounts.after prior) nextAccounts

end Attempt

/-! ## Runs -/

namespace Check

def Outcome.attempt {α : Type} (outcome : Outcome α) : Attempt α :=
  ⟨outcome.result, outcome.findings⟩

namespace Run

variable {α β : Type} {charges more : List Charge} {prior : Bool}

def Accounts (charges : List Charge) (prior : Bool) (flag : α → Bool)
    (run : Run α) : Prop :=
  ∀ context, (run context).attempt.Accounts charges prior flag

abbrev Sound (charges : List Charge) (run : Run Bool) : Prop :=
  run.Accounts charges true id

variable {flag : α → Bool} {run : Run α}

theorem Accounts.mono (accounts : run.Accounts charges prior flag)
    (subset : charges ⊆ more) : run.Accounts more prior flag :=
  fun context => (accounts context).mono subset

theorem Accounts.after (accounts : run.Accounts charges true flag) (prior : Bool) :
    run.Accounts charges prior fun value => prior && flag value :=
  fun context => (accounts context).after prior

theorem pure_accounts {value : α} (told : flag value = prior) :
    (pure value : Run α).Accounts charges prior flag :=
  fun _ => Attempt.pure_accounts told

theorem context_accounts :
    Run.context.Accounts charges prior fun _ => prior :=
  fun context => Attempt.ofExcept_accounts (.ok context)

theorem context_bind (next : Context → Run α) (context : Context) :
    (Run.context >>= next) context = next context context := rfl

theorem change_accounts (update : Context → Context) :
    (change update).Accounts charges prior fun _ => prior :=
  fun _ => Attempt.ofExcept_accounts (.ok ())

theorem note_accounts {findings : Log} (within : findings.Within charges) :
    (note findings).Accounts charges prior fun _ => prior && findings.isClean :=
  fun _ => Attempt.note_accounts within

theorem judge_accounts {verdict : Verdict} (accounts : verdict.Accounts charges) :
    (judge verdict).Accounts charges prior fun valid => prior && valid :=
  fun _ => Attempt.judge_accounts accounts

theorem ofAttempt_accounts {attempt : Attempt α}
    (accounts : attempt.Accounts charges prior flag) :
    (ofAttempt attempt).Accounts charges prior flag :=
  fun _ => accounts

theorem Accounts.inside (accounts : run.Accounts charges prior flag)
    (presence : Timing.Presence) :
    (Run.inside presence run).Accounts charges prior flag :=
  fun context => accounts { context with entered := presence :: context.entered }

theorem Accounts.bind {first : Run α} {next : α → Run β} {outcome : β → Bool}
    (firstAccounts : first.Accounts charges prior flag)
    (nextAccounts : ∀ value, (next value).Accounts charges (flag value) outcome) :
    (first >>= next).Accounts charges prior outcome := by
  intro context
  have firstAttempt := firstAccounts context
  cases gives : (first context).result with
  | error fault =>
      rw [bind_of_error gives]
      refine ⟨?_, firstAttempt.within⟩
      intro value impossible
      cases impossible
  | ok value =>
      have nextAttempt := nextAccounts value (first context).context
      rw [bind_of_ok gives]
      refine ⟨?_, Log.within_append firstAttempt.within nextAttempt.within⟩
      intro last ends
      rw [nextAttempt.agrees last ends, firstAttempt.agrees value gives,
        Bool.and_assoc, ← Log.isClean_append]
      rfl

theorem affirmed_accounts {valid : Bool} {finding : Finding}
    (harmless : finding.status.counts = false) :
    (do
      if valid then Run.note [finding]
      return valid : Run Bool).Accounts charges valid id := by
  have clean : Log.isClean [finding] = true := by simp [Log.isClean, harmless]
  cases valid with
  | false => exact pure_accounts rfl
  | true =>
      apply Accounts.bind (note_accounts (Log.within_of_isClean clean charges))
      intro _
      exact pure_accounts (by simp [clean])

theorem Accounts.choice {run : Run Bool} {next : Bool → Run β}
    {outcome : β → Bool} {condition : Bool} (accounts : run.Accounts charges true id)
    (nextAccounts : ∀ value, (next value).Accounts charges (prior && value) outcome) :
    (if condition then run >>= next else pure true >>= next).Accounts
      charges prior outcome := by
  cases condition with
  | false => exact Accounts.bind (pure_accounts (Bool.and_true prior)) nextAccounts
  | true => exact Accounts.bind (accounts.after prior) nextAccounts

theorem judge_sound {verdict : Verdict} (accounts : verdict.Accounts charges) :
    (judge verdict).Sound charges :=
  judge_accounts accounts

end Run

end Check

end TimedText
