import TimedText.Finding.Collation
import TimedText.Markup.Document
import TimedText.Profile.Captions
import TimedText.Profile.Scripts
/-!
The validation of documents. The bytes of a document are checked and mended,
read as text and as markup, and checked as a tree; the findings are summed up,
and those that repeat are collapsed. A check that stops at a fault counts as one
defect, and the others go on. A document that cannot be read is not checked any
further.
-/

namespace TimedText

open Check Profile

structure Report where
  /-- Whether every check was made and holds. -/
  valid : Bool
  /-- The defects that the summaries count. -/
  fails : Nat
  /-- The omissions that the summaries count. -/
  skips : Nat
  log : Log

def greatestExit : Nat := 2 ^ 31 - 1

/-- The exit status for a report: zero for a valid document, and otherwise the
number of defects. -/
def Report.exitStatus (report : Report) : Nat :=
  if report.valid then 0 else min report.fails greatestExit

/-! ## Stages -/

def faultFinding (name : String) (fault : Fault) : Finding :=
  .fail .validatorInternalException s!"While running {name}"
    s!"Exception raised: {fault.message}"

/-- The verdict of byte checks, each of them seeing the bytes that the one before
it left, and the bytes after the last. -/
def runByteChecks (bytes : Text.Bytes) : List ByteCheck → Verdict × Text.Bytes
  | [] => (.silent, bytes)
  | check :: rest =>
    let attempt := check.run bytes
    let (own, mended) : Verdict × Text.Bytes :=
      match attempt.result with
      | .ok (valid, mended) => (⟨valid, attempt.findings⟩, mended)
      | .error fault =>
        (⟨false, attempt.findings ++ [faultFinding check.name fault]⟩, bytes)
    let (others, final) := runByteChecks mended rest
    (own ++ others, final)

def readRoot (bytes : Text.Bytes) : Except Finding Element :=
  match Text.Utf8.decode bytes with
  | .error defect =>
    .error (.fail .preParseEncoding "Unknown"
      s!"Could not decode into UTF-8: {defect.message}")
  | .ok characters =>
    match Markup.Document.read (String.ofList characters) with
    | .ok document => .ok document.root
    | .error error =>
      .error (.fail .xmlParse "Document" s!"Could not parse XML: {error.message}")

/-- The verdict of checks on a document in a context. A check may put another
document in place of the one it saw. -/
def runChecks (context : Context) (root : Element) : List ElementCheck → Verdict
  | [] => .silent
  | check :: rest =>
    let outcome := check.run root context
    let own : Verdict :=
      match outcome.result with
      | .ok valid => ⟨valid, outcome.findings⟩
      | .error fault =>
        ⟨false, outcome.findings ++ [faultFinding check.name fault]⟩
    own ++ runChecks { outcome.context with replacement := none }
      (outcome.context.replacement.getD root) rest

def runStages (constraints : ConstraintSet) (vertical : Bool) (bytes : Text.Bytes) :
    Verdict :=
  let (mending, mended) := runByteChecks bytes constraints.byteChecks
  match readRoot mended with
  | .error finding => mending ++ Verdict.against finding
  | .ok root =>
    mending ++ runChecks (.initial vertical) root constraints.checks

def disagreement (valid : Bool) (conclusion : Conclusion) : Log :=
  if valid == (conclusion.fails == 0 && conclusion.skips == 0) then []
  else
    let word := if valid then "True" else "False"
    [.fail .validatorInternalException "Document validity summaries"
      s!"Overall validity {word} mismatch"]

/-- Validates a document against a constraint set. Findings that repeat more than
`limit` times are collapsed, unless the limit is zero. -/
def validateAgainst (constraints : ConstraintSet) (limit : Nat) (vertical : Bool)
    (bytes : Text.Bytes) : Report :=
  let verdict := runStages constraints vertical bytes
  let conclusion := constraints.conclude verdict.findings
  let log := verdict.findings ++ conclusion.summaries
    ++ disagreement verdict.valid conclusion
  { valid := verdict.valid
    fails := conclusion.fails
    skips := conclusion.skips
    log := if 0 < limit then log.collate limit else log }

/-! ## Profiles -/

inductive DeliveryProfile where
  | captions
  | scripts
deriving DecidableEq, Repr

def DeliveryProfile.ofName? (name : String) : Option DeliveryProfile :=
  let lower := String.ofList ((Text.trim name).toList.map Char.toLower)
  if ["bbc", "captioning", "ebu-tt-d"].contains lower then some .captions
  else if lower == "dapt" then some .scripts
  else none

structure Configuration where
  profile : DeliveryProfile
  collationLimit : Nat
  segment : Timing.Segment Float
  vertical : Bool
  schema : Option Schema
  registries : Registries

def Configuration.standard (profile : DeliveryProfile) : Configuration :=
  ⟨profile, 5, .whole, false, none, .published⟩

def Configuration.constraints (configuration : Configuration) : ConstraintSet :=
  match configuration.profile with
  | .captions => Profile.captions configuration.segment configuration.schema
  | .scripts =>
    Profile.scripts configuration.segment configuration.schema
      configuration.registries

def validate (configuration : Configuration) (bytes : Text.Bytes) : Report :=
  validateAgainst configuration.constraints configuration.collationLimit
    configuration.vertical bytes

def version : String := "0.1.0"

end TimedText
