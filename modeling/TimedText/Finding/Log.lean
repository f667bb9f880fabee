import TimedText.Finding.Code
/-!
Findings and the log that collects them. A finding says what came of one rule
at one place of a document. A log is the list of findings in the order in which
the rules were looked at.
-/

namespace TimedText

inductive Status where
  /-- The rule was looked at and holds. -/
  | pass
  /-- Something worth knowing that has no bearing on validity. -/
  | info
  /-- Something discouraged that does not make the document invalid. -/
  | warn
  /-- A defect. -/
  | fail
  /-- The rule could not be looked at. -/
  | skip
deriving DecidableEq, Repr

namespace Status

def all : List Status := [.pass, .info, .warn, .fail, .skip]

def label : Status → String
  | .pass => "Pass"
  | .info => "Info"
  | .warn => "Warn"
  | .fail => "Fail"
  | .skip => "Skip"

def number : Status → Nat
  | .pass => 0
  | .info => 1
  | .warn => 2
  | .fail => 3
  | .skip => 4

/-- Whether a finding of this status counts against a document: a defect does,
and so does a rule that could not be looked at. -/
def counts : Status → Bool
  | .fail | .skip => true
  | .pass | .info | .warn => false

end Status

structure Finding where
  status : Status
  code : Code
  location : String
  message : String
deriving DecidableEq, Repr

namespace Finding

def pass (code : Code) (location message : String) : Finding :=
  ⟨.pass, code, location, message⟩

def info (code : Code) (location message : String) : Finding :=
  ⟨.info, code, location, message⟩

def warn (code : Code) (location message : String) : Finding :=
  ⟨.warn, code, location, message⟩

def fail (code : Code) (location message : String) : Finding :=
  ⟨.fail, code, location, message⟩

def skip (code : Code) (location message : String) : Finding :=
  ⟨.skip, code, location, message⟩

def line (finding : Finding) : String :=
  finding.status.label ++ ": " ++ finding.code.name ++ " " ++ finding.location
    ++ " " ++ finding.message

end Finding

abbrev Log := List Finding

namespace Log

def count (log : Log) (status : Status) : Nat :=
  log.countP fun finding => finding.status = status

def withCode (log : Log) (code : Code) : Log :=
  log.filter fun finding => finding.code = code

def precedes (left right : Finding) : Bool :=
  left.status.number < right.status.number ||
    (left.status.number == right.status.number
      && left.code.place ≤ right.code.place)

def sorted (log : Log) : Log :=
  log.mergeSort precedes

end Log

end TimedText
