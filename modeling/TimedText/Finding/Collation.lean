import TimedText.Finding.Log
/-!
Collation: a log in which findings that repeat too often stand once, at the
place of the first, with the number of their locations.
-/

namespace TimedText

/-- Whether two findings say the same thing, be it at different places. -/
def Finding.repeats (finding other : Finding) : Bool :=
  finding.status = other.status && finding.message == other.message
    && finding.code = other.code

namespace Log

def repetitions (log : Log) (finding : Finding) : Nat :=
  log.countP finding.repeats

def summarised (log : Log) (finding : Finding) : Finding :=
  { finding with location := toString (log.repetitions finding) ++ " locations" }

/-- What is left of the rest of a log, given what stands before it: what the
whole log says at most `limit` times stays, and of the other findings those
that were not made before. -/
def collateFrom (whole : Log) (limit : Nat) (before : Log) : Log → Log
  | [] => []
  | finding :: rest =>
    let following := collateFrom whole limit (finding :: before) rest
    if whole.repetitions finding ≤ limit then finding :: following
    else if before.any finding.repeats then following
    else whole.summarised finding :: following

def collate (log : Log) (limit : Nat) : Log :=
  collateFrom log limit [] log

end Log

end TimedText
