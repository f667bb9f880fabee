import TimedText.Finding.Log
/-!
Verdicts: whether a rule, or several, hold, and the findings that were made in
looking at them.
-/

namespace TimedText

/-- Whether rules hold, and what was found. -/
structure Verdict where
  valid : Bool
  findings : Log
deriving DecidableEq, Repr

namespace Verdict

def silent : Verdict := ⟨true, []⟩

def remark (finding : Finding) : Verdict := ⟨true, [finding]⟩

def against (finding : Finding) : Verdict := ⟨false, [finding]⟩

def both (first second : Verdict) : Verdict :=
  ⟨first.valid && second.valid, first.findings ++ second.findings⟩

instance : Append Verdict where
  append := both

def all (verdicts : List Verdict) : Verdict :=
  ⟨verdicts.all (·.valid), verdicts.flatMap (·.findings)⟩

def forEach {α : Type} (members : List α) (rule : α → Verdict) : Verdict :=
  all (members.map rule)

def when (condition : Bool) (verdict : Verdict) : Verdict :=
  if condition then verdict else silent

def affirm (verdict : Verdict) (finding : Finding) : Verdict :=
  verdict ++ when verdict.valid (remark finding)

end Verdict

end TimedText
