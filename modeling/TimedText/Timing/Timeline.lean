import TimedText.Markup.Element
import TimedText.Number.Quantity
/-!
Timelines: the instants at which timed elements begin, in order, each with the
elements that begin there in the order in which they were entered.
-/

namespace TimedText.Timing

structure Entry (τ : Type) where
  tag : String
  xmlId : Option String
  path : Path
  ending : Option τ

namespace Entry

variable {τ : Type}

def localPart (entry : Entry τ) : String :=
  Name.localPart entry.tag

def xmlIdOrOmitted (entry : Entry τ) : String :=
  entry.xmlId.getD "omitted"

end Entry

structure Moment (τ : Type) where
  instant : τ
  entries : List (Entry τ)

/-- Instants in order, no two of them being the same. -/
abbrev Timeline (τ : Type) := List (Moment τ)

namespace Timeline

variable {τ : Type} [Quantity τ]

def enter (instant : τ) (entry : Entry τ) : Timeline τ → Timeline τ
  | [] => [⟨instant, [entry]⟩]
  | moment :: later =>
    if Quantity.filedBefore instant moment.instant then
      ⟨instant, [entry]⟩ :: moment :: later
    else if Quantity.filedBefore moment.instant instant then
      moment :: enter instant entry later
    else { moment with entries := moment.entries ++ [entry] } :: later

def ofList (entries : List (τ × Entry τ)) : Timeline τ :=
  entries.foldl (fun timeline (instant, entry) => enter instant entry timeline) []

def withLocalPart (timeline : Timeline τ) (part : String) : List (τ × Entry τ) :=
  timeline.flatMap fun moment =>
    (moment.entries.filter fun entry => entry.localPart == part).map fun entry =>
      (moment.instant, entry)

end Timeline

/-- The latest of some endings, given that there is at least one: none if one of
them is missing. -/
def latest {τ : Type} [Quantity τ] : List (Option τ) → Option τ
  | [] => none
  | [ending] => ending.map Quantity.bounding
  | ending :: others => do
    let ending ← ending
    let later ← latest others
    return Quantity.greater (Quantity.bounding ending) later

end TimedText.Timing
