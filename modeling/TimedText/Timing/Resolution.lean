import TimedText.Timing.Rules
import TimedText.Timing.Timeline
/-!
The resolution of timing. Every timed element is resolved against the begin of
its parent and the nearest end above it: its begin counts from the parent's, and
its end is never after the one above. An element whose begin nothing sets, on it
or above it, begins with the earliest of its timed children; and one whose end
nothing sets ends with the latest of them.
-/

namespace TimedText.Timing

variable {τ : Type} [Quantity τ]

/-- What becomes of a timed element: whether its timing and that of the elements
inside is legal, when it begins and ends, and the timeline entries of it and of
all timed elements inside, an element coming after what it contains. -/
structure Resolution (τ : Type) where
  valid : Bool
  beginning : τ
  ending : Option τ
  entries : List (τ × Entry τ)

/-- When a child of an element may be on screen: counted from an instant, until
a bound if there is one, with what is set above it. -/
structure Frame (τ : Type) where
  epoch : τ
  bound : Option τ
  set : Presence

def within (bound : Option τ) (instant : τ) : τ :=
  bound.elim instant fun bound => Quantity.smaller bound instant

/-- What an element sets by its own attributes: whether they are usable, and the
frame for its children. -/
def ownFrame (rules : Rules τ) (frame : Frame τ) (element : Element) :
    Attempt (Bool × Frame τ) := do
  let legal ← Attempt.judge (rules.check element)
  let (begins, beginUsable) ← rules.value element "begin"
  let beginning := Quantity.add frame.epoch (begins.getD Quantity.zero)
  let (ends, endUsable) ← rules.value element "end"
  let ending :=
    ends.elim frame.bound fun ends =>
      some (within frame.bound (Quantity.add frame.epoch ends))
  let (lasts, durationUsable) ←
    if rules.usesDuration then rules.value element "dur" else pure (none, true)
  let ending :=
    lasts.elim ending fun lasts =>
      some (within ending (Quantity.add beginning lasts))
  let set : Presence := {
    begins := frame.set.begins || element.hasAttribute "begin"
    lasts := frame.set.lasts
    ends := frame.set.ends || element.hasAttribute "end" || lasts.isSome }
  return (legal && beginUsable && endUsable && durationUsable,
    ⟨beginning, ending, set⟩)

def earliest? : List (Resolution τ) → Option τ
  | [] => none
  | first :: rest =>
    some (rest.foldl (fun instant other => Quantity.smaller instant other.beginning)
      first.beginning)

def conclude (element : Element) (path : Path) (usable : Bool) (own : Frame τ)
    (children : List (Resolution τ)) : Resolution τ :=
  let beginning :=
    if own.set.begins then own.epoch else (earliest? children).getD own.epoch
  let ending :=
    if own.set.ends || children.isEmpty then own.bound
    else latest (children.map (·.ending))
  { valid := usable && children.all (·.valid)
    beginning := beginning
    ending := ending
    entries := children.flatMap (·.entries)
      ++ [(beginning, ⟨element.tag, element.xmlId?, path, ending⟩)] }

mutual
def resolveWithin (rules : Rules τ) (frame : Frame τ) (path : Path) :
    Element → Attempt (Resolution τ)
  | ⟨tag, attributes, children, text, tail⟩ => do
    let element : Element := ⟨tag, attributes, children, text, tail⟩
    let (usable, own) ← ownFrame rules frame element
    let resolutions ← resolveChildren rules own path 0 children
    return conclude element path usable own resolutions

def resolveChildren (rules : Rules τ) (frame : Frame τ) (path : Path)
    (index : Nat) : List Element → Attempt (List (Resolution τ))
  | [] => return []
  | child :: rest => do
    if rules.kinds.contains child.localPart then
      let first ← resolveWithin rules frame (path ++ [index]) child
      let others ← resolveChildren rules frame path (index + 1) rest
      return first :: others
    else resolveChildren rules frame path (index + 1) rest
end

def resolve (rules : Rules τ) (path : Path) (root : Element) :
    Attempt (Resolution τ) :=
  resolveWithin rules ⟨Quantity.zero, none, .none⟩ path root

def Resolution.timeline (resolution : Resolution τ) : Timeline τ :=
  Timeline.ofList resolution.entries

end TimedText.Timing
