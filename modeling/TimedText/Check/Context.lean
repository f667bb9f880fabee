import TimedText.Attempt
import TimedText.Style.Computed
import TimedText.Timing.Overlap
import TimedText.Timing.Presence
/-!
The context that the checks of one document share, and runs, which read and
change it. A check may file an entry that later checks ask for; an entry that
was never filed is a fault of the one who needs it.
-/

namespace TimedText.Check

open Style Timing

structure Context where
  /-- The namespace of the root, which is empty if the root has none. -/
  rootUri : Option String
  /-- The tags of the elements with each id. -/
  ids : Option (Catalogue (List String))
  /-- Style elements by id. -/
  styles : Option (Catalogue Element)
  /-- What each style element specifies. -/
  specified : Option (Catalogue Specified)
  /-- Region elements by id. -/
  regions : Option (Catalogue Element)
  /-- The cell resolution in effect. -/
  cellResolution : Option String
  /-- The regions in which paragraphs are shown. -/
  placement : Option Placement
  /-- The computed style of each region. -/
  regionStyles : Option (Catalogue Computed)
  /-- Whether the video stands upright. -/
  vertical : Bool
  /-- What takes the place of the document for the checks that follow. -/
  replacement : Option Element
  /-- The timing attributes of the elements that have been entered, the
  innermost first. -/
  entered : List Presence

namespace Context

def initial (vertical : Bool) : Context :=
  ⟨none, none, none, none, none, none, none, none, vertical, none, []⟩

/-- The namespace of the document: that of its root, once it is known. -/
def uri (context : Context) : String :=
  context.rootUri.getD Vocabulary.core

def enclosing (context : Context) : Presence :=
  context.entered.head?.getD .none

def require {α : Type} (name : String) (entry : Option α) : Except Fault α :=
  match entry with
  | some value => .ok value
  | none => .error (.missing name)

def requireStyles (context : Context) : Except Fault (Catalogue Element) :=
  require "id_to_style_map" context.styles

def requireSpecified (context : Context) : Except Fault (Catalogue Specified) :=
  require "id_to_style_attribs_map" context.specified

def requireRegions (context : Context) : Except Fault (Catalogue Element) :=
  require "id_to_region_map" context.regions

def requireIds (context : Context) : Except Fault (Catalogue (List String)) :=
  require "xmlId_to_element_map" context.ids

def requirePlacement (context : Context) :
    Except Fault (Placement × Catalogue Computed) := do
  let placement ← require "elements_to_region_id_map" context.placement
  let styles ← require "region_id_to_css_map" context.regionStyles
  return (placement, styles)

end Context

/-- What comes of a run: its value or a fault, the context it leaves, and its
findings. A fault leaves what was done before it. -/
structure Outcome (α : Type) where
  result : Except Fault α
  context : Context
  findings : Log

/-- An operation on a context that makes findings and may stop. -/
def Run (α : Type) : Type := Context → Outcome α

namespace Run

variable {α β : Type}

def andThen (first : Run α) (next : α → Run β) : Run β := fun context =>
  let outcome := first context
  match outcome.result with
  | .ok value =>
    let second := next value outcome.context
    ⟨second.result, second.context, outcome.findings ++ second.findings⟩
  | .error fault => ⟨.error fault, outcome.context, outcome.findings⟩

instance : Monad Run where
  pure value := fun context => ⟨.ok value, context, []⟩
  bind := andThen

def context : Run Context := fun context => ⟨.ok context, context, []⟩

def change (update : Context → Context) : Run Unit := fun context =>
  ⟨.ok (), update context, []⟩

def note (findings : Log) : Run Unit := fun context => ⟨.ok (), context, findings⟩

def judge (verdict : Verdict) : Run Bool := fun context =>
  ⟨.ok verdict.valid, context, verdict.findings⟩

def ofAttempt (attempt : Attempt α) : Run α := fun context =>
  ⟨attempt.result, context, attempt.findings⟩

/-- A run inside an element with some timing attributes. The element is left
again whether or not the run stops at a fault. -/
def inside (presence : Presence) (run : Run α) : Run α := fun context =>
  let outcome := run { context with entered := presence :: context.entered }
  { outcome with
    context := { outcome.context with entered := outcome.context.entered.tail } }

end Run

def localLocation (element : Element) : String :=
  element.localPart ++ " element xml:id " ++ element.xmlIdOr "omitted"

def childLocation (element : Element) (tag : String) : String :=
  s!"{element.tag}/{tag}"

end TimedText.Check
