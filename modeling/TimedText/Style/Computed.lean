import TimedText.Attempt
import TimedText.Number.Written
import TimedText.Style.Cascade
/-!
The computed values of style attributes: one for each known attribute, from the
value specified for an element, the value computed for its parent and the
initial value. Font sizes are computed in percent of the height of the root
container.
-/

namespace TimedText.Style

abbrev Computed := Catalogue String

/-- What computation depends on besides styles: the cell resolution of the
document, and the font size computed for the element. -/
structure Setting where
  cellResolution : Option String
  fontSize : Option String
deriving DecidableEq, Repr

/-- The rows of cells of a document that does not say. -/
def defaultRows : Nat := 15

/-- The rows of cells that a cell resolution names: a positive number after the
first word. -/
def rows? (cellResolution : String) : Option Nat :=
  match Text.words cellResolution with
  | _ :: rows :: _ => (Number.readNatural? (2 ^ 32) rows).filter (0 < ·)
  | _ => none

def rowsOf (cellResolution : Option String) : Except Fault Nat :=
  match cellResolution with
  | none => .ok defaultRows
  | some text =>
    match rows? text with
    | some rows => .ok rows
    | none => .error (.style s!"cellResolution {text} has no usable row count")

def cellHeight (cellResolution : Option String) : Except Fault String :=
  (rowsOf cellResolution).map fun rows =>
    Number.fixedText 6 (100 / Number.ofDecimal rows 0) ++ "rh"

def numeralAndUnit? (text : String) : Option (Number.Numeral × String) :=
  match Number.Numeral.take? text.toList with
  | some (numeral, unit) =>
    if unit.all fun character => Text.isLetter character || character == '%' then
      some (numeral, String.ofList unit)
    else none
  | none => none

def percentOf (specified basis : String) : Except Fault String :=
  match numeralBefore? '%' specified.toList with
  | none =>
    .error (.style s!"Specified value {specified} is not a valid percentage value")
  | some percentage =>
    match numeralAndUnit? basis with
    | none => .error (.style s!"Basis value {basis} is not a valid number")
    | some (numeral, unit) =>
      .ok (Number.fixedText 6 (percentage.toFloat / 100 * numeral.toFloat) ++ unit)

def present (value : Option String) : Option String :=
  value.filter fun text => !text.isEmpty

def computeFontSize (setting : Setting) (specified parent : Option String) :
    Except Fault String := do
  let basis ←
    match parent with
    | some parent => .ok parent
    | none => cellHeight setting.cellResolution
  match specified with
  | none => return basis
  | some value =>
    if isPercentage value then percentOf value basis
    else throw (.style s!"{value} is not a valid fontSize")

def computeLineHeight (setting : Setting) (specified parent : Option String)
    (initial : String) : Except Fault String :=
  match specified with
  | none => .ok (parent.getD initial)
  | some value =>
    if value == "normal" then .ok value
    else
      match setting.fontSize with
      | some fontSize => percentOf value fontSize
      | none => .error (.internal "lineHeight computed before fontSize")

/-- The computed value of an attribute. Empty values count as absent. -/
def Property.compute (property : Property) (setting : Setting)
    (specified parent : Option String) : Except Fault String :=
  let specified := present specified
  let parent := present parent
  match property.rule with
  | .uninherited => .ok (specified.getD property.initial)
  | .inherited => .ok ((specified.or parent).getD property.initial)
  | .fontSize => computeFontSize setting specified parent
  | .lineHeight => computeLineHeight setting specified parent property.initial

def Property.settle (property : Property) (setting : Setting) (value : String) :
    Setting :=
  match property.rule with
  | .fontSize => { setting with fontSize := some value }
  | _ => setting

structure Computation where
  computed : Computed
  setting : Setting
  verdict : Verdict

def Property.computeChecked (property : Property) (setting : Setting)
    (specified parent : Option String) : Except Fault String :=
  if (present specified).any fun value => !property.accepts value then
    .error (.style "Value has invalid format")
  else property.compute setting specified parent

/-- Computes one more attribute. One that cannot be computed is a finding of a
status and gets no value. -/
def Computation.add (uri : String) (specified : Specified) (parent : Computed)
    (status : Status) (computation : Computation) (property : Property) :
    Computation :=
  let name := property.qualifiedName uri
  let value := specified.find? name
  match property.computeChecked computation.setting value
      (parent.find? property.name) with
  | .ok result =>
    { computation with
      computed := computation.computed.insert property.name result
      setting := property.settle computation.setting result }
  | .error fault =>
    let finding : Finding := {
      status := status
      code := .ttmlAttributeStylingAttribute
      location :=
        name ++ " styling attribute with value \"" ++ value.getD "None" ++ "\""
      message := fault.message }
    { computation with verdict := computation.verdict ++ Verdict.against finding }

def computeAll (uri : String) (specified : Specified) (parent : Computed)
    (setting : Setting) (status : Status) : Computation :=
  properties.foldl (Computation.add uri specified parent status)
    ⟨.empty, setting, .silent⟩

end TimedText.Style
