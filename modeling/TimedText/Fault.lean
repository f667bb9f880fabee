import TimedText.Time.Parameters
/-!
Faults: conditions that stop one operation, such as bytes that cannot be read or
a rule whose preconditions are not met. What is merely wrong with a document is
a finding and not a fault.
-/

namespace TimedText

inductive Fault where
  | unreadable (message : String)
  | undecodable (message : String)
  | time (fault : Time.Fault)
  | style (message : String)
  | validation (message : String)
  | missing (entry : String)
  | internal (message : String)
deriving DecidableEq, Repr

namespace Fault

def message : Fault → String
  | .unreadable message => message
  | .undecodable message => message
  | .time fault => fault.message
  | .style message => message
  | .validation message => message
  | .missing entry => s!"context entry {entry} has not been populated"
  | .internal message => s!"internal error: {message}"

inductive Category where
  | input
  | format
  | context
  | internal
deriving DecidableEq, Repr

def Category.name : Category → String
  | .input => "input"
  | .format => "format"
  | .context => "context"
  | .internal => "internal"

def category : Fault → Category
  | .unreadable _ | .undecodable _ => .input
  | .time _ | .style _ | .validation _ => .format
  | .missing _ => .context
  | .internal _ => .internal

/-- Whether a fault shows a defect of this library and not of its input. -/
def isInternal (fault : Fault) : Bool :=
  fault.category = .internal

def isRecoverable (fault : Fault) : Bool :=
  !fault.isInternal

end Fault

end TimedText
