import TimedText.Markup.Element
import TimedText.Text.Quoted
/-!
Which timing attributes are present on an element, or on it and those that it
lies in.
-/

namespace TimedText.Timing

/-- Which of `begin`, `dur` and `end` are present. -/
structure Presence where
  begins : Bool
  lasts : Bool
  ends : Bool
deriving DecidableEq, Repr

namespace Presence

def none : Presence := ⟨false, false, false⟩

def of (element : Element) : Presence :=
  ⟨element.hasAttribute "begin", element.hasAttribute "dur",
    element.hasAttribute "end"⟩

def union (left right : Presence) : Presence :=
  ⟨left.begins || right.begins, left.lasts || right.lasts, left.ends || right.ends⟩

def isNone (presence : Presence) : Bool :=
  !presence.begins && !presence.lasts && !presence.ends

def names (presence : Presence) : List String :=
  (if presence.begins then ["begin"] else [])
    ++ (if presence.lasts then ["dur"] else [])
    ++ (if presence.ends then ["end"] else [])

def describe (presence : Presence) : String :=
  Text.quotedList presence.names

end Presence

end TimedText.Timing
