/-!
Texts as messages quote them.
-/

namespace TimedText.Text

def quotedList (items : List String) : String :=
  "[" ++ ", ".intercalate (items.map fun item => "'" ++ item ++ "'") ++ "]"

end TimedText.Text
