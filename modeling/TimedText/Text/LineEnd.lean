/-!
Line ends. A text may end its lines in several ways; readers of it see line
feeds only.
-/

namespace TimedText.Text

/-- The text with every line end written as one line feed: a carriage return
with a line feed or next-line character after it, either of these characters
alone, and the line separator. -/
def unifiedLineEnds : List Char → List Char
  | '\r' :: '\n' :: rest => '\n' :: unifiedLineEnds rest
  | '\r' :: '\u0085' :: rest => '\n' :: unifiedLineEnds rest
  | character :: rest =>
    let isLineEnd :=
      character == '\r' || character == '\u0085' || character == '\u2028'
    (if isLineEnd then '\n' else character) :: unifiedLineEnds rest
  | [] => []

example : unifiedLineEnds "a\r\nb\rc".toList = "a\nb\nc".toList := rfl

end TimedText.Text
