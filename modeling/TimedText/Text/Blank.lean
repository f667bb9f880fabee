/-!
Blank characters and the cutting of text at them. A blank is a character with
the Unicode property White_Space: the no-break space is one, the zero-width
space is not.
-/

namespace TimedText.Text

/-- Whether a character has the property White_Space. -/
def isBlank (character : Char) : Bool :=
  let code := character.toNat
  (9 ≤ code && code ≤ 13) || code == 0x20 || code == 0x85 || code == 0xa0
    || code == 0x1680 || (0x2000 ≤ code && code ≤ 0x200a)
    || code == 0x2028 || code == 0x2029 || code == 0x202f || code == 0x205f
    || code == 0x3000

example : isBlank ' ' = true := rfl
example : isBlank '\u00a0' = true := rfl
example : isBlank '\u200b' = false := rfl

/-- The pieces between separators, in order: always one more piece than there
are separators. -/
def pieces (separates : Char → Bool) : List Char → List (List Char)
  | [] => [[]]
  | character :: rest =>
    if separates character then
      [] :: pieces separates rest
    else
      match pieces separates rest with
      | [] => [[character]]
      | first :: others => (character :: first) :: others

example : pieces (· == '.') "a..b".toList = [['a'], [], ['b']] := rfl

def trimmed (characters : List Char) : List Char :=
  ((characters.dropWhile isBlank).reverse.dropWhile isBlank).reverse

def blankSeparated (characters : List Char) : List (List Char) :=
  (pieces isBlank characters).filter fun word => !word.isEmpty

def trim (text : String) : String :=
  String.ofList (trimmed text.toList)

def words (text : String) : List String :=
  (blankSeparated text.toList).map String.ofList

def allBlank (text : String) : Bool :=
  text.toList.all isBlank

def hasContent (text : Option String) : Bool :=
  text.any fun text => !allBlank text

def split (separator : Char) (text : String) : List String :=
  (pieces (· == separator) text.toList).map String.ofList

end TimedText.Text
