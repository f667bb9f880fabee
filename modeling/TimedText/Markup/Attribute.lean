import TimedText.Markup.Flaw
import TimedText.Text.Cut
/-!
The attributes of a tag as they are written: keys with prefixes, values with
references. Reading stops at the first attribute that is malformed, and what
was read before it is kept.
-/

namespace TimedText.Markup

def isSpace (character : Char) : Bool :=
  character == ' ' || character == '\n' || character == '\r' || character == '\t'

structure Attribute where
  key : List Char
  value : List Char
deriving DecidableEq, Repr

/-- The attributes read from a tag and what stopped the reading, if anything
did. -/
structure Attributes where
  read : List Attribute
  flaw : Option AttributeFlaw
deriving DecidableEq, Repr

/-- The key at the front and what follows it. The first character belongs to
the key, whatever it is. -/
def takeKey (first : Char) (rest : List Char) : List Char × List Char :=
  let inKey (character : Char) : Bool := character != '=' && !isSpace character
  (first :: rest.takeWhile inKey, rest.dropWhile inKey)

/-- What follows the equals sign after a key, or the place where one should
stand. `place` gives the place of what is left of the tag. -/
def afterEquals (place : List Char → Nat) (characters : List Char) :
    Except AttributeFlaw (List Char) :=
  match characters.dropWhile isSpace with
  | '=' :: rest => .ok rest
  | other => .error (.missingEquals (place other))

def takeValue (place : List Char → Nat) (characters : List Char) :
    Except AttributeFlaw (List Char × List Char) :=
  match characters.dropWhile isSpace with
  | [] => .error (.missingValue (place []))
  | quote :: rest =>
    if quote == '"' || quote == '\x27' then
      match rest.dropWhile (· != quote) with
      | [] => .error (.missingQuote (place []) quote)
      | _ :: after => .ok (rest.takeWhile (· != quote), after)
    else .error (.unquoted (place (quote :: rest)))

private theorem length_dropWhile_le (holds : Char → Bool)
    (characters : List Char) :
    (characters.dropWhile holds).length ≤ characters.length :=
  (List.dropWhile_suffix holds).length_le

private theorem afterEquals_shorter {place : List Char → Nat}
    {characters rest : List Char} (found : afterEquals place characters = .ok rest) :
    rest.length < characters.length := by
  have bound := length_dropWhile_le isSpace characters
  unfold afterEquals at found
  split at found
  · rename_i equal
    cases found
    rw [equal, List.length_cons] at bound
    omega
  · cases found

private theorem takeValue_shorter {place : List Char → Nat}
    {characters value rest : List Char}
    (found : takeValue place characters = .ok (value, rest)) :
    rest.length < characters.length := by
  have bound := length_dropWhile_le isSpace characters
  unfold takeValue at found
  split at found
  · cases found
  · rename_i quote quoted equal
    rw [equal, List.length_cons] at bound
    split at found
    · have inner := length_dropWhile_le (· != quote) quoted
      split at found
      · cases found
      · rename_i after equalAfter
        cases found
        rw [equalAfter, List.length_cons] at inner
        omega
    · cases found

/-- Reads attributes from what is left of a tag. `earlier` holds the keys read
before with their places; where keys are distinct, none of them may come
again. -/
def attributesFrom (distinct : Bool) (place : List Char → Nat)
    (earlier : List (List Char × Nat)) (characters : List Char) : Attributes :=
  match _start : characters.dropWhile isSpace with
  | [] => ⟨[], none⟩
  | first :: rest =>
    let key := (takeKey first rest).1
    match _equals : afterEquals place (takeKey first rest).2 with
    | .error flaw => ⟨[], some flaw⟩
    | .ok assigned =>
      match earlier.find? fun previous => distinct && previous.1 == key with
      | some (_, previous) =>
        ⟨[], some (.repeated (place (first :: rest)) previous)⟩
      | none =>
        match _value : takeValue place assigned with
        | .error flaw => ⟨[], some flaw⟩
        | .ok (value, after) =>
          let following := attributesFrom distinct place
            ((key, place (first :: rest)) :: earlier) after
          ⟨⟨key, value⟩ :: following.read, following.flaw⟩
termination_by characters.length
decreasing_by
  have bound := length_dropWhile_le isSpace characters
  have equalsShorter := afterEquals_shorter _equals
  have valueShorter := takeValue_shorter _value
  have keyBound := length_dropWhile_le
    (fun character => character != '=' && !isSpace character) rest
  simp only [takeKey] at equalsShorter
  rw [_start, List.length_cons] at bound
  omega

def tagName (tag : List Char) : List Char :=
  tag.takeWhile fun character => !isSpace character

def attributesOf (distinct : Bool) (tag : List Char) : Attributes :=
  let place (rest : List Char) : Nat := Text.byteLength tag - Text.byteLength rest
  attributesFrom distinct place []
    (tag.dropWhile fun character => !isSpace character)

end TimedText.Markup
