import TimedText.Markup.Flaw
import TimedText.Number.Power
import TimedText.Text.Cut
import TimedText.Text.Digit
/-!
References: a name or a number between an ampersand and a semicolon stands for
one character. Attribute values say what is wrong with a reference; in text a
reference either has a meaning or has none. Text also admits the number zero
and a plus sign before the digits.
-/

namespace TimedText.Markup

def named? : List Char → Option Char
  | ['a', 'm', 'p'] => some '&'
  | ['l', 't'] => some '<'
  | ['g', 't'] => some '>'
  | ['q', 'u', 'o', 't'] => some '"'
  | ['a', 'p', 'o', 's'] => some '\x27'
  | _ => none

def radixAndDigits : List Char → Nat × List Char
  | 'x' :: digits => (16, digits)
  | digits => (10, digits)

/-- The number that digits spell, as long as it fits in 32 bits. A character
that is no digit is noticed before the number that it would make too large. -/
def readDigits (radix : Nat) (number : Nat) : List Char → Except DigitFlaw Nat
  | [] => .ok number
  | character :: rest =>
    match Text.digitValue? radix character with
    | none => .error .foreign
    | some digit =>
      if number * radix + digit < 2 ^ 32 then
        readDigits radix (number * radix + digit) rest
      else .error .tooLarge

def numbered (afterSign : List Char) : Except ReferenceFlaw Char :=
  let (radix, digits) := radixAndDigits afterSign
  match digits with
  | [] => .error (.digits .missing)
  | '+' :: _ | '-' :: _ => .error .sign
  | _ =>
    match readDigits radix 0 digits with
    | .error flaw => .error (.digits flaw)
    | .ok 0 => .error .zero
    | .ok code =>
      if code.isValidChar then .ok (Char.ofNat code)
      else .error (.noCharacter code)

/-- An attribute value with its references replaced, `value` being the whole of
it and the rest what is still to be read. -/
def expandFrom (value : List Char) : List Char → Except ReferenceFlaw (List Char)
  | [] => .ok []
  | '&' :: rest => do
    let name := rest.takeWhile fun character => character != '&' && character != ';'
    match _following : rest.drop name.length with
    | ';' :: after =>
      let character ←
        match name with
        | '#' :: number => numbered number
        | _ =>
          let start := Text.byteLength value - Text.byteLength rest
          (named? name).elim
            (.error (.unknown start (start + Text.byteLength name)
              (String.ofList name)))
            .ok
      let expanded ← expandFrom value after
      return character :: expanded
    | _ =>
      .error (.unclosed (Text.byteLength value - Text.byteLength rest - 1)
        (Text.byteLength value))
  | character :: rest => do
    let expanded ← expandFrom value rest
    return character :: expanded
termination_by characters => characters.length
decreasing_by
  · have shorter := congrArg List.length _following
    simp only [List.length_drop, List.length_cons] at shorter ⊢
    omega
  · exact Nat.lt_succ_self _

def expand (value : List Char) : Except ReferenceFlaw (List Char) :=
  expandFrom value value

def meaning? : List Char → Option Char
  | '#' :: number =>
    let (radix, digits) := radixAndDigits number
    let digits :=
      match digits with
      | '+' :: unsigned => unsigned
      | _ => digits
    if digits.isEmpty then none
    else
      match readDigits radix 0 digits with
      | .ok code => if code.isValidChar then some (Char.ofNat code) else none
      | .error _ => none
  | name => named? name

end TimedText.Markup
