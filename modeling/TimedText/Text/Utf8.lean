import TimedText.Number.Power
/-!
UTF-8: the bytes of characters, and the characters that bytes stand for. What
cannot be read is cut into defects, each the longest run of bytes that begins
some well-formed sequence, or else one byte.
-/

namespace TimedText.Text

abbrev Bytes := List UInt8

namespace Utf8

def encodeCharacter (character : Char) : Bytes :=
  let code := character.toNat
  let byte (base shift size : Nat) : UInt8 :=
    UInt8.ofNat (base + code / 2 ^ shift % size)
  if code < 0x80 then [byte 0 0 0x80]
  else if code < 0x800 then [byte 0xc0 6 0x20, byte 0x80 0 0x40]
  else if code < 0x10000 then
    [byte 0xe0 12 0x10, byte 0x80 6 0x40, byte 0x80 0 0x40]
  else
    [byte 0xf0 18 0x08, byte 0x80 12 0x40, byte 0x80 6 0x40, byte 0x80 0 0x40]

def encode (characters : List Char) : Bytes :=
  characters.flatMap encodeCharacter

/-- What the front of a byte sequence holds. A character and an invalid run both
tell how many bytes beyond the first belong to them. -/
inductive Reading where
  | character (character : Char) (further : Nat)
  | invalid (further : Nat)
  | incomplete
deriving DecidableEq

def isContinuation (byte : UInt8) : Bool :=
  0x80 ≤ byte && byte ≤ 0xbf

/-- Whether a second byte may follow a first byte of a sequence of three or
four: it must exclude longer forms than needed, surrogates and code points
beyond the last. -/
def isSecond (first second : UInt8) : Bool :=
  let lowest := if first = 0xe0 then 0xa0 else if first = 0xf0 then 0x90 else 0x80
  let highest := if first = 0xed then 0x9f else if first = 0xf4 then 0x8f else 0xbf
  lowest ≤ second && second ≤ highest

private def joined (high : Nat) (following : List UInt8) : Char :=
  Char.ofNat (following.foldl (fun code byte => code * 64 + byte.toNat % 64) high)

def read (first : UInt8) (rest : Bytes) : Reading :=
  if first < 0x80 then .character (Char.ofNat first.toNat) 0
  else if 0xc2 ≤ first ∧ first ≤ 0xdf then
    match rest with
    | [] => .incomplete
    | second :: _ =>
      if isContinuation second then .character (joined (first.toNat % 32) [second]) 1
      else .invalid 0
  else if 0xe0 ≤ first ∧ first ≤ 0xef then
    match rest with
    | [] => .incomplete
    | second :: rest =>
      if !isSecond first second then .invalid 0
      else
        match rest with
        | [] => .incomplete
        | third :: _ =>
          if isContinuation third then
            .character (joined (first.toNat % 16) [second, third]) 2
          else .invalid 1
  else if 0xf0 ≤ first ∧ first ≤ 0xf4 then
    match rest with
    | [] => .incomplete
    | second :: rest =>
      if !isSecond first second then .invalid 0
      else
        match rest with
        | [] => .incomplete
        | third :: rest =>
          if !isContinuation third then .invalid 1
          else
            match rest with
            | [] => .incomplete
            | fourth :: _ =>
              if isContinuation fourth then
                .character (joined (first.toNat % 8) [second, third, fourth]) 3
              else .invalid 2
  else .invalid 0

/-- Where and why bytes are no UTF-8: an invalid run of `length` bytes, or a
sequence that the end of the bytes cuts short. -/
inductive Defect where
  | invalid (length index : Nat)
  | incomplete (index : Nat)
deriving DecidableEq, Repr

def Defect.message : Defect → String
  | .invalid length index =>
    s!"invalid utf-8 sequence of {length} bytes from index {index}"
  | .incomplete index => s!"incomplete utf-8 byte sequence from index {index}"

/-- The characters of well-formed bytes, or the first defect; `index` counts the
bytes before these. -/
def decodeFrom (index : Nat) (bytes : Bytes) : Except Defect (List Char) :=
  match bytes with
  | [] => .ok []
  | first :: rest =>
    match read first rest with
    | .character character further =>
      (decodeFrom (index + further + 1) (rest.drop further)).map (character :: ·)
    | .invalid further => .error (.invalid (further + 1) index)
    | .incomplete => .error (.incomplete index)
termination_by bytes.length
decreasing_by simp only [List.length_drop, List.length_cons]; omega

def decode (bytes : Bytes) : Except Defect (List Char) :=
  decodeFrom 0 bytes

/-- The characters of any bytes, a replacement character standing for each
defect. -/
def decodeLossy (bytes : Bytes) : List Char :=
  match bytes with
  | [] => []
  | first :: rest =>
    match read first rest with
    | .character character further => character :: decodeLossy (rest.drop further)
    | .invalid further => '\ufffd' :: decodeLossy (rest.drop further)
    | .incomplete => ['\ufffd']
termination_by bytes.length
decreasing_by all_goals simp only [List.length_drop, List.length_cons]; omega

end Utf8

end TimedText.Text
