import TimedText.Number.Digits
import TimedText.Text.Utf8
/-!
The encodings that a byte order mark can announce, and the reading of bytes in
them.
-/

namespace TimedText.Text

inductive ByteOrder where
  | little
  | big
deriving DecidableEq, Repr

inductive Encoding where
  | utf8
  | utf16 (order : ByteOrder)
  | utf32 (order : ByteOrder)
deriving DecidableEq, Repr

inductive Encoding.Defect where
  | utf8 (defect : Utf8.Defect)
  | truncated (unitBits : Nat)
  | unpairedSurrogate (unit : Nat)
  | invalidCodePoint (code : Nat)
deriving DecidableEq, Repr

def Encoding.Defect.message : Encoding.Defect → String
  | .utf8 defect => defect.message
  | .truncated unitBits => s!"truncated UTF-{unitBits} data"
  | .unpairedSurrogate unit => "unpaired surrogate found: " ++ Number.hexadecimal unit
  | .invalidCodePoint code => "invalid UTF-32 code point 0x" ++ Number.hexadecimal code

namespace Encoding

def all : List Encoding :=
  [.utf8, .utf16 .little, .utf16 .big, .utf32 .little, .utf32 .big]

def name : Encoding → String
  | .utf8 => "utf_8"
  | .utf16 .little => "utf_16_le"
  | .utf16 .big => "utf_16_be"
  | .utf32 .little => "utf_32_le"
  | .utf32 .big => "utf_32_be"

def ofName? (name : String) : Option Encoding :=
  all.find? fun encoding => encoding.name == name

def byteOrderMark : Encoding → Bytes
  | .utf8 => [0xef, 0xbb, 0xbf]
  | .utf16 .little => [0xff, 0xfe]
  | .utf16 .big => [0xfe, 0xff]
  | .utf32 .little => [0xff, 0xfe, 0x00, 0x00]
  | .utf32 .big => [0x00, 0x00, 0xfe, 0xff]

/-- The encoding whose byte order mark the bytes begin with. A mark that begins
another one is tried after it. -/
def detect? (bytes : Bytes) : Option Encoding :=
  [.utf32 .little, .utf32 .big, .utf8, .utf16 .little, .utf16 .big].find?
    fun encoding => encoding.byteOrderMark.isPrefixOf bytes

def unitValue (order : ByteOrder) (unit : Bytes) : Nat :=
  let ordered :=
    match order with
    | .big => unit
    | .little => unit.reverse
  ordered.foldl (fun value byte => value * 256 + byte.toNat) 0

/-- Units of two bytes each, a last lone byte being left out. -/
def pairs (order : ByteOrder) : Bytes → List Nat
  | first :: second :: rest => unitValue order [first, second] :: pairs order rest
  | _ => []

def quads (order : ByteOrder) : Bytes → List Nat
  | first :: second :: third :: fourth :: rest =>
    unitValue order [first, second, third, fourth] :: quads order rest
  | _ => []

def isHighSurrogate (unit : Nat) : Bool := 0xd800 ≤ unit && unit < 0xdc00

def isLowSurrogate (unit : Nat) : Bool := 0xdc00 ≤ unit && unit < 0xe000

/-- The characters of UTF-16 units: a high surrogate must be followed by a low
one, and a low one stands nowhere else. -/
def ofUnits : List Nat → Except Defect (List Char)
  | [] => .ok []
  | [unit] =>
    if isHighSurrogate unit || isLowSurrogate unit then .error (.unpairedSurrogate unit)
    else .ok [Char.ofNat unit]
  | unit :: next :: rest =>
    if isLowSurrogate unit then .error (.unpairedSurrogate unit)
    else if isHighSurrogate unit then
      if isLowSurrogate next then
        let code := 0x10000 + (unit - 0xd800) * 0x400 + (next - 0xdc00)
        (ofUnits rest).map (Char.ofNat code :: ·)
      else .error (.unpairedSurrogate unit)
    else (ofUnits (next :: rest)).map (Char.ofNat unit :: ·)

def ofCodePoints : List Nat → Except Defect (List Char)
  | [] => .ok []
  | code :: rest =>
    if code.isValidChar then (ofCodePoints rest).map (Char.ofNat code :: ·)
    else .error (.invalidCodePoint code)

def decode (encoding : Encoding) (bytes : Bytes) : Except Defect (List Char) :=
  match encoding with
  | .utf8 => (Utf8.decode bytes).mapError .utf8
  | .utf16 order =>
    if bytes.length % 2 = 0 then ofUnits (pairs order bytes) else .error (.truncated 16)
  | .utf32 order =>
    if bytes.length % 4 = 0 then ofCodePoints (quads order bytes)
    else .error (.truncated 32)

end Encoding

/-- Bytes as reports show them: printable ASCII as it is, a quote and a backslash
after a backslash, all other bytes in hexadecimal. -/
def bytesLiteral (bytes : Bytes) : String :=
  let shown (byte : UInt8) : String :=
    if byte = 0x5c then "\\\\"
    else if byte = 0x27 then "\\'"
    else if 0x20 ≤ byte ∧ byte ≤ 0x7e then (Char.ofNat byte.toNat).toString
    else "\\x" ++ Number.hexadecimalByte byte
  "b'" ++ String.join (bytes.map shown) ++ "'"

end TimedText.Text
