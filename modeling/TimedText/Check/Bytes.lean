import TimedText.Attempt
import TimedText.Markup.Document
import TimedText.Text.Encoding
import TimedText.Text.Printable
/-!
The checks of bytes before they are read as markup. Each of them mends what it
can, so that the checks after it see the best there is, and counts the need to
mend against the document.
-/

namespace TimedText.Check

open Text

inductive ByteCheck where
  | byteOrderMark
  | encoding
  | nullBytes
  | markup
deriving DecidableEq, Repr

namespace ByteCheck

def all : List ByteCheck := [.byteOrderMark, .encoding, .nullBytes, .markup]

def name : ByteCheck → String
  | .byteOrderMark => "ByteOrderMarkCheck"
  | .encoding => "BadEncodingCheck"
  | .nullBytes => "NullByteCheck"
  | .markup => "XmlStructureCheck"

def ofName? (name : String) : Option ByteCheck :=
  all.find? fun check => check.name == name

end ByteCheck

/-- What a check makes of bytes: whether they are as they should be, and the
bytes that go on. -/
abbrev Mended := Bool × Bytes

private def goOn (verdict : Verdict) (bytes : Bytes) : Attempt Mended :=
  ⟨.ok (verdict.valid, bytes), verdict.findings⟩

/-! ## Null bytes -/

def checkNullBytes (bytes : Bytes) : Attempt Mended :=
  match bytes.findIdx? (· == 0) with
  | some first =>
    goOn
      (.against (.fail .preParseNullBytes s!"1st at byte {first}"
        "Null byte(s) found in input"))
      (bytes.filter (· != 0))
  | none =>
    goOn (.remark (.pass .preParseNullBytes "Unparsed file" "No null bytes found"))
      bytes

/-! ## Encoding -/

/-- Bytes that some accented letters and quotation marks become when their UTF-8
bytes are taken for Latin-1 and written as UTF-8 once more. -/
def sirens : List Bytes := [
  [0xc3, 0xa2, 0xc2, 0x80, 0xc2, 0x98], [0xc3, 0xa2, 0xc2, 0x80, 0xc2, 0x99],
  [0xc3, 0x83, 0xc2, 0xb8], [0xc3, 0x83, 0xc2, 0xa0], [0xc3, 0x83, 0xc2, 0xb9],
  [0xc3, 0x83, 0xc2, 0xa8], [0xc3, 0x83, 0xc2, 0xac], [0xc3, 0x83, 0xc2, 0xb2]]

def occursIn (run : Bytes) : Bytes → Bool
  | [] => run.isEmpty
  | first :: rest => run.isPrefixOf (first :: rest) || occursIn run rest

def latin1Byte (character : Char) : Except Fault UInt8 :=
  if character.toNat < 256 then .ok (UInt8.ofNat character.toNat)
  else
    .error (.undecodable
      s!"character {quotedCharacter character} cannot be encoded as latin-1")

def toLatin1 (bytes : Bytes) : Except Fault Bytes :=
  match Utf8.decode bytes with
  | .ok characters => characters.mapM latin1Byte
  | .error defect => .error (.undecodable defect.message)

def fromLatin1 (bytes : Bytes) : Bytes :=
  Utf8.encode (bytes.map fun byte => Char.ofNat byte.toNat)

/-- Undoes an encoding that was applied twice, and takes what is not UTF-8 for
Latin-1. -/
def checkEncoding (bytes : Bytes) : Attempt Mended :=
  if sirens.any fun siren => occursIn siren bytes then do
    Attempt.note [.fail .preParseEncoding "Unparsed file"
      "Bad latin-1 encoding found, re-encoding as UTF-8"]
    let mended ← Attempt.ofExcept (toLatin1 bytes)
    return (false, mended)
  else
    match Utf8.decode bytes with
    | .error _ =>
      goOn
        (.against (.fail .preParseEncoding "Unparsed file"
          ("Input is not valid UTF-8, decoding as ISO-8859-1 "
            ++ "and re-encoding as UTF-8")))
        (fromLatin1 bytes)
    | .ok _ =>
      goOn
        (.remark (.pass .preParseEncoding "Unparsed file"
          "No bad encoding sirens found"))
        bytes

/-! ## Byte order marks -/

/-- What some programs make of the byte order mark of UTF-8. -/
def corruptMark : Bytes := [0xc3, 0xaf, 0xc2, 0xbb, 0xc2, 0xbf]

private def markMessage (kind : String) (mark : Bytes) (remedy : String) : String :=
  s!"File has a {kind} Byte Order Mark (BOM): {bytesLiteral mark} - {remedy}"

def checkByteOrderMark (bytes : Bytes) : Attempt Mended :=
  let location (mark : Bytes) : String := s!"First {mark.length} bytes"
  match Encoding.detect? bytes with
  | some .utf8 =>
    let mark := Encoding.utf8.byteOrderMark
    goOn
      (.against (.fail .preParseByteOrderMark (location mark)
        (markMessage "prohibited" mark "stripping UTF-8 BOM and continuing.")))
      (bytes.drop mark.length)
  | some encoding => do
    let mark := encoding.byteOrderMark
    Attempt.note [.fail .preParseByteOrderMark (location mark)
      (markMessage "prohibited" mark
        s!"attempting to re-encode using codec {encoding.name}")]
    match encoding.decode (bytes.drop mark.length) with
    | .ok characters => return (false, Utf8.encode characters)
    | .error defect => Attempt.stop (.undecodable defect.message)
  | none =>
    if corruptMark.isPrefixOf bytes then
      goOn
        (.against (.fail .preParseByteOrderMarkCorrupt (location corruptMark)
          (markMessage "corrupt" corruptMark "removing and hoping for the best.")))
        (bytes.drop corruptMark.length)
    else
      goOn
        (.remark (.pass .preParseByteOrderMark "Unparsed file"
          "No Byte Order Mark (BOM) found"))
        bytes

/-! ## Structure -/

def checkDeclaration : Option Markup.Declaration → Verdict
  | none =>
    .remark (.warn .xmlEncodingDecl "XML prolog"
      "No XML Prolog present, assuming XML document with UTF-8 encoding")
  | some ⟨_, none⟩ =>
    .remark (.warn .xmlEncodingDecl "XML prolog"
      "XML Prolog found with no encoding declaration, assuming UTF-8")
  | some ⟨_, some encoding⟩ =>
    if encoding.toList.map Char.toUpper = "UTF-8".toList then
      .remark (.pass .xmlEncodingDecl "XML prolog"
        "XML Prolog declares UTF-8 encoding")
    else
      .against (.fail .xmlEncodingDecl "XML prolog"
        s!"Non-UTF-8 encoding declaration: {encoding}, UTF-8 required")

def checkEntities (entities : List String) : Verdict :=
  if entities.isEmpty then
    .remark (.pass .xmlEntityDecl "XML Document Type"
      "No XML Entity declarations found")
  else
    .against (.fail .xmlEntityDecl "XML Document Type"
      "XML Entity declaration found - these are not permitted")

def checkStructure (bytes : Bytes) : Attempt Mended :=
  let text := String.ofList (Utf8.decodeLossy bytes)
  let wellFormed : Verdict :=
    match Markup.Document.read text with
    | .ok _ => .silent
    | .error error =>
      .against (.fail .xmlDocumentValidity
        s!"XML Document line {error.line} position {error.column}"
        error.flaw.message)
  let prolog := Markup.Prolog.scan text
  goOn (wellFormed ++ checkDeclaration prolog.declaration
    ++ checkEntities prolog.entities) bytes

def ByteCheck.run : ByteCheck → Bytes → Attempt Mended
  | .byteOrderMark => checkByteOrderMark
  | .encoding => checkEncoding
  | .nullBytes => checkNullBytes
  | .markup => checkStructure

end TimedText.Check
