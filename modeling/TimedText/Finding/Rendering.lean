import TimedText.Finding.Log
import TimedText.Number.Digits
/-!
The three written forms of a log: lines of plain text, comma-separated values
with a header, and a JSON array of objects.
-/

namespace TimedText

inductive Format where
  | plain
  | commaSeparated
  | json
deriving DecidableEq, Repr

namespace Format

def name : Format → String
  | .plain => "plain"
  | .commaSeparated => "csv"
  | .json => "json"

def ofName? (name : String) : Option Format :=
  [plain, commaSeparated, json].find? fun format => format.name == name

end Format

namespace Log

def plainText (log : Log) : String :=
  String.join (log.map fun finding => finding.line ++ "\n")

/-! ## Comma-separated values -/

def needsQuotes (character : Char) : Bool :=
  character == ',' || character == '"' || character == '\n' || character == '\r'

def doubleQuotes : List Char → List Char
  | [] => []
  | '"' :: rest => '"' :: '"' :: doubleQuotes rest
  | character :: rest => character :: doubleQuotes rest

/-- A field: in quotes if it has a character that needs them, else as it is. -/
def field (text : List Char) : List Char :=
  if text.any needsQuotes then '"' :: doubleQuotes text ++ ['"'] else text

def joined : List (List Char) → List Char
  | [] => []
  | [last] => last
  | first :: rest => first ++ ',' :: joined rest

/-- A record: its fields, and a carriage return and line feed after them. -/
def record (fields : List String) : List Char :=
  joined (fields.map fun text => field text.toList) ++ ['\r', '\n']

def header : List String := ["status", "code", "location", "message"]

def fields (finding : Finding) : List String :=
  [finding.status.label, finding.code.name, finding.location, finding.message]

def commaSeparated (log : Log) : String :=
  String.ofList ((header :: log.map fields).flatMap record)

/-! ## JSON -/

def jsonCharacter (character : Char) : String :=
  match character with
  | '"' => "\\\""
  | '\x5c' => "\\\\"
  | '\n' => "\\n"
  | '\r' => "\\r"
  | '\t' => "\\t"
  | '\x08' => "\\b"
  | '\x0c' => "\\f"
  | _ =>
    if character.toNat < 0x20 then
      "\\u00" ++ Number.zeroFilled 2 (Number.hexadecimal character.toNat)
    else character.toString

def jsonString (text : String) : String :=
  "\"" ++ String.join (text.toList.map jsonCharacter) ++ "\""

def jsonObject (finding : Finding) : String :=
  "\x7b\"status\":" ++ toString finding.status.number
    ++ ",\"location\":" ++ jsonString finding.location
    ++ ",\"message\":" ++ jsonString finding.message
    ++ ",\"code\":" ++ jsonString finding.code.name ++ "\x7d"

def json (log : Log) : String :=
  "[" ++ ",".intercalate (log.map jsonObject) ++ "]"

def render (log : Log) : Format → String
  | .plain => log.plainText
  | .commaSeparated => log.commaSeparated
  | .json => log.json

end Log

end TimedText
