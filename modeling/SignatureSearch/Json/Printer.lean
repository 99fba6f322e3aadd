import SignatureSearch.Json.Basic
import SignatureSearch.Number.Decimal

/-! JSON text. `write` prints without blanks and `writePretty` with two blanks per level; both put
their text in front of what follows, so that a reader can be run on the result. -/

namespace SignatureSearch

namespace Json

def hexDigit (n : Nat) : Char :=
  if n < 10 then Char.ofNat (48 + n) else Char.ofNat (87 + n)

/-- A character inside quotes. Only quotes, backslashes and the 32 control characters below the
blank are written as escapes. -/
def escape (c : Char) : List Char :=
  if c = '\x22' then ['\x5c', '\x22']
  else if c = '\x5c' then ['\x5c', '\x5c']
  else if c = '\x08' then ['\x5c', 'b']
  else if c = '\x0c' then ['\x5c', 'f']
  else if c = '\n' then ['\x5c', 'n']
  else if c = '\r' then ['\x5c', 'r']
  else if c = '\t' then ['\x5c', 't']
  else if c.toNat < 32 then
    ['\x5c', 'u', '0', '0', hexDigit (c.toNat / 16), hexDigit (c.toNat % 16)]
  else [c]

def writeString (s : String) (rest : List Char) : List Char :=
  '\x22' :: (s.toList.flatMap escape ++ '\x22' :: rest)

def numberChars : Number → List Char
  | .integer n => (toString n.value).toList
  | .float x => x.chars

mutual

/-- A value without blanks, in front of what follows. -/
def write : Json → List Char → List Char
  | .null, rest => 'n' :: 'u' :: 'l' :: 'l' :: rest
  | .bool true, rest => 't' :: 'r' :: 'u' :: 'e' :: rest
  | .bool false, rest => 'f' :: 'a' :: 'l' :: 's' :: 'e' :: rest
  | .number n, rest => numberChars n ++ rest
  | .string s, rest => writeString s rest
  | .array [], rest => '[' :: ']' :: rest
  | .array (item :: items), rest => '[' :: write item (writeItems items rest)
  | .object [], rest => '{' :: '}' :: rest
  | .object ((name, value) :: fields), rest =>
    '{' :: writeString name (':' :: write value (writeFields fields rest))

/-- The items after the first, and the closing bracket. -/
def writeItems : List Json → List Char → List Char
  | [], rest => ']' :: rest
  | item :: items, rest => ',' :: write item (writeItems items rest)

def writeFields : List (String × Json) → List Char → List Char
  | [], rest => '}' :: rest
  | (name, value) :: fields, rest =>
    ',' :: writeString name (':' :: write value (writeFields fields rest))

end

def text (v : Json) : String := String.ofList (v.write [])

def newLine (level : Nat) (rest : List Char) : List Char :=
  '\n' :: (List.replicate (2 * level) ' ' ++ rest)

mutual

/-- A value spread over lines, in front of what follows; empty containers stay on one line. -/
def writePretty (level : Nat) : Json → List Char → List Char
  | .array [], rest => '[' :: ']' :: rest
  | .array (item :: items), rest =>
    '[' :: newLine (level + 1) (writePretty (level + 1) item (writePrettyItems level items rest))
  | .object [], rest => '{' :: '}' :: rest
  | .object ((name, value) :: fields), rest =>
    '{' :: newLine (level + 1) (writeString name
      (':' :: ' ' :: writePretty (level + 1) value (writePrettyFields level fields rest)))
  | v, rest => v.write rest

def writePrettyItems (level : Nat) : List Json → List Char → List Char
  | [], rest => newLine level (']' :: rest)
  | item :: items, rest =>
    ',' :: newLine (level + 1) (writePretty (level + 1) item (writePrettyItems level items rest))

def writePrettyFields (level : Nat) : List (String × Json) → List Char → List Char
  | [], rest => newLine level ('}' :: rest)
  | (name, value) :: fields, rest =>
    ',' :: newLine (level + 1) (writeString name
      (':' :: ' ' :: writePretty (level + 1) value (writePrettyFields level fields rest)))

end

def prettyText (v : Json) : String := String.ofList (v.writePretty 0 [])

end Json

end SignatureSearch
