import SignatureSearch.Json.Basic

/-! The order of index keys: `null < false < true < numbers < strings < arrays < objects`, with
strings by code point, arrays item by item and objects field by field, a proper beginning first.
`encode` turns a key into bytes whose plain order is this order, so that a range of keys is a range
of byte strings. -/

namespace SignatureSearch

abbrev KeyBytes := List UInt8

namespace Json

/-- The eight bytes of a 64-bit number, the most significant first. -/
def wordBytes (n : Nat) : KeyBytes :=
  [56, 48, 40, 32, 24, 16, 8, 0].map fun shift => UInt8.ofNat (n >>> shift)

/-- A zero byte of a text gets a mark, so that the end of the text is found. -/
def escapeZero (byte : UInt8) : KeyBytes := if byte = 0 then [0, 255] else [byte]

/-- The bytes of a text and its end mark, in front of what follows. -/
def encodeText (s : String) (rest : KeyBytes) : KeyBytes :=
  (s.toList.flatMap String.utf8EncodeChar).flatMap escapeZero ++ 0 :: 1 :: rest

mutual

/-- The bytes of a value, in front of what follows. -/
def encodeInto : Json → KeyBytes → KeyBytes
  | .null, rest => 1 :: rest
  | .bool false, rest => 2 :: rest
  | .bool true, rest => 3 :: rest
  | .number n, rest => 4 :: (wordBytes n.toBinary64.orderedBits ++ rest)
  | .string s, rest => 5 :: encodeText s rest
  | .array items, rest => 6 :: encodeItems items (0 :: rest)
  | .object fields, rest => 7 :: encodeFields fields (0 :: rest)

def encodeItems : List Json → KeyBytes → KeyBytes
  | [], rest => rest
  | item :: items, rest => encodeInto item (encodeItems items rest)

def encodeFields : List (String × Json) → KeyBytes → KeyBytes
  | [], rest => rest
  | (name, value) :: fields, rest =>
    5 :: encodeText name (encodeInto value (encodeFields fields rest))

end

def encode (key : Json) : KeyBytes := encodeInto key []

def collate (a b : Json) : Ordering := compare (encode a) (encode b)

/-- `a` does not stand above `b`. -/
def collatesUpTo (a b : Json) : Bool := collate a b != .gt

end Json

/-- The character that ends the upper bound of a range of names. -/
def highSuffix : Char := '\ufff0'

def lowSentinel : Json := .null

/-- A key above every text and array, and above every object whose first field name is below
`highSuffix`. -/
def highSentinel : Json := .object [(String.ofList [highSuffix], .string "")]

/-- The upper bound of the texts that begin with `start`. -/
def upperBound (start : String) : String := start.push highSuffix

end SignatureSearch
