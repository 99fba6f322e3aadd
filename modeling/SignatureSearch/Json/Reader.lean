import SignatureSearch.Json.Basic
import SignatureSearch.Number.Count
import SignatureSearch.Number.Decimal

/-! Reading JSON text. The reader accepts strict JSON with at most `nestingLimit` nested containers;
`readStream?` takes a whole sequence of values. -/

namespace SignatureSearch

namespace Json

def nestingLimit : Nat := 127

def isBlank (c : Char) : Bool := c == ' ' || c == '\n' || c == '\t' || c == '\r'

def skipBlanks (cs : List Char) : List Char := cs.dropWhile isBlank

def hexValue? (c : Char) : Option Nat :=
  if '0' ≤ c ∧ c ≤ '9' then some (c.toNat - 48)
  else if 'a' ≤ c ∧ c ≤ 'f' then some (c.toNat - 87)
  else if 'A' ≤ c ∧ c ≤ 'F' then some (c.toNat - 55)
  else none

/-- The number that four hexadecimal digits stand for. -/
def unit? (a b c d : Char) : Option Nat := do
  let a ← hexValue? a
  let b ← hexValue? b
  let c ← hexValue? c
  let d ← hexValue? d
  return ((a * 16 + b) * 16 + c) * 16 + d

def isHighSurrogate (n : Nat) : Bool := 0xD800 ≤ n && n < 0xDC00

def isLowSurrogate (n : Nat) : Bool := 0xDC00 ≤ n && n < 0xE000

def joinSurrogates (high low : Nat) : Char :=
  Char.ofNat (0x10000 + (high - 0xD800) * 1024 + (low - 0xDC00))

def simpleEscape? (c : Char) : Option Char :=
  if c = '\x22' ∨ c = '\x5c' ∨ c = '/' then some c
  else if c = 'b' then some '\x08'
  else if c = 'f' then some '\x0c'
  else if c = 'n' then some '\n'
  else if c = 'r' then some '\r'
  else if c = 't' then some '\t'
  else none

def consChar (c : Char) : Option (List Char × List Char) → Option (List Char × List Char)
  | some (text, rest) => some (c :: text, rest)
  | none => none

/-- A text after its opening quote, and what follows the closing one. Raw control characters and
surrogates without their partner are refused. -/
def readStringBody : List Char → Option (List Char × List Char)
  | [] => none
  | c :: cs =>
    if c = '\x22' then some ([], cs)
    else if c = '\x5c' then
      match cs with
      | [] => none
      | kind :: rest =>
        if kind = 'u' then
          match rest with
          | a :: b :: c :: d :: rest =>
            match unit? a b c d with
            | none => none
            | some n =>
              if isLowSurrogate n then none
              else if isHighSurrogate n then
                match rest with
                | slash :: kind :: a :: b :: c :: d :: rest =>
                  if slash = '\x5c' ∧ kind = 'u' then
                    match unit? a b c d with
                    | none => none
                    | some m =>
                      if isLowSurrogate m then consChar (joinSurrogates n m) (readStringBody rest)
                      else none
                  else none
                | _ => none
              else consChar (Char.ofNat n) (readStringBody rest)
          | _ => none
        else
          match simpleEscape? kind with
          | none => none
          | some e => consChar e (readStringBody rest)
    else if c.toNat < 32 then none
    else consChar c (readStringBody cs)

def appendDigit (significand : Nat) (digit : Char) : Nat := significand * 10 + (digit.toNat - 48)

/-- Reads digits before the point while they fit in 64 bits, and counts those left over. -/
def wholeDigits : Nat → List Char → Nat × Nat
  | significand, [] => (significand, 0)
  | significand, c :: cs =>
    if appendDigit significand c < 1 <<< 64 then wholeDigits (appendDigit significand c) cs
    else (significand, (c :: cs).length)

/-- Reads digits after the point while they fit in 64 bits, and counts those read. -/
def fractionDigits : Nat → Nat → List Char → Nat × Nat
  | significand, count, [] => (significand, count)
  | significand, count, c :: cs =>
    if appendDigit significand c < 1 <<< 64 then
      fractionDigits (appendDigit significand c) (count + 1) cs
    else (significand, count)

def spanDigits (cs : List Char) : List Char × List Char :=
  (cs.takeWhile Char.isDigit, cs.dropWhile Char.isDigit)

/-- The digits after a point, if there is one: `none` if no digit follows it. -/
def readFraction (cs : List Char) : Option (Option (List Char) × List Char) :=
  match cs with
  | '.' :: rest =>
    let (digits, rest) := spanDigits rest
    if digits.isEmpty then none else some (some digits, rest)
  | _ => some (none, cs)

def readExponentDigits (negative : Bool) (cs : List Char) : Option (Option Int × List Char) :=
  let (digits, rest) := spanDigits cs
  if digits.isEmpty then none
  else
    let size : Int := Count.digitsValue digits
    some (some (if negative then -size else size), rest)

/-- The exponent, if there is one: `none` if no digit follows its mark. -/
def readExponent (cs : List Char) : Option (Option Int × List Char) :=
  match cs with
  | [] => some (none, [])
  | mark :: rest =>
    if mark = 'e' ∨ mark = 'E' then
      match rest with
      | '+' :: rest => readExponentDigits false rest
      | '-' :: rest => readExponentDigits true rest
      | _ => readExponentDigits false rest
    else some (none, cs)

/-- A literal without point and exponent: whole if it fits in 64 bits and is not `-0`. -/
def wholeNumber? (negative : Bool) (significand : Nat) : Option Number :=
  if negative ∧ significand = 0 then some (.float (Binary64.zero true))
  else
    match WordInt.ofInt? (if negative then -significand else significand) with
    | some n => some (.integer n)
    | none => (Binary64.ofScaled? negative ⟨significand, 0⟩).map .float

/-- The number of a literal, given by its parts. Digits that do not fit in 64 bits only count towards
the exponent before the point, and not at all after it. -/
def numberOf? (negative : Bool) (digits : List Char) (fraction : Option (List Char))
    (exponent : Option Int) : Option Number :=
  let (significand, dropped) := wholeDigits 0 digits
  if fraction.isNone && exponent.isNone && dropped == 0 then wholeNumber? negative significand
  else
    let (significand, places) := fractionDigits significand 0 (fraction.getD [])
    (Binary64.ofScaled? negative ⟨significand, dropped - places + exponent.getD 0⟩).map .float

/-- A number literal behind its sign, and what follows it. -/
def readUnsigned (negative : Bool) (cs : List Char) : Option (Number × List Char) :=
  let (digits, cs) := spanDigits cs
  if digits.isEmpty || (digits.length > 1 && digits.head? == some '0') then none
  else
    match readFraction cs with
    | none => none
    | some (fraction, cs) =>
      match readExponent cs with
      | none => none
      | some (exponent, cs) =>
        (numberOf? negative digits fraction exponent).map fun n => (n, cs)

def readNumber (cs : List Char) : Option (Number × List Char) :=
  match cs with
  | '-' :: rest => readUnsigned true rest
  | _ => readUnsigned false cs

mutual

/-- A value and what follows it; `depth` more containers may be opened. -/
def readValue : Nat → Nat → List Char → Option (Json × List Char)
  | 0, _, _ => none
  | fuel + 1, depth, cs =>
    match skipBlanks cs with
    | 'n' :: 'u' :: 'l' :: 'l' :: rest => some (.null, rest)
    | 't' :: 'r' :: 'u' :: 'e' :: rest => some (.bool true, rest)
    | 'f' :: 'a' :: 'l' :: 's' :: 'e' :: rest => some (.bool false, rest)
    | '\x22' :: rest =>
      match readStringBody rest with
      | none => none
      | some (text, rest) => some (.string (String.ofList text), rest)
    | '[' :: rest =>
      match depth with
      | 0 => none
      | depth + 1 =>
        match skipBlanks rest with
        | ']' :: rest => some (.array [], rest)
        | rest =>
          match readItems fuel depth rest with
          | none => none
          | some (items, rest) => some (.array items, rest)
    | '{' :: rest =>
      match depth with
      | 0 => none
      | depth + 1 =>
        match skipBlanks rest with
        | '}' :: rest => some (.object [], rest)
        | rest =>
          match readFields fuel depth rest with
          | none => none
          | some (fields, rest) => some (ofFields fields, rest)
    | rest =>
      match readNumber rest with
      | none => none
      | some (n, rest) => some (.number n, rest)

def readItems : Nat → Nat → List Char → Option (List Json × List Char)
  | 0, _, _ => none
  | fuel + 1, depth, cs =>
    match readValue fuel depth cs with
    | none => none
    | some (item, rest) =>
      match skipBlanks rest with
      | ',' :: rest =>
        match readItems fuel depth rest with
        | none => none
        | some (items, rest) => some (item :: items, rest)
      | ']' :: rest => some ([item], rest)
      | _ => none

/-- The fields of an object up to its closing brace, in the order of the text. -/
def readFields : Nat → Nat → List Char → Option (List (String × Json) × List Char)
  | 0, _, _ => none
  | fuel + 1, depth, cs =>
    match skipBlanks cs with
    | '\x22' :: rest =>
      match readStringBody rest with
      | none => none
      | some (name, rest) =>
        match skipBlanks rest with
        | ':' :: rest =>
          match readValue fuel depth rest with
          | none => none
          | some (value, rest) =>
            match skipBlanks rest with
            | ',' :: rest =>
              match readFields fuel depth rest with
              | none => none
              | some (fields, rest) => some ((String.ofList name, value) :: fields, rest)
            | '}' :: rest => some ([(String.ofList name, value)], rest)
            | _ => none
        | _ => none
    | _ => none

end

/-- Steps that suffice to read a text: each character opens at most two calls. -/
def enoughFuel (cs : List Char) : Nat := 2 * cs.length + 2

/-- The first value of a text and what follows it. -/
def readFirst (cs : List Char) : Option (Json × List Char) :=
  readValue (enoughFuel cs) nestingLimit cs

/-- The value of a text that holds nothing else. -/
def read? (text : String) : Option Json :=
  match readFirst text.toList with
  | some (v, rest) => if (skipBlanks rest).isEmpty then some v else none
  | none => none

/-- Whether a value that starts with `first` ends on its own. -/
def isSelfDelimiting (first : Char) : Bool := first == '[' || first == '{' || first == '\x22'

/-- What may follow a number, a truth value or null in a stream. -/
def endsScalar : List Char → Bool
  | [] => true
  | c :: _ => isBlank c || ['\x22', '[', ']', '{', '}', ',', ':'].contains c

def readValues : Nat → List Char → Option (List Json)
  | 0, _ => none
  | fuel + 1, cs =>
    match skipBlanks cs with
    | [] => some []
    | first :: rest =>
      match readFirst (first :: rest) with
      | none => none
      | some (v, after) =>
        if isSelfDelimiting first || endsScalar after then
          match readValues fuel after with
          | none => none
          | some vs => some (v :: vs)
        else none

/-- All values of a text; `none` if any of them is malformed. -/
def readStream? (text : String) : Option (List Json) :=
  readValues (text.toList.length + 1) text.toList

end Json

end SignatureSearch
