import SignatureSearch.Toml.Document

/-! Reading TOML 1.0. Texts other than keys, dates and fractions are checked but not kept: settings
hold whole numbers only. -/

namespace SignatureSearch

namespace Toml

def isSpace (c : Char) : Bool := c == ' ' || c == '\t'

def skipSpaces (cs : List Char) : List Char := cs.dropWhile isSpace

/-- A character of a comment or of a text: no control character but the tab. -/
def isPrintable (c : Char) : Bool := c == '\t' || (32 ≤ c.toNat && c.toNat != 127)

def afterLineEnd : List Char → Option (List Char)
  | '\n' :: rest => some rest
  | '\r' :: '\n' :: rest => some rest
  | _ => none

def afterLine (cs : List Char) : Option (List Char) :=
  if cs.isEmpty then some [] else afterLineEnd cs

def skipComment : List Char → List Char
  | '#' :: rest => rest.dropWhile isPrintable
  | cs => cs

def finishLine (cs : List Char) : Option (List Char) := afterLine (skipComment (skipSpaces cs))

/-- Skips spaces, line ends and comments; `inComment` tells whether a comment has begun. -/
def skipGap : Bool → List Char → Option (List Char)
  | false, [] => some []
  | true, [] => none
  | false, c :: cs =>
    if isSpace c || c == '\n' then skipGap false cs
    else if c == '\r' then if cs.head? == some '\n' then skipGap false cs else none
    else if c == '#' then skipGap true cs
    else some (c :: cs)
  | true, c :: cs =>
    if c == '\n' then skipGap false cs
    else if c == '\r' then if cs.head? == some '\n' then skipGap false cs else none
    else if isPrintable c then skipGap true cs
    else none

def hexValue? (c : Char) : Option Nat :=
  if '0' ≤ c ∧ c ≤ '9' then some (c.toNat - 48)
  else if 'a' ≤ c ∧ c ≤ 'f' then some (c.toNat - 87)
  else if 'A' ≤ c ∧ c ≤ 'F' then some (c.toNat - 55)
  else none

/-- The character of a numbered escape, unless the number is a surrogate or too large. -/
def numberedChar? (digits : List Char) : Option Char := do
  let values ← digits.mapM hexValue?
  let n := values.foldl (fun n d => n * 16 + d) 0
  if n < 0xD800 ∨ (0xE000 ≤ n ∧ n < 0x110000) then some (Char.ofNat n) else none

def simpleEscape? (c : Char) : Option Char :=
  if c = 'b' then some '\x08'
  else if c = 't' then some '\t'
  else if c = 'n' then some '\n'
  else if c = 'f' then some '\x0c'
  else if c = 'r' then some '\r'
  else if c = '\x22' then some '\x22'
  else if c = '\x5c' then some '\x5c'
  else none

def consChar (c : Char) (r : Option (List Char × List Char)) : Option (List Char × List Char) :=
  r.map fun (text, rest) => (c :: text, rest)

def readQuoted : List Char → Option (List Char × List Char)
  | [] => none
  | c :: cs =>
    if c = '\x22' then some ([], cs)
    else if c = '\x5c' then
      match cs with
      | 'u' :: a :: b :: c :: d :: rest =>
        match numberedChar? [a, b, c, d] with
        | some e => consChar e (readQuoted rest)
        | none => none
      | 'U' :: a :: b :: c :: d :: e :: f :: g :: h :: rest =>
        match numberedChar? [a, b, c, d, e, f, g, h] with
        | some e => consChar e (readQuoted rest)
        | none => none
      | kind :: rest =>
        match simpleEscape? kind with
        | some e => consChar e (readQuoted rest)
        | none => none
      | [] => none
    else if isPrintable c then consChar c (readQuoted cs)
    else none

def readLiteral : List Char → Option (List Char × List Char)
  | [] => none
  | c :: cs =>
    if c = '\x27' then some ([], cs)
    else if isPrintable c then consChar c (readLiteral cs)
    else none

/-- What follows the three closing quotes of a text of several lines, which may end in two quotes
more. -/
def afterClosing (quote : Char) (cs : List Char) : Option (List Char) :=
  let run := cs.takeWhile (· == quote)
  if 3 ≤ run.length then some (cs.drop (min run.length 5)) else none

/-- Skips a text of several lines in single quotes. -/
def skipLiteralLines : List Char → Option (List Char)
  | [] => none
  | c :: cs =>
    match afterClosing '\x27' (c :: cs) with
    | some rest => some rest
    | none =>
      if c == '\r' then if cs.head? == some '\n' then skipLiteralLines cs else none
      else if c == '\n' || isPrintable c then skipLiteralLines cs
      else none

def skipQuotedLines : List Char → Option (List Char)
  | [] => none
  | c :: cs =>
    match afterClosing '\x22' (c :: cs) with
    | some rest => some rest
    | none =>
      if c = '\x5c' then
        match cs with
        | 'u' :: a :: b :: c :: d :: rest =>
          if (numberedChar? [a, b, c, d]).isSome then skipQuotedLines rest else none
        | 'U' :: a :: b :: c :: d :: e :: f :: g :: h :: rest =>
          if (numberedChar? [a, b, c, d, e, f, g, h]).isSome then skipQuotedLines rest else none
        | kind :: rest =>
          if (simpleEscape? kind).isSome then skipQuotedLines rest
          else if (afterLineEnd (skipSpaces (kind :: rest))).isSome then
            skipQuotedLines (kind :: rest)
          else none
        | [] => none
      else if c == '\r' then if cs.head? == some '\n' then skipQuotedLines cs else none
      else if c == '\n' || isPrintable c then skipQuotedLines cs
      else none

def isBareKeyChar (c : Char) : Bool := c.isAlphanum || c == '_' || c == '-'

def readKeyPart (cs : List Char) : Option (String × List Char) :=
  match cs with
  | '\x22' :: rest => (readQuoted rest).map fun (text, rest) => (String.ofList text, rest)
  | '\x27' :: rest => (readLiteral rest).map fun (text, rest) => (String.ofList text, rest)
  | cs =>
    let part := cs.takeWhile isBareKeyChar
    if part.isEmpty then none else some (String.ofList part, cs.dropWhile isBareKeyChar)

/-- How deep values and keys may be nested. -/
def nestingLimit : Nat := 80

def readKeyParts : Nat → List Char → Option (List String × List Char)
  | 0, _ => none
  | fuel + 1, cs =>
    match readKeyPart (skipSpaces cs) with
    | none => none
    | some (part, rest) =>
      match skipSpaces rest with
      | '.' :: rest => (readKeyParts fuel rest).map fun (parts, rest) => (part :: parts, rest)
      | rest => some ([part], rest)

def readKey (cs : List Char) : Option (List String × List Char) :=
  readKeyParts (nestingLimit - 1) cs

/-- Digits with single underscores between them. -/
def readDigitsAfter (isDigit : Char → Bool) : Bool → List Char → Option (List Char × List Char)
  | afterDigit, [] => if afterDigit then some ([], []) else none
  | afterDigit, c :: cs =>
    if isDigit c then consChar c (readDigitsAfter isDigit true cs)
    else if afterDigit then
      if c = '_' then readDigitsAfter isDigit false cs else some ([], c :: cs)
    else none

def readDigits (isDigit : Char → Bool) (cs : List Char) : Option (List Char × List Char) :=
  readDigitsAfter isDigit false cs

def digitsValue (base : Nat) (digits : List Char) : Nat :=
  digits.foldl (fun n d => n * base + (hexValue? d).getD 0) 0

/-- A whole number, if it fits in 64 bits with a sign. -/
def integer? (n : Int) : Option Node :=
  if -(1 <<< 63 : Nat) ≤ n ∧ n < (1 <<< 63 : Nat) then some (.integer n) else none

def readBased (base : Nat) (cs : List Char) : Option (Node × List Char) := do
  let (digits, rest) ← readDigits (fun c => decide ((hexValue? c).getD 16 < base)) cs
  let n ← integer? (digitsValue base digits)
  return (n, rest)

/-- Whether `digits * 10 ^ exponent` is beyond the finite binary64 numbers. -/
def exceedsBinary64 (digits : Nat) (exponent : Int) : Bool :=
  let bound := (1 <<< 1024) - (1 <<< 970)
  let size : Int := (Nat.toDigits 10 digits).length + exponent
  if digits = 0 ∨ size < 300 then false
  else if 320 < size then true
  else
    match exponent with
    | .ofNat e => decide (bound ≤ digits * Nat.pow 10 e)
    | .negSucc e => decide (bound * Nat.pow 10 (e + 1) ≤ digits)

def readFraction (cs : List Char) : Option (Option (List Char) × List Char) :=
  match cs with
  | '.' :: rest => (readDigits Char.isDigit rest).map fun (digits, rest) => (some digits, rest)
  | _ => some (none, cs)

def readExponent (cs : List Char) : Option (Option Int × List Char) :=
  match cs with
  | [] => some (none, [])
  | mark :: rest =>
    if mark = 'e' ∨ mark = 'E' then
      let (negative, rest) := match rest with
        | '+' :: rest => (false, rest)
        | '-' :: rest => (true, rest)
        | _ => (false, rest)
      (readDigits Char.isDigit rest).map fun (digits, rest) =>
        let size : Int := digitsValue 10 digits
        (some (if negative then -size else size), rest)
    else some (none, cs)

/-- A number of base ten after its sign. Whole parts have no leading zero. -/
def readDecimal (negative : Bool) (cs : List Char) : Option (Node × List Char) := do
  let (whole, rest) ← match cs with
    | '0' :: rest => some (['0'], rest)
    | cs => readDigits Char.isDigit cs
  let (fraction, rest) ← readFraction rest
  let (exponent, rest) ← readExponent rest
  let size : Int := digitsValue 10 whole
  if fraction.isNone && exponent.isNone then
    let n ← integer? (if negative then -size else size)
    return (n, rest)
  let places := fraction.getD []
  let digits := digitsValue 10 (whole ++ places)
  if !negative && exceedsBinary64 digits (exponent.getD 0 - places.length) then none
  return (.other, rest)

def readSigned (negative : Bool) : List Char → Option (Node × List Char)
  | 'i' :: 'n' :: 'f' :: rest => some (.other, rest)
  | 'n' :: 'a' :: 'n' :: rest => some (.other, rest)
  | cs => readDecimal negative cs

def readFixed (count : Nat) (cs : List Char) : Option (Nat × List Char) :=
  let digits := cs.take count
  if digits.length = count ∧ digits.all Char.isDigit then
    some (digitsValue 10 digits, cs.drop count)
  else none

def expect (c : Char) : List Char → Option (List Char)
  | [] => none
  | first :: rest => if first = c then some rest else none

def daysInMonth (year month : Nat) : Nat :=
  if month = 2 then
    if (year % 4 = 0 ∧ year % 100 ≠ 0) ∨ year % 400 = 0 then 29 else 28
  else if month = 4 ∨ month = 6 ∨ month = 9 ∨ month = 11 then 30
  else 31

def skipTime (cs : List Char) : Option (List Char) := do
  let (hour, rest) ← readFixed 2 cs
  let rest ← expect ':' rest
  let (minute, rest) ← readFixed 2 rest
  let rest ← expect ':' rest
  let (second, rest) ← readFixed 2 rest
  if 23 < hour ∨ 59 < minute ∨ 60 < second then none
  match rest with
  | '.' :: rest =>
    if (rest.takeWhile Char.isDigit).isEmpty then none else some (rest.dropWhile Char.isDigit)
  | rest => some rest

def skipOffset (cs : List Char) : Option (List Char) :=
  match cs with
  | [] => some []
  | sign :: rest =>
    if sign = 'Z' ∨ sign = 'z' then some rest
    else if sign = '+' ∨ sign = '-' then do
      let (hour, rest) ← readFixed 2 rest
      let rest ← expect ':' rest
      let (minute, rest) ← readFixed 2 rest
      if 23 < hour ∨ 59 < minute then none
      return rest
    else some cs

def skipDate (cs : List Char) : Option (List Char) := do
  let (year, rest) ← readFixed 4 cs
  let rest ← expect '-' rest
  let (month, rest) ← readFixed 2 rest
  let rest ← expect '-' rest
  let (day, rest) ← readFixed 2 rest
  if month = 0 ∨ 12 < month ∨ day = 0 ∨ daysInMonth year month < day then none
  match rest with
  | [] => some []
  | mark :: rest =>
    if mark = 'T' ∨ mark = 't' ∨ (mark = ' ' ∧ (rest.head?.map Char.isDigit).getD false) then do
      let rest ← skipTime rest
      skipOffset rest
    else some (mark :: rest)

def beginsDate (cs : List Char) : Bool :=
  (cs.take 4).all Char.isDigit && (cs.drop 4).head? == some '-'

def beginsTime (cs : List Char) : Bool :=
  (cs.take 2).all Char.isDigit && (cs.drop 2).head? == some ':'

def readUnsigned (cs : List Char) : Option (Node × List Char) :=
  if beginsDate cs then (skipDate cs).map fun rest => (.moment, rest)
  else if beginsTime cs then (skipTime cs).map fun rest => (.moment, rest)
  else
    match cs with
    | '0' :: 'x' :: rest => readBased 16 rest
    | '0' :: 'o' :: rest => readBased 8 rest
    | '0' :: 'b' :: rest => readBased 2 rest
    | cs => readDecimal false cs

def readScalar (cs : List Char) : Option (Node × List Char) :=
  match cs with
  | '\x22' :: '\x22' :: '\x22' :: rest => (skipQuotedLines rest).map fun rest => (.other, rest)
  | '\x22' :: rest => (readQuoted rest).map fun (_, rest) => (.other, rest)
  | '\x27' :: '\x27' :: '\x27' :: rest => (skipLiteralLines rest).map fun rest => (.other, rest)
  | '\x27' :: rest => (readLiteral rest).map fun (_, rest) => (.other, rest)
  | 't' :: 'r' :: 'u' :: 'e' :: rest => some (.other, rest)
  | 'f' :: 'a' :: 'l' :: 's' :: 'e' :: rest => some (.other, rest)
  | 'i' :: 'n' :: 'f' :: rest => some (.other, rest)
  | 'n' :: 'a' :: 'n' :: rest => some (.other, rest)
  | '+' :: rest => readSigned false rest
  | '-' :: rest => readSigned true rest
  | c :: rest => if c.isDigit then readUnsigned (c :: rest) else none
  | [] => none

def addUnder (key : List String) (node : Node) (entries : Entries) : Option Entries :=
  match key.getLast? with
  | none => none
  | some last => addValue key.dropLast last node entries

mutual

/-- A value and what follows it; `depth` more levels may be opened. -/
def readNode : Nat → Nat → List Char → Option (Node × List Char)
  | 0, _, _ => none
  | fuel + 1, depth, cs =>
    match cs with
    | '[' :: rest =>
      match depth with
      | 0 => none
      | depth + 1 => (readItems fuel depth rest).map fun (items, rest) => (.array items, rest)
    | '{' :: rest =>
      match depth with
      | 0 => none
      | depth + 1 =>
        match skipSpaces rest with
        | '}' :: rest => some (.table .inline [], rest)
        | rest =>
          (readEntries fuel depth [] rest).map fun (entries, rest) => (.table .inline entries, rest)
    | cs => readScalar cs

/-- The items of an array up to its closing bracket; a comma may follow the last one. -/
def readItems : Nat → Nat → List Char → Option (List Node × List Char)
  | 0, _, _ => none
  | fuel + 1, depth, cs =>
    match skipGap false cs with
    | none => none
    | some (']' :: rest) => some ([], rest)
    | some cs =>
      match readNode fuel depth cs with
      | none => none
      | some (item, rest) =>
        match skipGap false rest with
        | some (',' :: rest) =>
          (readItems fuel depth rest).map fun (items, rest) => (item :: items, rest)
        | some (']' :: rest) => some ([item], rest)
        | _ => none

/-- The entries of a table in braces up to the closing one, added to those before. -/
def readEntries : Nat → Nat → Entries → List Char → Option (Entries × List Char)
  | 0, _, _, _ => none
  | fuel + 1, depth, entries, cs =>
    match readKey cs with
    | some (key, '=' :: rest) =>
      match readNode fuel depth (skipSpaces rest) with
      | none => none
      | some (node, rest) =>
        match addUnder key node entries with
        | none => none
        | some entries =>
          match skipSpaces rest with
          | ',' :: rest => readEntries fuel depth entries rest
          | '}' :: rest => some (entries, rest)
          | _ => none
    | _ => none

end

/-- What has been read of a text: the root table and the path of the table in work. -/
structure Progress where
  root : Entries
  path : List String
  deriving Repr

def readHeader (p : Progress) (cs : List Char) : Option (Progress × List Char) := do
  let (key, rest) ← readKey cs
  let rest ← expect ']' rest
  let root ← addHeader key p.root
  let rest ← finishLine rest
  return (⟨root, key⟩, rest)

def readRepeatedHeader (p : Progress) (cs : List Char) : Option (Progress × List Char) := do
  let (key, rest) ← readKey cs
  let rest ← expect ']' rest
  let rest ← expect ']' rest
  let root ← addElement key p.root
  let rest ← finishLine rest
  return (⟨root, key⟩, rest)

def readEntry (fuel : Nat) (p : Progress) (cs : List Char) : Option (Progress × List Char) := do
  let (key, rest) ← readKey cs
  let rest ← expect '=' rest
  let (node, rest) ← readNode fuel (nestingLimit - 1) (skipSpaces rest)
  let rest ← finishLine rest
  let root ← addBelow p.path (addUnder key node) p.root
  return (⟨root, p.path⟩, rest)

def readLines : Nat → Progress → List Char → Option Entries
  | 0, _, _ => none
  | fuel + 1, p, cs =>
    match skipSpaces cs with
    | [] => some p.root
    | '#' :: rest =>
      match afterLine (skipComment ('#' :: rest)) with
      | none => none
      | some rest => readLines fuel p rest
    | '[' :: '[' :: rest =>
      match readRepeatedHeader p rest with
      | none => none
      | some (p, rest) => readLines fuel p rest
    | '[' :: rest =>
      match readHeader p rest with
      | none => none
      | some (p, rest) => readLines fuel p rest
    | rest =>
      match afterLineEnd rest with
      | some rest => readLines fuel p rest
      | none =>
        match readEntry (2 * rest.length + 2) p rest with
        | none => none
        | some (p, rest) => readLines fuel p rest

/-- The root table of a text; a byte order mark at the beginning is skipped. -/
def read? (text : String) : Option Entries :=
  let cs := match text.toList with
    | '\ufeff' :: rest => rest
    | cs => cs
  readLines (cs.length + 1) ⟨[], []⟩ cs

end Toml

end SignatureSearch
