/-! Counts of 64 bits as texts: digits with an optional plus sign. Numbers of ports are counts of
16 bits. -/

namespace SignatureSearch

namespace Count

def digitsValue (digits : List Char) : Nat :=
  digits.foldl (fun value digit => value * 10 + (digit.toNat - 48)) 0

def ofDigits? (digits : List Char) : Option Nat :=
  if digits.isEmpty || !digits.all Char.isDigit then none else some (digitsValue digits)

def parse? (text : String) : Option Nat :=
  (match text.toList with
    | '+' :: digits => ofDigits? digits
    | digits => ofDigits? digits).filter (· < 1 <<< 64)

/-- Reads the number of a port, which has 16 bits. It may have either sign, but only zero is a
number with a minus. -/
def parsePort? (text : String) : Option Nat :=
  match text.toList with
  | '-' :: digits => (ofDigits? digits).filter (· = 0)
  | '+' :: digits => (ofDigits? digits).filter (· < 1 <<< 16)
  | digits => (ofDigits? digits).filter (· < 1 <<< 16)

end Count

end SignatureSearch
