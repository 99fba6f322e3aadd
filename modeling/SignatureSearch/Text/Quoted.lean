import SignatureSearch.Text.Unprintable

/-! Quoted text. A text in quotes shows each of its characters: quotes and backslashes stand behind
a backslash, and characters that do not show by themselves are written by name or by number. -/

namespace SignatureSearch

namespace Quoted

def number (c : Char) : List Char :=
  ['\x5c', 'u', '{'] ++ Nat.toDigits 16 c.toNat ++ ['}']

def escape (c : Char) : List Char :=
  if c = '\x22' ∨ c = '\x5c' then ['\x5c', c]
  else if c = '\n' then ['\x5c', 'n']
  else if c = '\r' then ['\x5c', 'r']
  else if c = '\t' then ['\x5c', 't']
  else if c.toNat = 0 then ['\x5c', '0']
  else if Unprintable.contains c then number c
  else [c]

def encode (text : String) : String :=
  String.ofList ('\x22' :: (text.toList.flatMap escape ++ ['\x22']))

end Quoted

end SignatureSearch
