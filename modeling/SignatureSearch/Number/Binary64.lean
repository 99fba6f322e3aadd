/-! Finite binary64 numbers as a sign and the 63 other bits, with exact rounding in whole-number
arithmetic. Absolute values are counted in units of `2 ^ -1074`, the smallest positive number, so
that every finite number is a whole number of units. -/

namespace SignatureSearch

/-- A finite binary64 number. `magnitude` is the bit pattern without the sign bit, which orders
absolute values. -/
structure Binary64 where
  negative : Bool
  magnitude : Nat
  finite : magnitude < 2047 <<< 52
  deriving DecidableEq, Repr

namespace Binary64

/-- The least bit pattern that is not a finite number. -/
def overflowBound : Nat := 2047 <<< 52

def unitsPerOne : Nat := 1 <<< 1074

/-- The absolute value that a bit pattern stands for, in units. -/
def units (magnitude : Nat) : Nat :=
  if magnitude < 1 <<< 52 then magnitude
  else ((1 <<< 52) + magnitude % (1 <<< 52)) <<< ((magnitude >>> 52) - 1)

/-- The whole number nearest to `n / d`; a half goes to the even neighbour. -/
def roundHalfEven (n d : Nat) : Nat :=
  if 2 * (n % d) < d ∨ (2 * (n % d) = d ∧ n / d % 2 = 0) then n / d else n / d + 1

/-- The bit pattern nearest to `n / d` units. It reaches `overflowBound` when the value is too
large for a finite number. -/
def roundUnits (n d : Nat) : Nat :=
  let scale := Nat.log2 (n / d) - 52
  (scale <<< 52) + roundHalfEven n (d <<< scale)

/-- The bit pattern nearest to a whole number. -/
def ofNat (n : Nat) : Nat := roundUnits (n * unitsPerOne) 1

def mul (a b : Nat) : Nat := roundUnits (units a * units b) unitsPerOne

def div (a b : Nat) : Nat := roundUnits (units a * unitsPerOne) (units b)

def ofMagnitude? (negative : Bool) (magnitude : Nat) : Option Binary64 :=
  if h : magnitude < 2047 <<< 52 then some ⟨negative, magnitude, h⟩ else none

def zero (negative : Bool) : Binary64 := ⟨negative, 0, by decide⟩

/-- The number nearest to a whole number, held at the largest finite number. -/
def ofInt (n : Int) : Binary64 :=
  ⟨decide (n < 0), min (ofNat n.natAbs) ((2047 <<< 52) - 1), by
    have : 0 < 2047 <<< 52 := by decide
    omega⟩

/-- Position in the order of signed bit patterns: below every positive number stand the negative
ones, the largest absolute value first. -/
def orderedBits (x : Binary64) : Nat :=
  if x.negative then (1 <<< 63) - 1 - x.magnitude else (1 <<< 63) + x.magnitude

end Binary64

end SignatureSearch
