import SignatureSearch.Number.Binary64

/-! Decimal texts of binary64 numbers. `ofScaled?` reads digits and an exponent by scaling with a
power of ten, which rounds up to three times; `shortest` finds the fewest digits whose exact value
rounds to a given number, and `text` lays them out. -/

namespace SignatureSearch

/-- The number `digits * 10 ^ exponent`. -/
structure Decimal where
  digits : Nat
  exponent : Int
  deriving DecidableEq, Repr

namespace Binary64

def maxPowerOfTen : Nat := 308

def powerOfTen (exponent : Nat) : Nat := ofNat (Nat.pow 10 exponent)

/-- Divides by the largest power of ten `steps` times, stopping at zero. -/
def divideRepeatedly : Nat → Nat → Nat
  | 0, m => m
  | steps + 1, m => if m = 0 then 0 else divideRepeatedly steps (div m (powerOfTen maxPowerOfTen))

/-- Scales a whole number by a power of ten in binary64 arithmetic; `none` if it overflows. -/
def scale? (digits : Nat) : Int → Option Nat
  | .ofNat e =>
    if digits = 0 then some 0
    else if e ≤ maxPowerOfTen then
      let m := mul (ofNat digits) (powerOfTen e)
      if m < overflowBound then some m else none
    else none
  | .negSucc e =>
    let steps := e / maxPowerOfTen
    let m := divideRepeatedly steps (ofNat digits)
    some (if m = 0 then 0 else div m (powerOfTen (e + 1 - steps * maxPowerOfTen)))

/-- Reads a decimal; `none` if its absolute value is too large. -/
def ofScaled? (negative : Bool) (d : Decimal) : Option Binary64 :=
  (scale? d.digits d.exponent).bind (ofMagnitude? negative)

/-- Working scale of `shortest`: values are multiplied by `10 ^ margin` to keep them whole. -/
def margin : Nat := 400

def decimalLength (n : Nat) : Nat := (Nat.toDigits 10 n).length

/-- The multiple of `step` nearest to `value`, among its two neighbours that are accepted; a tie goes
to the even multiple. -/
def nearestMultiple? (value step : Nat) (accepts : Nat → Bool) : Option Nat :=
  let low := value / step
  let lowFirst := 2 * (value % step) < step || (2 * (value % step) == step && low % 2 == 0)
  if accepts low then
    if accepts (low + 1) then some (if lowFirst then low else low + 1) else some low
  else if accepts (low + 1) then some (low + 1)
  else none

/-- The multiple of `10 ^ (place - margin)` nearest to the number `m`, among the two neighbours
of `m` that round to it; a tie goes to the even multiple. -/
def onGrid? (m place : Nat) : Option Nat :=
  let step := unitsPerOne * Nat.pow 10 place
  nearestMultiple? (units m * Nat.pow 10 margin) step fun c =>
    roundUnits (c * step) (Nat.pow 10 margin) == m

def trimZeros : Nat → Decimal → Decimal
  | 0, d => d
  | fuel + 1, d =>
    if d.digits ≠ 0 ∧ d.digits % 10 = 0 then trimZeros fuel ⟨d.digits / 10, d.exponent + 1⟩ else d

/-- The fewest significant digits, at most seventeen, that round to the number `m`. -/
def shortest (m : Nat) : Decimal :=
  let length := decimalLength (units m * Nat.pow 10 margin / unitsPerOne)
  let found := (List.range 17).findSome? fun i =>
    (onGrid? m (length - (i + 1))).map fun c => (⟨c, (length : Int) - (i + 1) - margin⟩ : Decimal)
  trimZeros 17 (found.getD ⟨units m * Nat.pow 10 margin / unitsPerOne, -margin⟩)

/-- Digits, a point, and at least one digit more, or an exponent: absolute values from `10 ^ -5` up
to below `10 ^ 16` are written without an exponent. -/
def layout (d : Decimal) : List Char :=
  let digits := Nat.toDigits 10 d.digits
  let leading : Int := d.exponent + digits.length - 1
  if leading < -5 ∨ 16 ≤ leading then
    let fraction := match digits.drop 1 with
      | [] => []
      | more => '.' :: more
    let sign := if leading < 0 then '-' else '+'
    digits.take 1 ++ fraction ++ 'e' :: sign :: Nat.toDigits 10 leading.natAbs
  else if leading < 0 then
    '0' :: '.' :: (List.replicate (leading.natAbs - 1) '0' ++ digits)
  else if 0 ≤ d.exponent then
    digits ++ (List.replicate d.exponent.toNat '0' ++ ['.', '0'])
  else
    digits.take (leading.toNat + 1) ++ '.' :: digits.drop (leading.toNat + 1)

def chars (x : Binary64) : List Char :=
  let unsigned := if x.magnitude = 0 then ['0', '.', '0'] else layout (shortest x.magnitude)
  if x.negative then '-' :: unsigned else unsigned

end Binary64

end SignatureSearch
