import SignatureSearch.CommandLine.Run

/-! The texts of what is measured: durations in the largest unit that they fill, and points in
time in universal time. -/

namespace SignatureSearch

namespace CommandLine

/-- A duration with two decimals. -/
def durationText (nanoseconds : Nat) : String :=
  if Nat.pow 10 9 ≤ nanoseconds then twoDecimals nanoseconds (Nat.pow 10 9) ++ "s"
  else if Nat.pow 10 6 ≤ nanoseconds then twoDecimals nanoseconds (Nat.pow 10 6) ++ "ms"
  else if Nat.pow 10 3 ≤ nanoseconds then twoDecimals nanoseconds (Nat.pow 10 3) ++ "µs"
  else twoDecimals nanoseconds 1 ++ "ns"

structure Date where
  year : Nat
  month : Nat
  day : Nat
  deriving DecidableEq, Repr

/-- The date of a day counted from the first of January 1970. Years are taken to begin in March, so
that a leap day comes last, and are grouped into cycles of 400. -/
def Date.ofDays (days : Nat) : Date :=
  let shifted := days + 719468
  let cycle := shifted / 146097
  let dayOfCycle := shifted % 146097
  let yearOfCycle :=
    (dayOfCycle - dayOfCycle / 1460 + dayOfCycle / 36524 - dayOfCycle / 146096) / 365
  let dayOfYear := dayOfCycle - (365 * yearOfCycle + yearOfCycle / 4 - yearOfCycle / 100)
  let monthFromMarch := (5 * dayOfYear + 2) / 153
  let day := dayOfYear - (153 * monthFromMarch + 2) / 5 + 1
  let month := if monthFromMarch < 10 then monthFromMarch + 3 else monthFromMarch - 9
  ⟨yearOfCycle + 400 * cycle + (if month ≤ 2 then 1 else 0), month, day⟩

def padded (width n : Nat) : String :=
  let digits := Nat.toDigits 10 n
  String.ofList (List.replicate (width - digits.length) '0' ++ digits)

/-- A point in time, in seconds from the beginning of 1970. -/
def timeText (seconds : Nat) : String :=
  let date := Date.ofDays (seconds / 86400)
  let second := seconds % 86400
  padded 4 date.year ++ "-" ++ padded 2 date.month ++ "-" ++ padded 2 date.day ++ "T" ++
    padded 2 (second / 3600) ++ ":" ++ padded 2 (second / 60 % 60) ++ ":" ++
    padded 2 (second % 60) ++ "+00:00"

end CommandLine

end SignatureSearch
