/-! The text of a duration: a decimal number of the largest unit among seconds,
milliseconds, microseconds and nanoseconds that is not longer than the duration,
with no zeros at the end of its fraction. -/

namespace TabularOntology.Text

/-- Exactly `n` decimal digits of a number, leading zeros included. -/
def paddedDigits (n value : Nat) : List Char :=
  let digits := (toString value).toList
  List.replicate (n - digits.length) '0' ++ digits

/-- A number of units, where one unit has as many parts as the power of ten with the given
number of places. -/
def decimalText (places parts : Nat) : String :=
  let unit := Nat.pow 10 places
  let fraction := ((paddedDigits places (parts % unit)).reverse.dropWhile (· == '0')).reverse
  let whole := toString (parts / unit)
  if fraction.isEmpty then whole else whole ++ "." ++ String.ofList fraction

/-- The text of a number of nanoseconds. -/
def durationText (nanoseconds : Nat) : String :=
  if 1000000000 ≤ nanoseconds then decimalText 9 nanoseconds ++ "s"
  else if 1000000 ≤ nanoseconds then decimalText 6 nanoseconds ++ "ms"
  else if 1000 ≤ nanoseconds then decimalText 3 nanoseconds ++ "µs"
  else toString nanoseconds ++ "ns"

end TabularOntology.Text
