/-!
Durations with three places, in the greatest unit of which there is at least one.
-/

namespace ClauseLearning.CommandLine

/-- `count` units of `10 ^ digits` parts each, to three places. -/
def inUnit (count digits : Nat) (unit : String) : String :=
  let thousandths := (count * 1000 + Nat.pow 10 digits / 2) / Nat.pow 10 digits
  let places := toString (thousandths % 1000)
  toString (thousandths / 1000) ++ "." ++ "".pushn '0' (3 - places.length) ++ places ++ unit

def elapsedText (nanoseconds : Nat) : String :=
  if Nat.pow 10 9 ≤ nanoseconds then inUnit nanoseconds 9 "s"
  else if Nat.pow 10 6 ≤ nanoseconds then inUnit nanoseconds 6 "ms"
  else if Nat.pow 10 3 ≤ nanoseconds then inUnit nanoseconds 3 "µs"
  else inUnit nanoseconds 0 "ns"

end ClauseLearning.CommandLine
