import ClauseLearning.Text.Numeral

/-!
Reading floats: decimal digits with a point anywhere among or around them and perhaps a power of
ten, or the names of infinity and of a value that is no number; a sign may stand before either.
The float nearest to the number is read.
-/

namespace ClauseLearning.Decimal

def infinity : Float := 1.0 / 0.0

def notANumber : Float := 0.0 / 0.0

/-- The float nearest to `digits * 10 ^ exponent`. Powers far outside of the range of floats are
answered without being computed. -/
def nearestFloat (digits : Nat) (exponent : Int) : Float :=
  if digits = 0 then 0.0
  else
    let leading := exponent + (Nat.toDigits 10 digits).length
    if 400 < leading then infinity
    else if leading < -400 then 0.0
    else Float.ofScientific digits (decide (exponent < 0)) exponent.natAbs

def readExponent? : List Char → Option Int
  | [] => some 0
  | c :: rest =>
    if c = 'e' ∨ c = 'E' then
      match rest with
      | '-' :: digits => (Text.readDigits? digits).map fun n => -(n : Int)
      | '+' :: digits => (Text.readDigits? digits).map fun n => (n : Int)
      | digits => (Text.readDigits? digits).map fun n => (n : Int)
    else none

def readDecimal? (cs : List Char) : Option Float :=
  let whole := cs.takeWhile Char.isDigit
  let behind := cs.dropWhile Char.isDigit
  let (places, rest) := match behind with
    | '.' :: more => (more.takeWhile Char.isDigit, more.dropWhile Char.isDigit)
    | _ => ([], behind)
  if whole.isEmpty && places.isEmpty then none
  else (readExponent? rest).map fun e =>
    nearestFloat (Text.digitsValue (whole ++ places)) (e - places.length)

def readMagnitude? (cs : List Char) : Option Float :=
  match String.ofList (cs.map Char.toLower) with
  | "inf" | "infinity" => some infinity
  | "nan" => some notANumber
  | _ => readDecimal? cs

def readFloat? : List Char → Option Float
  | '-' :: rest => (readMagnitude? rest).map (-·)
  | '+' :: rest => readMagnitude? rest
  | cs => readMagnitude? cs

end ClauseLearning.Decimal
