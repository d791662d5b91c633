/-!
Reading whole numbers: ASCII digits, perhaps behind a sign, with nothing around them, and within
the bounds of the number asked for.
-/

namespace ClauseLearning.Text

def digitsValue (digits : List Char) : Nat :=
  digits.foldl (fun n c => 10 * n + (c.toNat - '0'.toNat)) 0

def readDigits? (cs : List Char) : Option Nat :=
  if cs.isEmpty then none
  else if cs.all Char.isDigit then some (digitsValue cs) else none

/-- A natural number of at most `greatest`; a plus sign may stand before it. -/
def readNat? (greatest : Nat) (cs : List Char) : Option Nat :=
  let digits := match cs with
    | '+' :: rest => rest
    | _ => cs
  (readDigits? digits).filter (· ≤ greatest)

/-- A whole number from `least` to `greatest`; a sign may stand before it. -/
def readInt? (least greatest : Int) (cs : List Char) : Option Int :=
  let number := match cs with
    | '-' :: rest => (readDigits? rest).map fun n => -(n : Int)
    | '+' :: rest => (readDigits? rest).map fun n => (n : Int)
    | _ => (readDigits? cs).map fun n => (n : Int)
  number.filter fun n => least ≤ n ∧ n ≤ greatest

end ClauseLearning.Text
