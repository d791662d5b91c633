/-!
The number a binary64 pattern stands for: a sign and, for a finite one, a whole significand times
a power of two.
-/

namespace ClauseLearning.Decimal

inductive Magnitude where
  | nan
  | infinite
  | finite (significand : Nat) (exponent : Int)
  deriving Repr, DecidableEq

def isNegative (x : Float) : Bool := x.toBits >>> 63 == 1

def magnitude (x : Float) : Magnitude :=
  let fraction := (x.toBits &&& 0xFFFFFFFFFFFFF).toNat
  let biased := ((x.toBits >>> 52) &&& 0x7FF).toNat
  if biased = 0x7FF then
    if fraction = 0 then .infinite else .nan
  else if biased = 0 then .finite fraction (-1074)
  else .finite (Nat.pow 2 52 + fraction) (biased - 1075)

end ClauseLearning.Decimal
