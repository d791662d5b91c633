/-!
The shortest decimal which reads back as a given binary number, and of those the nearest to it.

A number `m * 2 ^ q` owns the interval of reals which round to it. Grids of ever more digits are
tried, from one digit on: the first grid with a point in the interval settles how many digits are
needed, and a grid has such a point only if one of the two grid points around the number is one.
-/

namespace ClauseLearning.Decimal

structure Scaled where
  digits : Nat
  exponent : Int
  deriving Repr, DecidableEq

def digitCount (n : Nat) : Nat := (Nat.toDigits 10 n).length

/-- The reals that round to a number, as fractions of one denominator. -/
structure Interval where
  least : Nat
  centre : Nat
  greatest : Nat
  denominator : Nat
  /-- Whether the two ends round to the number too. -/
  closed : Bool

namespace Interval

/-- The interval of `m * 2 ^ q`: half way to its neighbours, and the neighbour below is nearer by
half when `m` is the least significand of its binade. The ends belong to an even significand. -/
def ofBinary (m : Nat) (q : Int) : Interval :=
  let up := Nat.pow 2 (q - 2).toNat
  let below := if m = Nat.pow 2 52 ∧ -1074 < q then 1 else 2
  { least := (4 * m - below) * up
    centre := 4 * m * up
    greatest := (4 * m + 2) * up
    denominator := Nat.pow 2 (2 - q).toNat
    closed := m % 2 = 0 }

def inUnits (i : Interval) (e : Int) : Interval :=
  let up := Nat.pow 10 (-e).toNat
  { i with
    least := i.least * up
    centre := i.centre * up
    greatest := i.greatest * up
    denominator := i.denominator * Nat.pow 10 e.toNat }

def contains (i : Interval) (n : Nat) : Bool :=
  let point := n * i.denominator
  if i.closed then decide (i.least ≤ point ∧ point ≤ i.greatest)
  else decide (i.least < point ∧ point < i.greatest)

def leadingExponent (i : Interval) : Int :=
  if i.denominator ≤ i.centre then (digitCount (i.centre / i.denominator) : Int) - 1
  else -(digitCount ((i.denominator - 1) / i.centre) : Int)

def nearest? (i : Interval) : Option Nat :=
  let below := i.centre / i.denominator
  match i.contains below, i.contains (below + 1) with
  | true, true =>
    if 2 * (i.centre % i.denominator) < i.denominator then some below else some (below + 1)
  | true, false => some below
  | false, true => some (below + 1)
  | false, false => none

/-- The nearest point on the first of the grids `10 ^ e`, `10 ^ (e - 1)` and so on which has one
in the interval, trying `grids` of them. -/
def onGrids (i : Interval) : (grids : Nat) → (e : Int) → Scaled
  | 0, e => ⟨(i.inUnits e).centre / (i.inUnits e).denominator, e⟩
  | grids + 1, e =>
    match (i.inUnits e).nearest? with
    | some n => ⟨n, e⟩
    | none => onGrids i grids (e - 1)

end Interval

def Scaled.trim (d : Scaled) : Scaled :=
  if _inner : d.digits ≠ 0 ∧ d.digits % 10 = 0 then trim ⟨d.digits / 10, d.exponent + 1⟩ else d
termination_by d.digits
decreasing_by
  show d.digits / 10 < d.digits
  omega

/-- The shortest decimal that reads back as `m * 2 ^ q`, nearest to it among the shortest.
Seventeen digits tell any two binary64 numbers apart. -/
def shortest (m : Nat) (q : Int) : Scaled :=
  if m = 0 then ⟨0, 0⟩
  else
    let i := Interval.ofBinary m q
    (i.onGrids 17 i.leadingExponent).trim

end ClauseLearning.Decimal
