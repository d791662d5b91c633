import ClauseLearning.Decimal.Binary64
import ClauseLearning.Decimal.Shortest

/-!
How a float is laid out once its shortest digits are known. A layout is a record of the choices a
format makes; the two formats of this library are its values.
-/

namespace ClauseLearning.Decimal

structure Layout where
  keepsPoint : Bool
  /-- The powers of ten, of the first digit, which are written without an exponent: from the first
  on and below the second. Without them every number is. -/
  positional : Option (Int × Int)
  deriving Repr, DecidableEq

namespace Layout

def plain : Layout := ⟨false, none⟩

/-- Numbers that show that they are floats: always a point or an exponent, the latter for numbers
below `10 ^ -4` and from `10 ^ 16` on. -/
def marked : Layout := ⟨true, some (-4, 16)⟩

def positionalText (layout : Layout) (digits : List Char) (exponent : Int) : String :=
  if 0 ≤ exponent then
    String.ofList (digits ++ List.replicate exponent.toNat '0')
      ++ (if layout.keepsPoint then ".0" else "")
  else
    let places := (-exponent).toNat
    let padded := List.replicate (places + 1 - digits.length) '0' ++ digits
    let whole := padded.length - places
    String.ofList (padded.take whole ++ '.' :: padded.drop whole)

def scientificText (digits : List Char) (leading : Int) : String :=
  let behind := match digits.drop 1 with
    | [] => []
    | places => '.' :: places
  String.ofList (digits.take 1 ++ behind) ++ "e" ++ toString leading

def finiteText (layout : Layout) (m : Nat) (q : Int) : String :=
  let d := shortest m q
  let digits := Nat.toDigits 10 d.digits
  let leading := d.exponent + digits.length - 1
  let scientific := match layout.positional with
    | none => false
    | some (first, last) => m ≠ 0 && (decide (leading < first) || decide (last ≤ leading))
  if scientific then scientificText digits leading
  else layout.positionalText digits d.exponent

def text (layout : Layout) (x : Float) : String :=
  let sign := if isNegative x then "-" else ""
  match magnitude x with
  | .nan => "NaN"
  | .infinite => sign ++ "inf"
  | .finite m q => sign ++ layout.finiteText m q

end Layout

end ClauseLearning.Decimal
