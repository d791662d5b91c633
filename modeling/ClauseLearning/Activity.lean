/-!
Activities: how much an atom or a clause took part in conflicts of late. An activity is a float by
its pattern. Activities are added and scaled without asking whether they are numbers, and a pattern
that is no number is passed on as it is, sign included.
-/

namespace ClauseLearning

/-- A float by its pattern. -/
structure Activity where
  pattern : UInt64
  deriving DecidableEq, Repr

namespace Activity

def ofFloat (x : Float) : Activity := ⟨x.toBits⟩

def toFloat (a : Activity) : Float := Float.ofBits a.pattern

def isNumber (a : Activity) : Bool := !a.toFloat.isNaN

/-- What an operation on numbers without a result answers. -/
def undefined : Activity := ⟨0xFFF8000000000000⟩

/-- Carries out an operation. An operand that is no number is the result, the first if both are
none. -/
@[inline]
def combine (operation : Float → Float → Float) (a b : Activity) : Activity :=
  if !a.isNumber then a
  else if !b.isNumber then b
  else
    let result := operation a.toFloat b.toFloat
    if result.isNaN then undefined else ofFloat result

instance : OfScientific Activity :=
  ⟨fun digits down exponent => ofFloat (.ofScientific digits down exponent)⟩

instance : Inhabited Activity := ⟨0.0⟩

instance : Neg Activity := ⟨fun a => ⟨a.pattern ^^^ 0x8000000000000000⟩⟩

instance : Add Activity := ⟨combine (· + ·)⟩

instance : Sub Activity := ⟨combine (· - ·)⟩

instance : Mul Activity := ⟨combine (· * ·)⟩

instance : Div Activity := ⟨combine (· / ·)⟩

/-- Activities are ordered as floats; what is no number is not less than anything, nor greater. -/
instance : LT Activity := ⟨fun a b => a.toFloat < b.toFloat⟩

instance : DecidableLT Activity := fun a b => inferInstanceAs (Decidable (a.toFloat < b.toFloat))

end Activity

end ClauseLearning
