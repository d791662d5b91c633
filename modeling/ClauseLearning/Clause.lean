import ClauseLearning.Literal

/-!
Clauses are lists of literals, read as their disjunction. The questions asked of a clause take the
values or the levels of atoms as functions, so that any table of either can answer.
-/

namespace ClauseLearning

/-- A clause: the disjunction of its literals, false when it has none. -/
abbrev Clause := List Literal

namespace Clause

def atoms (c : Clause) : List Atom := c.map Literal.atom

def text (c : Clause) : String := " ".intercalate (c.map Literal.text)

def dimacsText (c : Clause) : String := " ".intercalate (c.map Literal.text ++ ["0"])

def isFalse (value : Atom → Option Bool) (c : Clause) : Bool :=
  c.all fun l => l.value value == some false

def isTrue (value : Atom → Option Bool) (c : Clause) : Bool :=
  c.any fun l => l.value value == some true

/-- The literal a clause asserts: the only one which is not false, if it has no value. -/
def asserted? (value : Atom → Option Bool) (c : Clause) : Option Literal :=
  match c.filter fun l => l.value value != some false with
  | [l] => if (l.value value).isNone then some l else none
  | _ => none

def maxBlockDistance : Nat := 255

/-- The literal block distance: how many levels the valued atoms of a clause have. -/
def blockDistance (level : Atom → Option Nat) (c : Clause) : Nat :=
  min (c.filterMap (level ·.atom)).eraseDups.length maxBlockDistance

def isTautology (c : Clause) : Bool := c.any fun l => l.polarity && c.contains (-l)

end Clause

/-- A literal on its own lies within one level, also before it has a value. -/
def Literal.blockDistance (_ : Literal) : Nat := 1

end ClauseLearning
