import ClauseLearning.Literal

/-!
Valuations as tables: position `a` holds the value of atom `a`, if it has one, and position `0`
belongs to the constant true.
-/

namespace ClauseLearning

abbrev Valuation := Array (Option Bool)

namespace Valuation

def entry? (v : Valuation) (a : Atom) : Option (Option Bool) := v[a]?

def value (v : Valuation) (a : Atom) : Option Bool := (v[a]?).join

def isOpen (v : Valuation) (a : Atom) : Bool := v[a]? == some none

def entries (v : Valuation) : List (Option Bool) := v.toList.drop 1

def atoms (v : Valuation) : List Atom := List.range' 1 (v.size - 1)

def pairs (v : Valuation) : List (Atom × Bool) :=
  v.atoms.filterMap fun a => (v.value a).map (a, ·)

def unvaluedAtoms (v : Valuation) : List Atom :=
  v.atoms.filter fun a => (v.value a).isNone

end Valuation

end ClauseLearning
