/-!
Atoms and literals. Atoms are numbers, with atom `0` kept for the constant true; a literal is a
signed number whose size is its atom and whose sign is its polarity.
-/

namespace ClauseLearning

abbrev Atom := Nat

namespace Atom

def top : Atom := 0

def max : Atom := Nat.pow 2 31 - 1

end Atom

/-- A literal as a signed number: the size is the atom, a positive sign the polarity true. -/
abbrev Literal := Int

namespace Literal

/-- The literal of an atom with a polarity. Literals are 32 bits wide, so greater atoms wrap. -/
def ofAtom (atom : Atom) (polarity : Bool) : Literal :=
  let positive := Int.bmod atom (Nat.pow 2 32)
  if polarity then positive else -positive

def atom (l : Literal) : Atom := l.natAbs

def polarity (l : Literal) : Bool := decide ((0 : Int) < l)

def code (l : Literal) : Nat := 2 * l.natAbs + l.polarity.toNat

@[inline]
def value (value : Atom → Option Bool) (l : Literal) : Option Bool :=
  match value l.natAbs with
  | none => none
  | some b => some (b == l.polarity)

/-- Values are read as 32-bit numbers, so this is how a literal is written. -/
def text (l : Literal) : String := toString l

@[simp] theorem atom_neg (l : Literal) : atom (-l) = atom l := Int.natAbs_neg l

theorem polarity_neg {l : Int} (nonzero : l ≠ 0) : polarity (-l) = !polarity l := by
  rw [Bool.eq_iff_iff]
  simp only [polarity, decide_eq_true_eq, Bool.not_eq_true', decide_eq_false_iff_not]
  omega

end Literal

end ClauseLearning
