/-!
The Luby sequence 1, 1, 2, 1, 1, 2, 4, … by reluctant doubling over 32-bit words: a pair `(u, v)`
gives the element `v`, and the next pair is `(u + 1, 1)` if `v` is the lowest bit set in `u`, and
`(u, 2 * v)` otherwise. The sequence ends where a word would overflow.
-/

namespace ClauseLearning

structure Luby where
  u : UInt32 := 0
  v : UInt32 := 0
  deriving Repr, DecidableEq

namespace Luby

def lowestBit (u : UInt32) : UInt32 := u &&& (0 - u)

def next? (l : Luby) : Option (UInt32 × Luby) :=
  if lowestBit l.u = l.v then
    if l.u.toNat + 1 < UInt32.size then some (1, ⟨l.u + 1, 1⟩) else none
  else
    if 2 * l.v.toNat < UInt32.size then some (l.v + l.v, ⟨l.u, l.v + l.v⟩) else none

def take : Nat → Luby → List UInt32
  | 0, _ => []
  | count + 1, l =>
    match l.next? with
    | none => []
    | some (v, l) => v :: take count l

def drop : Nat → Luby → Luby
  | 0, l => l
  | count + 1, l =>
    match l.next? with
    | none => l
    | some (_, l) => drop count l

end Luby

end ClauseLearning
