import ClauseLearning.Literal

/-!
The trail: the literals made true, in order, cut into levels. Level zero follows from the formula
alone, and each decision opens a level that its consequences belong to. The literals behind the
head still wait for their consequences to be drawn.
-/

namespace ClauseLearning

structure Trail where
  literals : Array Literal := #[]
  starts : Array Nat := #[]
  /-- The position of the first literal whose consequences are not drawn yet. -/
  head : Nat := 0
  deriving Repr, DecidableEq

namespace Trail

/-- The number of levels above zero, which a word of 32 bits holds while there are fewer than
`2 ^ 32`. -/
def level (t : Trail) : Nat := t.starts.size

def hasDecision (t : Trail) : Bool := !t.starts.isEmpty

def push (t : Trail) (l : Literal) : Trail := { t with literals := t.literals.push l }

def pushLevel (t : Trail) : Trail := { t with starts := t.starts.push t.literals.size }

def currentLevel (t : Trail) : List Literal := t.literals.toList.drop (t.starts.back?.getD 0)

def next? (t : Trail) : Option Literal := t.literals[t.head]?

def advance (t : Trail) : Trail := { t with head := t.head + 1 }

def startAbove? (t : Trail) (level : Nat) : Option Nat := t.starts[level]?

def above (t : Trail) (level : Nat) : List Literal :=
  match t.startAbove? level with
  | none => []
  | some start => (t.literals.extract start t.literals.size).toList

/-- Cuts the levels above the given one off. What remains before the head stays drawn. -/
def cut (t : Trail) (level : Nat) : Trail :=
  match t.startAbove? level with
  | none => t
  | some start =>
    let literals := t.literals.shrink start
    ⟨literals, t.starts.shrink level, min t.head literals.size⟩

end Trail

end ClauseLearning
