import ClauseLearning.Clause
import ClauseLearning.WatchLists

/-!
Stored clauses with their two watched literals. The first literal of the clause is watched, and so
is the one at the pointer. The order of the literals changes as needed for the first to be the one
the clause asserts, if any. When a watched literal becomes false the pointer moves forward around
the clause, over all positions but the first, to the next literal which is not false.
-/

namespace ClauseLearning

structure WatchedClause where
  key : ClauseKey
  literals : Array Literal
  /-- The position of the second watched literal. -/
  pointer : Nat := 1
  deriving Repr, DecidableEq

inductive WatchStatus where
  | unvalued
  | witness
  deriving Repr, DecidableEq

def WatchStatus.ofValue : Option Bool → WatchStatus
  | none => unvalued
  | some _ => witness

namespace WatchedClause

def clause (c : WatchedClause) : Clause := c.literals.toList

def literalAt (c : WatchedClause) (i : Nat) : Literal := c.literals.getD i 0

def first (c : WatchedClause) : Literal := c.literalAt 0

def second (c : WatchedClause) : Literal := c.literalAt c.pointer

@[specialize]
def candidate? (value : Atom → Option Bool) (literals : Array Literal) (i stop : Nat) :
    Option Nat :=
  if i < stop then
    match literals[i]? with
    | none => none
    | some l =>
      match l.value value with
      | some false => candidate? value literals (i + 1) stop
      | _ => some i
  else none
termination_by stop - i

/-- Stores a clause: the first literal which is not false comes to the front, and the pointer goes
to the next such literal. Where there is none the first two positions are watched. -/
def ofClause (value : Atom → Option Bool) (key : ClauseKey) (c : Clause) : WatchedClause :=
  let given := c.toArray
  let literals := given.swapIfInBounds 0 ((candidate? value given 0 given.size).getD 0)
  ⟨key, literals, (candidate? value literals 1 literals.size).getD 1⟩

/-- Where the pointer can go: the next position, after the pointer and around the clause without
its front, whose literal is not false. -/
@[inline]
def replacement? (value : Atom → Option Bool) (c : WatchedClause) : Option Nat :=
  match candidate? value c.literals (c.pointer + 1) c.literals.size with
  | some i => some i
  | none => candidate? value c.literals 1 c.pointer

/-- Brings the other watched literal to the front, if the one in front has the given atom. -/
def turn (c : WatchedClause) (atom : Atom) : WatchedClause :=
  if c.first.natAbs = atom then { c with literals := c.literals.swapIfInBounds 0 c.pointer } else c

def pointTo (c : WatchedClause) (i : Nat) : WatchedClause := { c with pointer := i }

/-- Answers a watched literal, of the given atom, becoming false: the other watched literal comes
to the front, and the pointer moves on if it can. The clause then comes to the list of the literal
it watches instead, and is left on that of the other. -/
@[inline]
def moveWatch (value : Atom → Option Bool) (c : WatchedClause) (atom : Atom) (w : WatchLists) :
    Option WatchStatus × WatchedClause × WatchLists :=
  let c := c.turn atom
  match c.replacement? value with
  | some i =>
    let c := c.pointTo i
    (some (.ofValue (c.second.value value)), c, w.watch c.second c.key)
  | none => (none, c, w)

end WatchedClause

end ClauseLearning
