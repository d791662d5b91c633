import ClauseLearning.AtomTable
import ClauseLearning.WatchedClause

/-!
The store of clauses. Unit clauses are kept as lists of literals. Longer clauses of the formula
stay where they are put; longer additions have slots, which are used again under a new token once
their clause is removed. Additions have an activity, which decides the order of their removal.
-/

namespace ClauseLearning

structure ClauseRank where
  activity : Activity := 0.0
  blockDistance : Nat := 0
  deriving Repr

/-- Less active additions rank higher, as they are removed first. -/
instance : LT ClauseRank := ⟨fun a b => b.activity < a.activity⟩

instance : DecidableLT ClauseRank := fun a b => inferInstanceAs (Decidable (b.activity < a.activity))

structure ClauseStore where
  /-- How much of their activity additions lose in a decay. -/
  decayRate : Activity
  blockDistanceBound : Nat
  limit : Nat
  bump : Activity
  originalUnits : Array Literal := #[]
  additionUnits : Array Literal := #[]
  originals : Array WatchedClause := #[]
  additions : Array (Option WatchedClause) := #[]
  /-- The last keys of slots which are free, latest first. -/
  vacated : List ClauseKey := []
  additionCount : Nat := 0
  ranks : IndexedHeap ClauseRank := { blank := {} }

namespace ClauseStore

def activityLimit : Activity := 1e20

def get (s : ClauseStore) (key : ClauseKey) : Except Failure WatchedClause :=
  match key with
  | .originalUnit _ | .additionUnit _ => .error .unitKey
  | .original i =>
    match s.originals[i]? with
    | some c => .ok c
    | none => .error .unknownIndex
  | .addition i _ =>
    match s.additions[i]? with
    | some (some c) => if c.key = key then .ok c else .error .staleToken
    | some none => .error .missingClause
    | none => .error .unknownIndex

@[inline]
def modify (s : ClauseStore) (key : ClauseKey) (f : WatchedClause → WatchedClause) : ClauseStore :=
  match key with
  | .originalUnit _ | .additionUnit _ => s
  | .original i => { s with originals := s.originals.modify i f }
  | .addition i _ => { s with additions := s.additions.modify i (Option.map f) }

def clauseOf (s : ClauseStore) (key : ClauseKey) : Except Failure Clause :=
  match key with
  | .originalUnit l | .additionUnit l => .ok [l]
  | _ => (s.get key).map WatchedClause.clause

def totalCount (s : ClauseStore) : Nat :=
  s.originalUnits.size + s.additionUnits.size + s.originals.size + s.additionCount

def originalCount (s : ClauseStore) : Nat := s.originalUnits.size + s.originals.size

def unitAndLongAdditionCount (s : ClauseStore) : Nat := s.additionUnits.size + s.additionCount

def longAdditions (s : ClauseStore) : List WatchedClause := s.additions.toList.filterMap id

def longClauses (s : ClauseStore) : List WatchedClause := s.originals.toList ++ s.longAdditions

def originalClauses (s : ClauseStore) : List Clause :=
  s.originalUnits.toList.map ([·]) ++ s.originals.toList.map WatchedClause.clause

def additionClauses (s : ClauseStore) : List Clause :=
  s.additionUnits.toList.map ([·]) ++ s.longAdditions.map WatchedClause.clause

def isReason (source : Atom → Option Source) (s : ClauseStore) (key : ClauseKey) : Bool :=
  match s.get key with
  | .ok c => source c.first.natAbs = some (.propagation key)
  | .error _ => false

def rank? (s : ClauseStore) (key : ClauseKey) : Option ClauseRank :=
  match key, s.get key with
  | .addition i _, .ok _ => s.ranks.value? i
  | _, _ => none

def rescale (s : ClauseStore) : ClauseStore :=
  let factor := 1.0 / activityLimit
  { s with
    ranks := (s.ranks.mapValues fun r => { r with activity := r.activity * factor }).heapify
    bump := s.bump * factor }

def raiseRescales (s : ClauseStore) (key : ClauseKey) : Bool :=
  match key with
  | .addition i _ => activityLimit < ((s.ranks.value? i).getD {}).activity + s.bump
  | _ => false

/-- Adds the bump to the activity of the slot of a key. -/
def raise (s : ClauseStore) (key : ClauseKey) : ClauseStore :=
  match key with
  | .addition i _ =>
    let s := if s.raiseRescales key then s.rescale else s
    let bump := s.bump
    let ranks := s.ranks.modifyValue i fun r => { r with activity := r.activity + bump }
    { s with ranks := ranks.settle i }
  | _ => s

def grownBump (s : ClauseStore) : Activity := s.bump * (1.0 / (1.0 - s.decayRate))

def decayRescales (s : ClauseStore) : Bool := activityLimit < s.grownBump

def decay (s : ClauseStore) : ClauseStore :=
  let rescales := s.decayRescales
  let s := { s with bump := s.grownBump }
  if rescales then s.rescale else s

end ClauseStore

end ClauseLearning
