import ClauseLearning.Activity
import ClauseLearning.IndexedHeap
import ClauseLearning.Literal

/-!
The order in which atoms are decided. An order is told of fresh atoms and of atoms which lost their
value, and answers with an atom to decide. Atoms with a value may stay in it until they come up.
-/

namespace ClauseLearning

/-- Atoms by activity. Activities do not decay: the bump grows instead, and when an activity or the
bump would pass the limit, all of them are scaled down. -/
structure ActivityOrder where
  heap : IndexedHeap Activity := { blank := 0.0 }
  bump : Activity
  growth : Activity

namespace ActivityOrder

def limit : Activity := 1e100

def new (bump decay : Activity) : ActivityOrder := { bump, growth := 1.0 / (1.0 - decay) }

def offer (o : ActivityOrder) (a : Atom) : ActivityOrder :=
  { o with heap := (o.heap.activate a).2 }

def add (o : ActivityOrder) (a : Atom) : ActivityOrder :=
  offer { o with heap := (o.heap.add a 0.0).2 } a

def activity (o : ActivityOrder) (a : Atom) : Activity := (o.heap.value? a).getD 0.0

def rescale (o : ActivityOrder) : ActivityOrder :=
  let factor := 1.0 / limit
  { o with heap := (o.heap.mapValues (· * factor)).heapify, bump := o.bump * factor }

def raise (o : ActivityOrder) (a : Atom) : ActivityOrder :=
  let o := if limit < o.activity a + o.bump then o.rescale else o
  let bump := o.bump
  { o with heap := (o.heap.modifyValue a (· + bump)).settle a }

def decay (o : ActivityOrder) : ActivityOrder :=
  let o := { o with bump := o.bump * o.growth }
  if limit < o.bump then o.rescale else o

def takeFrom (isOpen : Atom → Bool) : (count : Nat) → IndexedHeap Activity →
    Option Atom × IndexedHeap Activity
  | 0, heap => (none, heap)
  | count + 1, heap =>
    match heap.popMax with
    | (none, heap) => (none, heap)
    | (some a, heap) => if isOpen a then (some a, heap) else takeFrom isOpen count heap

def take (isOpen : Atom → Bool) (o : ActivityOrder) : Option Atom × ActivityOrder :=
  let (a, heap) := takeFrom isOpen o.heap.activeCount o.heap
  (a, { o with heap })

end ActivityOrder

inductive DecisionHeuristic where
  | activity
  | fixedOrder
  deriving Repr, DecidableEq, Inhabited

inductive DecisionOrder where
  | byActivity (order : ActivityOrder)
  /-- Every atom below the cursor has a value. -/
  | byNumber (cursor : Nat)

namespace DecisionOrder

def new (heuristic : DecisionHeuristic) (bump decay : Activity) : DecisionOrder :=
  match heuristic with
  | .activity => byActivity (ActivityOrder.new bump decay)
  | .fixedOrder => byNumber 0

def add (a : Atom) : DecisionOrder → DecisionOrder
  | byActivity o => byActivity (o.add a)
  | byNumber cursor => byNumber (min cursor a)

def release (a : Atom) : DecisionOrder → DecisionOrder
  | byActivity o => byActivity (o.offer a)
  | byNumber cursor => byNumber (min cursor a)

def firstOpen (isOpen : Atom → Bool) (stop a : Nat) : Nat :=
  if a < stop then if isOpen a then a else firstOpen isOpen stop (a + 1) else a
termination_by stop - a

def take (isOpen : Atom → Bool) (stop : Nat) : DecisionOrder → Option Atom × DecisionOrder
  | byActivity o =>
    let (a, o) := o.take isOpen
    (a, byActivity o)
  | byNumber cursor =>
    let cursor := firstOpen isOpen stop cursor
    (if cursor < stop then some cursor else none, byNumber cursor)

def raise (a : Atom) : DecisionOrder → DecisionOrder
  | byActivity o => byActivity (o.raise a)
  | byNumber cursor => byNumber cursor

def decay : DecisionOrder → DecisionOrder
  | byActivity o => byActivity o.decay
  | byNumber cursor => byNumber cursor

def activity (a : Atom) : DecisionOrder → Activity
  | byActivity o => o.activity a
  | byNumber _ => 0.0

end DecisionOrder

end ClauseLearning
