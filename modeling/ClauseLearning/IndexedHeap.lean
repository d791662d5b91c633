/-!
Heaps over fixed indices. Every index has a value, and some of the indices are active: those are
kept in heap order, greatest value first. Values may change while their index is active or not.
Ties go to the lower index, so the values alone decide the order in which indices are taken.
-/

namespace ClauseLearning

structure IndexedHeap (α : Type) where
  /-- The value of an index which growth skipped. -/
  blank : α
  values : Array α := #[]
  order : Array Nat := #[]
  position : Array (Option Nat) := #[]

namespace IndexedHeap

variable {α : Type}

def size (h : IndexedHeap α) : Nat := h.values.size

def activeCount (h : IndexedHeap α) : Nat := h.order.size

def isEmpty (h : IndexedHeap α) : Bool := h.values.isEmpty

def value? (h : IndexedHeap α) (index : Nat) : Option α := h.values[index]?

def position? (h : IndexedHeap α) (index : Nat) : Option Nat := (h.position[index]?).join

def isActive (h : IndexedHeap α) (index : Nat) : Bool := (h.position? index).isSome

def max? (h : IndexedHeap α) : Option Nat := h.order[0]?

def setValue (h : IndexedHeap α) (index : Nat) (value : α) : IndexedHeap α :=
  { h with values := h.values.setIfInBounds index value }

@[inline]
def modifyValue (h : IndexedHeap α) (index : Nat) (f : α → α) : IndexedHeap α :=
  { h with values := h.values.modify index f }

@[inline]
def mapValues (h : IndexedHeap α) (f : α → α) : IndexedHeap α :=
  { h with values := h.values.map f }

def swap (h : IndexedHeap α) (i j : Nat) : IndexedHeap α :=
  match h.order[i]?, h.order[j]? with
  | some x, some y =>
    { h with
      order := h.order.swapIfInBounds i j
      position := (h.position.setIfInBounds x (some j)).setIfInBounds y (some i) }
  | _, _ => h

@[simp] theorem size_order_swap (h : IndexedHeap α) (i j : Nat) :
    (h.swap i j).order.size = h.order.size := by
  unfold swap
  split <;> simp [Array.size_swapIfInBounds]

variable [LT α] [DecidableLT α]

@[specialize]
def precedes (h : IndexedHeap α) (x y : Nat) : Bool :=
  match h.values[x]?, h.values[y]? with
  | some a, some b => decide (b < a) || (!decide (a < b) && decide (x < y))
  | _, _ => false

@[specialize]
def above (h : IndexedHeap α) (i j : Nat) : Bool :=
  match h.order[i]?, h.order[j]? with
  | some x, some y => h.precedes x y
  | _, _ => false

@[specialize]
def topmost (h : IndexedHeap α) (i : Nat) : Nat :=
  let left := 2 * i + 1
  let right := left + 1
  let best := if left < h.order.size && h.above left i then left else i
  if right < h.order.size && h.above right best then right else best

theorem topmost_bounds {h : IndexedHeap α} {i : Nat} (moved : h.topmost i ≠ i) :
    i < h.topmost i ∧ h.topmost i < h.order.size := by
  unfold topmost at moved ⊢
  grind

@[specialize]
def siftDown (h : IndexedHeap α) (i : Nat) : IndexedHeap α :=
  let best := h.topmost i
  if _moved : best ≠ i then siftDown (h.swap i best) best else h
termination_by h.order.size - i
decreasing_by
  have := topmost_bounds _moved
  simp only [size_order_swap]
  omega

@[specialize]
def siftUp (h : IndexedHeap α) (i : Nat) : IndexedHeap α :=
  if _inner : 0 < i then
    let parent := (i - 1) / 2
    if h.above i parent then siftUp (h.swap i parent) parent else h
  else h
termination_by i

@[specialize]
def settle (h : IndexedHeap α) (index : Nat) : IndexedHeap α :=
  match h.position? index with
  | none => h
  | some i =>
    let risen := h.siftUp i
    match risen.position? index with
    | none => risen
    | some j => risen.siftDown j

@[specialize]
def heapifyBelow : Nat → IndexedHeap α → IndexedHeap α
  | 0, h => h
  | n + 1, h => heapifyBelow n (h.siftDown n)

@[specialize]
def heapify (h : IndexedHeap α) : IndexedHeap α := heapifyBelow (h.order.size / 2) h

/-- Gives an index a value, and tells whether the index is fresh. A fresh index is not active;
indices skipped on the way to it get the blank value. -/
@[specialize]
def add (h : IndexedHeap α) (index : Nat) (value : α) : Bool × IndexedHeap α :=
  if index < h.values.size then
    (false, (h.setValue index value).settle index)
  else
    let skipped := index - h.values.size
    (true, { h with
      values := (h.values ++ Array.replicate skipped h.blank).push value
      position := h.position ++ Array.replicate (index + 1 - h.position.size) none })

@[specialize]
def activate (h : IndexedHeap α) (index : Nat) : Bool × IndexedHeap α :=
  match h.position? index with
  | some i => (false, (h.siftUp i).siftDown i)
  | none =>
    if index < h.values.size then
      let last := h.order.size
      (true, siftUp { h with
        order := h.order.push index
        position := h.position.setIfInBounds index (some last) } last)
    else (false, h)

/-- Takes an index off the heap, and tells whether it was there. The last index of the order
fills the hole. -/
@[specialize]
def remove (h : IndexedHeap α) (index : Nat) : Bool × IndexedHeap α :=
  match h.position? index with
  | none => (false, h)
  | some hole =>
    let last := h.order.size - 1
    let moved := h.order.getD last index
    let h := { h with position := h.position.setIfInBounds index none }
    if hole = last then (true, { h with order := h.order.pop })
    else
      let filled := { h with
        order := (h.order.setIfInBounds hole moved).pop
        position := h.position.setIfInBounds moved (some hole) }
      -- The last index may belong below the hole as well as above it.
      (true, (filled.siftDown hole).siftUp hole)

@[specialize]
def popMax (h : IndexedHeap α) : Option Nat × IndexedHeap α :=
  match h.max? with
  | none => (none, h)
  | some index => (some index, (h.remove index).2)

end IndexedHeap

end ClauseLearning
