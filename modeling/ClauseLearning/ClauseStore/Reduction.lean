import ClauseLearning.ClauseStore.Storage

/-!
Reductions remove additions, the least active first. An addition stays if its block distance is
low enough or if it is why some literal is true.
-/

namespace ClauseLearning

/-- A reduction under way. The heap of ranks is kept apart from the store. -/
structure Reduction where
  state : WatchedStore
  ranks : IndexedHeap ClauseRank
  kept : List Nat := []
  removed : List ClauseKey := []

namespace Reduction

def isProtected (source : Atom → Option Source) (store : ClauseStore) (rank : ClauseRank)
    (key : ClauseKey) : Bool :=
  rank.blockDistance ≤ store.blockDistanceBound || store.isReason source key

/-- Visits at most `visits` additions, the least active first, to remove `count` more of them. -/
def visit (source : Atom → Option Source) : (visits count : Nat) → Reduction →
    Except Failure Unit × Reduction
  | 0, _, r => (.ok (), r)
  | _, 0, r => (.ok (), r)
  | visits + 1, count + 1, ⟨state, ranks, kept, removed⟩ =>
    match ranks.popMax with
    | (none, ranks) => (.ok (), ⟨state, ranks, kept, removed⟩)
    | (some i, ranks) =>
      match state.store.additions[i]? with
      | none | some none => (.error (.missingAddition i), ⟨state, ranks, kept, removed⟩)
      | some (some c) =>
        let key := c.key
        -- An index keeps its value when it is taken off the heap.
        let rank := (ranks.value? i).getD {}
        if isProtected source state.store rank key then
          visit source visits (count + 1) ⟨state, ranks, i :: kept, removed⟩
        else
          match state.detach key with
          | (.error e, state) => (.error e, ⟨state, ranks, kept, removed⟩)
          | (.ok (), state) => visit source visits count ⟨state, ranks, kept, key :: removed⟩

def reactivate (ranks : IndexedHeap ClauseRank) (kept : List Nat) : IndexedHeap ClauseRank :=
  kept.foldr (fun i ranks => (ranks.activate i).2) ranks

end Reduction

def WatchedStore.reduce (source : Atom → Option Source) (s : WatchedStore) (count : Nat) :
    (Except Failure Unit × List ClauseKey) × WatchedStore :=
  match s with
  | ⟨store, watches⟩ =>
    let ranks := store.ranks
    let store := { store with ranks := { blank := {} } }
    match Reduction.visit source ranks.activeCount count { state := ⟨store, watches⟩, ranks } with
    | (.error e, ⟨⟨store, watches⟩, ranks, _, removed⟩) =>
      ((.error e, removed.reverse), ⟨{ store with ranks }, watches⟩)
    | (.ok (), ⟨⟨store, watches⟩, ranks, kept, removed⟩) =>
      ((.ok (), removed.reverse),
        ⟨{ store with ranks := Reduction.reactivate ranks kept }, watches⟩)

end ClauseLearning
