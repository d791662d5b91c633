import ClauseLearning.ClauseStore.Basic
import ClauseLearning.WatchLists

/-!
Storing and removing clauses. Both keep the watch lists in step: a clause is on the lists of its
two watched literals from when it is stored to when it is removed.
-/

namespace ClauseLearning

inductive ClauseOrigin where
  | formula
  | resolution
  deriving DecidableEq, Repr

structure WatchedStore where
  store : ClauseStore
  watches : WatchLists

namespace ClauseStore

/-- The key of the next addition: the latest free slot which has a token left, or else a new slot.
Free slots without one are forgotten on the way, also where no index is left for a new slot. -/
def freshKey (newSlot : Nat) : List ClauseKey → Except Failure ClauseKey × List ClauseKey
  | [] =>
    (if newSlot ≤ ClauseKey.maxIndex then .ok (.addition newSlot 0) else .error .additionKeys, [])
  | last :: rest =>
    match last.renew with
    | .ok key => (.ok key, rest)
    | .error _ => freshKey newSlot rest

def vacate (s : ClauseStore) (i : Nat) : ClauseStore :=
  { s with additions := s.additions.setIfInBounds i none }

def release (s : ClauseStore) (key : ClauseKey) : ClauseStore :=
  { s with vacated := key :: s.vacated, additionCount := s.additionCount - 1 }

def unrank (s : ClauseStore) (i : Nat) : ClauseStore := { s with ranks := (s.ranks.remove i).2 }

end ClauseStore

namespace WatchedStore

def watchClause (w : WatchLists) (c : WatchedClause) : WatchLists :=
  (w.watch c.first c.key).watch c.second c.key

def insertOriginal (value : Atom → Option Bool) (s : WatchedStore) (c : Clause) :
    Except Failure ClauseKey × WatchedStore :=
  if s.store.originals.size ≤ ClauseKey.maxIndex then
    let key := .original s.store.originals.size
    let stored := WatchedClause.ofClause value key c
    (.ok key, { store := { s.store with originals := s.store.originals.push stored }
                watches := watchClause s.watches stored })
  else (.error .originalKeys, s)

def insertAddition (value : Atom → Option Bool) (s : WatchedStore) (c : Clause)
    (blockDistance : Nat) : Except Failure ClauseKey × WatchedStore :=
  match s with
  | ⟨store, watches⟩ =>
    match ClauseStore.freshKey store.additions.size store.vacated with
    | (.error failure, vacated) => (.error failure, ⟨{ store with vacated }, watches⟩)
    | (.ok key, vacated) =>
      let i := key.index
      let stored := WatchedClause.ofClause value key c
      let additions :=
        if i < store.additions.size then store.additions.setIfInBounds i (some stored)
        else store.additions.push (some stored)
      let rank : ClauseRank := ⟨store.bump, blockDistance⟩
      let store := { store with
        additions, vacated
        additionCount := store.additionCount + 1
        ranks := ((store.ranks.add i rank).2.activate i).2 }
      (.ok key, ⟨store, watchClause watches stored⟩)

/-- Stores a clause, unless the limit is reached, the clause is empty or no key is left for it. The
block distance of an addition is that of its levels, where it is not given. -/
def insert (value : Atom → Option Bool) (level : Atom → Option Nat) (s : WatchedStore)
    (c : Clause) (origin : ClauseOrigin) (blockDistance : Option Nat) :
    Except Failure ClauseKey × WatchedStore :=
  if s.store.limit ≤ s.store.totalCount then (.error (.clauseLimit s.store.limit), s)
  else
    match c, origin with
    | [], _ => (.error .emptyClause, s)
    | [l], .formula =>
      (.ok (.originalUnit l),
        { s with store := { s.store with originalUnits := s.store.originalUnits.push l } })
    | [l], .resolution =>
      (.ok (.additionUnit l),
        { s with store := { s.store with additionUnits := s.store.additionUnits.push l } })
    | c, .formula => insertOriginal value s c
    | c, .resolution => insertAddition value s c (blockDistance.getD (c.blockDistance level))

/-- Checked access for a change: `f` changes the clause of a key, and the watch lists with it. -/
@[inline]
def change {α : Type} (s : WatchedStore) (key : ClauseKey)
    (f : WatchedClause → WatchLists → α × WatchedClause × WatchLists) :
    Except Failure α × WatchedStore :=
  match s with
  | ⟨store, watches⟩ =>
    match store.get key with
    | .error failure => (.error failure, ⟨store, watches⟩)
    | .ok c =>
      match f c watches with
      | (answer, c, watches) => (.ok answer, ⟨store.modify key fun _ => c, watches⟩)

def unwatchClause (w : WatchLists) (c : WatchedClause) (key : ClauseKey) :
    Except Failure Unit × WatchLists :=
  match w.unwatch c.first key with
  | (.error e, w) => (.error e, w)
  | (.ok (), w) => w.unwatch c.second key

/-- Removes an addition but for its place on the heap of ranks. Its slot is emptied before its
watches are looked for, and is free only if both are found. -/
def detach (s : WatchedStore) (key : ClauseKey) : Except Failure Unit × WatchedStore :=
  match key with
  | .addition i _ =>
    match s.store.get key with
    | .error e => (.error e, s)
    | .ok c =>
      let store := s.store.vacate i
      match unwatchClause s.watches c key with
      | (.error e, watches) => (.error e, ⟨store, watches⟩)
      | (.ok (), watches) => (.ok (), ⟨store.release key, watches⟩)
  | _ => (.error .unknownIndex, s)

def remove (s : WatchedStore) (key : ClauseKey) : Except Failure Unit × WatchedStore :=
  match s.detach key with
  | (.error e, s) => (.error e, s)
  | (.ok (), s) => (.ok (), { s with store := s.store.unrank key.index })

end WatchedStore

end ClauseLearning
