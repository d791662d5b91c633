import ClauseLearning.Failure

/-!
Watch lists: for each literal the keys of the clauses which watch it, in the order they began to.
The place of a key matters, since it decides the order in which clauses are visited.
-/

namespace ClauseLearning

/-- The lists, at the codes of their literals. -/
structure WatchLists where
  lists : Array (Array ClauseKey) := #[]

namespace WatchLists

def grow (w : WatchLists) (atom : Atom) : WatchLists :=
  let missing := 2 * (atom + 1) - w.lists.size
  if missing = 0 then w
  else ⟨w.lists ++ Array.replicate missing #[]⟩

def watchers (w : WatchLists) (l : Literal) : Array ClauseKey := w.lists.getD l.code #[]

def watch (w : WatchLists) (l : Literal) (key : ClauseKey) : WatchLists :=
  let w := w.grow l.atom
  ⟨w.lists.modify l.code (·.push key)⟩

def removeAt (list : Array ClauseKey) (i : Nat) : Array ClauseKey :=
  (list.swapIfInBounds i (list.size - 1)).pop

/-- Takes a key off the list of a literal; the last key of the list fills the hole. -/
def unwatch (w : WatchLists) (l : Literal) (key : ClauseKey) : Except Failure Unit × WatchLists :=
  match w.lists[l.code]? with
  | none => (.error .missingWatchList, w)
  | some list =>
    match list.idxOf? key with
    | none => (.error (.missingWatch l key), w)
    | some i => (.ok (), ⟨w.lists.modify l.code (removeAt · i)⟩)

def take (w : WatchLists) (l : Literal) : Array ClauseKey × WatchLists :=
  (w.watchers l, ⟨w.lists.setIfInBounds l.code #[]⟩)

/-- Puts a list back. Keys which were added meanwhile follow it. -/
def restore (w : WatchLists) (l : Literal) (list : Array ClauseKey) : WatchLists :=
  let w := w.grow l.atom
  ⟨w.lists.modify l.code (list ++ ·)⟩

end WatchLists

end ClauseLearning
