import ClauseLearning.Proofs.HeldWatches
import ClauseLearning.Proofs.InactiveValues

/-!
Activities are kept by slot, and a bump does not ask whether its key is stale. Where the slot is in
use again, the bump goes to the clause which is there now. Where it is empty no clause notices, but
for a rescale, which goes to all of them alike.
-/

namespace ClauseLearning

def ClauseRank.rescaled (rank : ClauseRank) : ClauseRank :=
  { rank with activity := rank.activity * (1.0 / ClauseStore.activityLimit) }

namespace ClauseStore

open IndexedHeap

variable {s s' : ClauseStore} {i token : Nat}

theorem rank?_eq_map (same : s.SameClauses s') {f : ClauseRank → ClauseRank}
    (values : ∀ (j : Nat) (c : WatchedClause), s.additions[j]? = some (some c) →
      s'.ranks.value? j = (s.ranks.value? j).map f) (key : ClauseKey) :
    s'.rank? key = (s.rank? key).map f := by
  cases key with
  | addition j token =>
    simp only [rank?, same.get_eq]
    cases live : s.get (.addition j token) with
    | ok c => exact values j c (get_addition.1 live).1
    | error _ => rfl
  | _ => rfl

theorem raise_of_not_rescales (kept : s.raiseRescales (.addition i token) = false) :
    s.raise (.addition i token) = { s with
      ranks := (s.ranks.modifyValue i fun r =>
        { r with activity := r.activity + s.bump }).settle i } := by
  simp only [raise, kept]
  rfl

theorem rank?_raise_empty (empty : s.additions[i]? = some none)
    (kept : s.raiseRescales (.addition i token) = false) (key : ClauseKey) :
    (s.raise (.addition i token)).rank? key = s.rank? key := by
  have same := rank?_eq_map (f := id) (Solver.raise_same s (.addition i token)).1
    (fun j c slot => ?_) key
  · rwa [Option.map_id_fun, id_eq] at same
  have apart : j ≠ i := by
    rintro rfl
    cases empty.symm.trans slot
  rw [raise_of_not_rescales kept, Option.map_id_fun, id_eq, value?, values_settle]
  exact (value?_modifyValue ..).trans (if_neg apart)

theorem rank?_raise_rescales (empty : s.additions[i]? = some none)
    (rescales : s.raiseRescales (.addition i token) = true) (key : ClauseKey) :
    (s.raise (.addition i token)).rank? key = (s.rank? key).map .rescaled := by
  refine rank?_eq_map (Solver.raise_same s _).1 (fun j c slot => ?_) key
  have apart : j ≠ i := by
    rintro rfl
    cases empty.symm.trans slot
  simp only [raise, rescales, if_true, value?, values_settle]
  refine ((value?_modifyValue ..).trans (if_neg apart)).trans ?_
  simp only [rescale, value?, values_heapify, mapValues, Array.getElem?_map]
  rfl

end ClauseStore

namespace WatchedStore

open ClauseStore

theorem reduce_raise_empty {s : WatchedStore} {i token : Nat}
    (wellFormed : s.store.ranks.WellFormed) (inactive : s.store.ranks.isActive i = false)
    (kept : s.store.raiseRescales (.addition i token) = false) (source : Atom → Option Source)
    (count : Nat) :
    (({ s with store := s.store.raise (.addition i token) } : WatchedStore).reduce source count).1 =
      (s.reduce source count).1 := by
  have absent : i ∉ s.store.ranks.order := by
    rw [← wellFormed.isActive_iff, inactive]
    exact Bool.false_ne_true
  rw [raise_of_not_rescales kept, IndexedHeap.settle_of_not_mem
    ((IndexedHeap.modifyValue_reordered ..).wellFormed wellFormed) absent]
  have reduced := reduce_modifyRank wellFormed absent
    (fun r => { r with activity := r.activity + s.store.bump }) source count
  rw [Prod.ext_iff] at reduced
  exact reduced.1

/-- What a bump of the addition does whose key was removed. -/
inductive StaleRaise (s : WatchedStore) (i token : Nat) : Prop
  | renewed (c : WatchedClause) (slot : s.store.additions[i]? = some (some c))
      (other : c.key ≠ .addition i token)
      (same : s.store.raise (.addition i token) = s.store.raise c.key)
  | unheard (slot : s.store.additions[i]? = some none)
      (kept : s.store.raiseRescales (.addition i token) = false)
      (ranks : ∀ key, (s.store.raise (.addition i token)).rank? key = s.store.rank? key)
      (reduces : s.store.ranks.isActive i = false → ∀ source count,
        (({ s with store := s.store.raise (.addition i token) } : WatchedStore).reduce
          source count).1 = (s.reduce source count).1)
  | rescaled (slot : s.store.additions[i]? = some none)
      (rescales : s.store.raiseRescales (.addition i token) = true)
      (ranks : ∀ key, (s.store.raise (.addition i token)).rank? key =
        (s.store.rank? key).map .rescaled)

theorem staleRaise {s : WatchedStore} {ledger : Ledger} {i token : Nat}
    (steady : ledger.Steady s.store) (stale : .addition i token ∈ ledger.removed) :
    s.StaleRaise i token := by
  have inside := steady.used i token (steady.removed _ stale)
  cases slot : s.store.additions[i] with
  | some c =>
    have found : s.store.additions[i]? = some (some c) :=
      Array.getElem?_eq_some_iff.2 ⟨inside, slot⟩
    -- The key of the clause is not among those removed, so it is another, of the same slot.
    obtain ⟨token', key, -, live, -⟩ := steady.stored i c found
    refine .renewed c found (fun same => live (same ▸ stale)) ?_
    rw [key]
    rfl
  | none =>
    have empty : s.store.additions[i]? = some none := Array.getElem?_eq_some_iff.2 ⟨inside, slot⟩
    cases rescales : s.store.raiseRescales (.addition i token) with
    | true => exact .rescaled empty rescales (rank?_raise_rescales empty rescales)
    | false =>
      exact .unheard empty rescales (rank?_raise_empty empty rescales) fun inactive =>
        reduce_raise_empty steady.ranks inactive rescales

end WatchedStore

namespace RecordedStore

/-- After any calls of a store, a bump by the key of an addition that was removed is a bump of the
addition which is in its slot now. Without one it changes no reduction, or rescales all activities.
An empty slot is not on the heap if only the store changed its lists. -/
theorem undergoAll_staleRaise (settings : Settings) (calls : List OpenCall) (i token : Nat)
    (stale : .addition i token ∈ ((new settings).undergoAll calls).ledger.removed) :
    ((new settings).undergoAll calls).state.StaleRaise i token ∧
      ((∀ call ∈ calls, call.IsOwn) →
        ((new settings).undergoAll calls).state.store.additions[i]? = some none →
        ((new settings).undergoAll calls).state.store.ranks.isActive i = false) := by
  have steady := steady_undergoAll settings calls
  refine ⟨WatchedStore.staleRaise steady stale, fun own empty => ?_⟩
  rw [← Bool.not_eq_true, steady.ranks.isActive_iff]
  intro active
  obtain ⟨c, slot⟩ := (tidy_undergoAll settings own).active i active
  cases empty.symm.trans slot

def reusingCalls : List OpenCall :=
  [.addition [1, 2] 3, .addition [1, 3] 3, .remove (.addition 0 0), .addition [2, 3] 3]

theorem reusingCalls_staleRaise :
    .addition 0 0 ∈ ((new {}).undergoAll reusingCalls).ledger.removed ∧
      ((new {}).undergoAll reusingCalls).state.StaleRaise 0 0 := by
  have stale : .addition 0 0 ∈ ((new {}).undergoAll reusingCalls).ledger.removed := by
    decide +kernel
  exact ⟨stale, (undergoAll_staleRaise {} reusingCalls 0 0 stale).1⟩

/-- The removed key leads nowhere, but a bump by it makes the clause in its slot the more active of
two, so a reduction removes the other one. -/
theorem reusingCalls_misled :
    let s := ((new {}).undergoAll reusingCalls).state
    let raised : WatchedStore := { s with store := s.store.raise (.addition 0 0) }
    .addition 0 0 ∈ ((new {}).undergoAll reusingCalls).ledger.removed ∧
      s.store.get (.addition 0 0) = .error .staleToken ∧
      (s.store.rank? (.addition 0 1)).map ClauseRank.activity = some 1.0 ∧
      (s.store.rank? (.addition 1 0)).map ClauseRank.activity = some 1.0 ∧
      (raised.store.rank? (.addition 0 1)).map ClauseRank.activity = some 2.0 ∧
      (raised.store.rank? (.addition 1 0)).map ClauseRank.activity = some 1.0 ∧
      (s.reduce (fun _ => none) 1).1 = (.ok (), [.addition 0 1]) ∧
      (raised.reduce (fun _ => none) 1).1 = (.ok (), [.addition 1 0]) := by
  decide +kernel

end RecordedStore

end ClauseLearning
