import ClauseLearning.Proofs.HeldWatches

namespace ClauseLearning

structure ClauseStore.Empties (s s' : ClauseStore) (i : Nat) : Prop where
  slots : ∀ j, s'.additions[j]? = if j = i then some none else s.additions[j]?
  originals : s'.originals = s.originals
  originalUnits : s'.originalUnits = s.originalUnits
  additionUnits : s'.additionUnits = s.additionUnits
  values : s'.ranks.values = s.ranks.values

namespace WatchedStore

open ClauseStore

/-- What a removal may answer and leave. Which it is, is decided by the key and the lists. -/
inductive Removal (s : WatchedStore) (key : ClauseKey) : Except Failure Unit × WatchedStore → Prop
  | refused (failure : Failure)
      (absent : ∀ i token c, key = .addition i token → s.store.get key ≠ .ok c) :
      Removal s key (.error failure, s)
  | done {i token : Nat} {c : WatchedClause} {s' : WatchedStore} (same : key = .addition i token)
      (live : s.store.get key = .ok c) (held : s.watches.Holds [c.first, c.second] key)
      (empties : s.store.Empties s'.store i)
      (count : s'.store.additionCount + 1 = s.store.additionCount)
      (free : s'.store.vacated = key :: s.store.vacated)
      (active : ∀ j, s'.store.ranks.isActive j = true ↔
        j ≠ i ∧ s.store.ranks.isActive j = true)
      (lists : s.watches.Without s'.watches [c.first, c.second] key) :
      Removal s key (.ok (), s')
  | torn {i token : Nat} {c : WatchedClause} {s' : WatchedStore} (same : key = .addition i token)
      (live : s.store.get key = .ok c) (missing : ¬s.watches.Holds [c.first, c.second] key)
      {failure : Failure} (text : failure.text = "ClauseDB(MissingWatch)")
      (empties : s.store.Empties s'.store i)
      (count : s'.store.additionCount = s.store.additionCount)
      (free : s'.store.vacated = s.store.vacated)
      (ranks : s'.store.ranks = s.store.ranks)
      (lists : s'.watches = s.watches ∨ s.watches.Without s'.watches [c.first] key) :
      Removal s key (.error failure, s')

variable {s : WatchedStore} {key : ClauseKey} {ledger : Ledger}

theorem empties_vacate {store : ClauseStore} {i : Nat} {c : WatchedClause}
    (slot : store.additions[i]? = some (some c)) : store.Empties (store.vacate i) i where
  slots j := by
    simp only [vacate, Array.getElem?_setIfInBounds, eq_comm (a := i),
      (Array.getElem?_eq_some_iff.1 slot).1, if_true]
  originals := rfl
  originalUnits := rfl
  additionUnits := rfl
  values := rfl

theorem remove_removal (steady : ledger.Steady s.store) (key : ClauseKey) :
    s.Removal key (s.remove key) := by
  by_cases live : ∃ i token c, key = .addition i token ∧ s.store.get key = .ok c
  · obtain ⟨i, token, c, rfl, live⟩ := live
    obtain ⟨slot, -⟩ := get_addition.1 live
    have empties := empties_vacate slot
    rcases unwatchClause_cases s.watches c (.addition i token) with
      ⟨held, watches, unwatched, lists⟩ | ⟨missing, failure, watches, stopped, text, lists⟩
    · have removed : s.remove (.addition i token) =
          (.ok (), ⟨((s.store.vacate i).release (.addition i token)).unrank i, watches⟩) := by
        simp only [remove, detach, live, unwatched, ClauseKey.index]
      -- One less is counted, as the slot in use is among those counted.
      have used : 0 < s.store.additionCount :=
        Nat.lt_of_lt_of_le (Array.countP_pos_iff.2 ⟨some c, Array.mem_of_getElem? slot, rfl⟩)
          steady.counted
      rw [removed]
      refine .done rfl live held ⟨empties.slots, rfl, rfl, rfl, s.store.ranks.values_remove i⟩
        (Nat.sub_add_cancel used) rfl (fun j => ?_) lists
      change (s.store.ranks.remove i).2.isActive j = true ↔ _
      rw [(steady.ranks.remove i).isActive_iff, steady.ranks.isActive_iff,
        IndexedHeap.mem_remove_iff steady.ranks, and_comm]
    · have removed : s.remove (.addition i token) =
          (.error failure, ⟨s.store.vacate i, watches⟩) := by
        simp only [remove, detach, live, stopped]
      rw [removed]
      exact .torn rfl live missing text empties rfl rfl rfl lists
  · have absent : ∀ i token c, key = .addition i token → s.store.get key ≠ .ok c :=
      fun i token c same found => live ⟨i, token, c, same, found⟩
    obtain ⟨failure, refused⟩ := remove_of_not_live absent
    rw [refused]
    exact .refused failure absent

end WatchedStore

namespace RecordedStore

/-- Whatever calls were made of a store and whatever was done to its lists, a removal is refused,
takes the clause with its watches, or ends at a missing watch. If only the store changed its lists,
none is missing. -/
theorem undergoAll_removal (settings : Settings) (calls : List OpenCall) (key : ClauseKey) :
    ((new settings).undergoAll calls).state.Removal key
        (((new settings).undergoAll calls).state.remove key) ∧
      ((∀ call ∈ calls, call.IsOwn) → ∀ i token c, key = .addition i token →
        ((new settings).undergoAll calls).state.store.get key = .ok c →
        (((new settings).undergoAll calls).state.remove key).1 = .ok ()) := by
  refine ⟨WatchedStore.remove_removal (steady_undergoAll settings calls) key, ?_⟩
  rintro own i token c rfl live
  obtain ⟨s', detached, -⟩ := (tidy_undergoAll settings own).detach live
  simp only [WatchedStore.remove, detached]

theorem repeatedLiteral_removal :
    (∀ call ∈ [OpenCall.addition [1, 1] 2], call.IsOwn) ∧
      (((new {}).undergoAll [.addition [1, 1] 2]).state.remove (.addition 0 0)).1 = .ok () ∧
      (((new {}).undergoAll [.addition [1, 1] 2]).state.remove (.addition 0 0)).2.watches.lists =
        #[#[], #[], #[], #[]] := by
  have own : ∀ call ∈ [OpenCall.addition [1, 1] 2], call.IsOwn := by
    simp [OpenCall.addition, OpenCall.IsOwn]
  obtain ⟨-, removed⟩ := undergoAll_removal {} [.addition [1, 1] 2] (.addition 0 0)
  exact ⟨own, removed own 0 0 ⟨.addition 0 0, #[1, 1], 1⟩ rfl (by decide +kernel),
    by decide +kernel⟩

def unwatchedCalls : List OpenCall :=
  [.addition [1, 2] 2, .relist fun w => (w.unwatch 1 (.addition 0 0)).2]

/-- The removal fails, and the clause is gone. It is counted and ranked still, its slot is not free,
and a reduction fails at it though it would have kept the clause. -/
theorem unwatchedCalls_torn :
    ((new {}).undergoAll unwatchedCalls).state.store.longAdditions.map WatchedClause.clause =
        [[1, 2]] ∧
      (((new {}).undergoAll unwatchedCalls).state.reduce (fun _ => none) 1).1 = (.ok (), []) ∧
      let (answer, torn) := ((new {}).undergoAll unwatchedCalls).state.remove (.addition 0 0)
      answer = .error (.missingWatch 1 (.addition 0 0)) ∧ torn.store.additions = #[none] ∧
        torn.store.additionCount = 1 ∧ torn.store.vacated = [] ∧
        torn.store.ranks.isActive 0 = true ∧
        (torn.reduce (fun _ => none) 1).1 = (.error (.missingAddition 0), []) := by
  decide +kernel

end RecordedStore

end ClauseLearning
