import ClauseLearning.Proofs.RankOrder

namespace ClauseLearning

/-- A call of a store, or a change made to the watch lists from outside. -/
inductive OpenCall where
  | insert (value : Atom → Option Bool) (level : Atom → Option Nat) (c : Clause)
      (origin : ClauseOrigin) (blockDistance : Option Nat)
  | remove (key : ClauseKey)
  | reduce (source : Atom → Option Source) (count : Nat)
  | raise (key : ClauseKey)
  | decay
  | relist (change : WatchLists → WatchLists)

def OpenCall.addition (c : Clause) (blockDistance : Nat) : OpenCall :=
  .insert (fun _ => none) (fun _ => none) c .resolution (some blockDistance)

namespace RecordedStore

def undergo (r : RecordedStore) : OpenCall → RecordedStore
  | .insert value level c origin blockDistance =>
    match r.state.insert value level c origin blockDistance with
    | (.ok key, state) => ⟨state, r.ledger.issue key c⟩
    | (.error _, state) => ⟨state, r.ledger⟩
  | .remove key =>
    match r.state.remove key with
    | (.ok (), state) => ⟨state, r.ledger.remove key⟩
    | (.error _, state) => ⟨state, r.ledger⟩
  | .reduce source count =>
    match r.state.reduce source count with
    | ((_, removed), state) => ⟨state, removed.foldl Ledger.remove r.ledger⟩
  | .raise key => { r with state := { r.state with store := r.state.store.raise key } }
  | .decay => { r with state := { r.state with store := r.state.store.decay } }
  | .relist change => { r with state := { r.state with watches := change r.state.watches } }

def undergoAll (r : RecordedStore) (calls : List OpenCall) : RecordedStore := calls.foldl undergo r

end RecordedStore

namespace WatchedStore

open ClauseStore

/-- A removal but for the heap of ranks: it is refused before anything is done, or ends at a missing
watch with the slot emptied, or is done. -/
inductive DetachCases (s : WatchedStore) (key : ClauseKey) :
    Except Failure Unit × WatchedStore → Prop
  | refused (failure : Failure)
      (absent : ∀ i token c, key = .addition i token → s.store.get key ≠ .ok c) :
      DetachCases s key (.error failure, s)
  | unlisted {i token : Nat} {c : WatchedClause} (same : key = .addition i token)
      (live : s.store.get key = .ok c) {failure : Failure} {watches : WatchLists}
      (missing : unwatchClause s.watches c key = (.error failure, watches)) :
      DetachCases s key (.error failure, ⟨s.store.vacate i, watches⟩)
  | done {i token : Nat} {c : WatchedClause} (same : key = .addition i token)
      (live : s.store.get key = .ok c) {watches : WatchLists}
      (unwatched : unwatchClause s.watches c key = (.ok (), watches)) :
      DetachCases s key (.ok (), ⟨(s.store.vacate i).release key, watches⟩)

theorem detach_cases (s : WatchedStore) (key : ClauseKey) : s.DetachCases key (s.detach key) := by
  by_cases live : ∃ i token c, key = .addition i token ∧ s.store.get key = .ok c
  · obtain ⟨i, token, c, rfl, live⟩ := live
    simp only [detach, live]
    split
    · rename_i missing
      exact .unlisted rfl live missing
    · rename_i unwatched
      exact .done rfl live unwatched
  · have absent : ∀ i token c, key = .addition i token → s.store.get key ≠ .ok c :=
      fun i token c same found => live ⟨i, token, c, same, found⟩
    obtain ⟨failure, refused⟩ := detach_of_not_live absent
    rw [refused]
    exact .refused failure absent

end WatchedStore

def Ledger.Latest (ledger : Ledger) (i token : Nat) : Prop :=
  ∀ other, .addition i other ∈ ledger.keys → other ≤ token

structure Ledger.Steady (ledger : Ledger) (s : ClauseStore) : Prop where
  stored : ∀ i c, s.additions[i]? = some (some c) → ∃ token, c.key = .addition i token ∧
    c.key ∈ ledger.keys ∧ c.key ∉ ledger.removed ∧ ledger.Latest i token
  free : ∀ i token, .addition i token ∈ s.vacated → ledger.Latest i token
  used : ∀ i token, .addition i token ∈ ledger.keys → i < s.additions.size
  removed : ∀ key ∈ ledger.removed, key ∈ ledger.keys
  vacant : s.Vacant
  counted : s.additions.countP Option.isSome ≤ s.additionCount
  ranks : s.ranks.WellFormed

namespace Ledger.Steady

open ClauseStore

variable {ledger : Ledger} {s s' : ClauseStore} {key : ClauseKey} {c : Clause}

theorem congr (steady : ledger.Steady s) (same : s.SameClauses s')
    (vacated : s'.vacated.Sublist s.vacated) (additionCount : s'.additionCount = s.additionCount)
    (ranks : s'.ranks.WellFormed) : ledger.Steady s' where
  stored := same.additions ▸ steady.stored
  free i token member := steady.free i token (vacated.subset member)
  used := same.additions ▸ steady.used
  removed := steady.removed
  vacant := by
    refine ⟨fun key member => ?_, (vacated.map _).nodup steady.vacant.distinct⟩
    rw [same.additions]
    exact steady.vacant.empty key (vacated.subset member)
  counted := by rw [same.additions, additionCount]; exact steady.counted
  ranks

theorem latest_issue {i token : Nat} (latest : ledger.Latest i token)
    (le : ∀ other, key = .addition i other → other ≤ token) :
    (ledger.issue key c).Latest i token := by
  intro other member
  rcases List.mem_cons.1 member with same | member
  · exact le other same.symm
  · exact latest other member

theorem issue_other (steady : ledger.Steady s) (other : ∀ i token, key ≠ .addition i token)
    (additions : s'.additions = s.additions) (vacated : s'.vacated = s.vacated)
    (additionCount : s'.additionCount = s.additionCount) (ranks : s'.ranks = s.ranks) :
    (ledger.issue key c).Steady s' where
  stored i d slot := by
    obtain ⟨token, same, member, kept, latest⟩ := steady.stored i d (additions ▸ slot)
    exact ⟨token, same, List.mem_cons_of_mem _ member, kept,
      latest_issue latest fun token' impossible => absurd impossible (other i token')⟩
  free i token member := latest_issue (steady.free i token (vacated ▸ member))
    fun token' impossible => absurd impossible (other i token')
  used i token member := by
    rw [additions]
    exact steady.used i token ((List.mem_cons.1 member).resolve_left (other i token).symm)
  removed old member := List.mem_cons_of_mem _ (steady.removed old member)
  vacant := by
    refine ⟨?_, vacated ▸ steady.vacant.distinct⟩
    rw [vacated, additions]
    exact steady.vacant.empty
  counted := by
    rw [additions, additionCount]
    exact steady.counted
  ranks := ranks ▸ steady.ranks

theorem lt_of_fresh (steady : ledger.Steady s) {vacated : List ClauseKey} {i token : Nat}
    (fresh : freshKey s.additions.size s.vacated = (.ok (.addition i token), vacated)) :
    ∀ other, .addition i other ∈ ledger.keys → other < token := by
  intro other member
  -- The slot is new, or its last key is on the list of free slots.
  rcases (freshKey_spec fresh).2 with new | ⟨last, listed, renewed, -⟩
  · obtain ⟨rfl, rfl⟩ := ClauseKey.addition.inj new.1
    exact absurd (steady.used _ other member) (Nat.lt_irrefl _)
  · obtain ⟨j, old, rfl, -, next⟩ := ClauseKey.renew_eq_ok renewed
    obtain ⟨rfl, rfl⟩ := ClauseKey.addition.inj next
    exact Nat.lt_succ_of_le (steady.free i old listed other member)

theorem issue_addition (steady : ledger.Steady s) {i token : Nat} {d : WatchedClause}
    (newest : ∀ other, .addition i other ∈ ledger.keys → other < token)
    (le : i ≤ s.additions.size) (free : ∀ d, s.additions[i]? ≠ some (some d))
    (key : d.key = .addition i token) (additions : s'.additions = fill s.additions i d)
    (vacated : s'.vacated ⊆ s.vacated) (vacant : s'.Vacant)
    (additionCount : s'.additionCount = s.additionCount + 1) (ranks : s'.ranks.WellFormed) :
    (ledger.issue (.addition i token) c).Steady s' where
  stored j e slot := by
    rw [additions, getElem?_fill le] at slot
    split at slot
    · rename_i same
      obtain rfl := Option.some.inj (Option.some.inj slot)
      subst same
      have kept : .addition j token ∉ ledger.removed := fun removed =>
        Nat.lt_irrefl _ (newest token (steady.removed _ removed))
      refine ⟨token, key, key ▸ List.mem_cons_self, key ▸ kept, latest_issue ?_ ?_⟩
      · exact fun other member => Nat.le_of_lt (newest other member)
      · exact fun other same => Nat.le_of_eq (ClauseKey.addition.inj same).2.symm
    · rename_i apart
      obtain ⟨old, same, member, kept, latest⟩ := steady.stored j e slot
      exact ⟨old, same, List.mem_cons_of_mem _ member, kept, latest_issue latest
        fun other impossible => absurd (ClauseKey.addition.inj impossible).1.symm apart⟩
  free j old member := by
    refine latest_issue (steady.free j old (vacated member)) fun other same => ?_
    exact absurd (ClauseKey.addition.inj same).1.symm (vacant.ne_filled additions le member)
  used j old member := by
    rw [additions, size_fill le]
    rcases List.mem_cons.1 member with same | member
    · obtain ⟨rfl, rfl⟩ := ClauseKey.addition.inj same
      omega
    · have := steady.used j old member
      omega
  removed old member := List.mem_cons_of_mem _ (steady.removed old member)
  vacant
  counted := by
    rw [additions, countP_fill free, additionCount]
    exact Nat.succ_le_succ steady.counted
  ranks

theorem insert (steady : ledger.Steady s) {value : Atom → Option Bool}
    (inserts : s.Inserts value c key s') (wellFormed : s'.ranks.WellFormed) :
    (ledger.issue key c).Steady s' := by
  cases inserts with
  | unit l origin =>
    refine steady.issue_other (fun i token => ?_) ?_ ?_ ?_ ?_
    all_goals cases origin
    all_goals first | rfl | simp [unitKey]
  | original two_le => exact steady.issue_other (fun i token => by simp) rfl rfl rfl rfl
  | addition two_le fresh ranks =>
    obtain ⟨i, token, rfl, le, free, vacant⟩ := steady.vacant.freshKey fresh
    exact steady.issue_addition (steady.lt_of_fresh fresh) le free rfl rfl
      (freshKey_spec fresh).1.subset (vacant _ _ rfl rfl) rfl wellFormed

theorem vacate (steady : ledger.Steady s) (i : Nat) : ledger.Steady (s.vacate i) where
  stored j d slot := steady.stored j d ((s.additions_vacate i j d).1 slot).2
  free := steady.free
  used j token member := by simpa [ClauseStore.vacate] using steady.used j token member
  removed := steady.removed
  vacant := by
    refine ⟨fun key member => ?_, steady.vacant.distinct⟩
    obtain ⟨j, token, rfl, empty⟩ := steady.vacant.empty key member
    refine ⟨j, token, rfl, ?_⟩
    rw [ClauseStore.vacate, Array.getElem?_setIfInBounds]
    split
    · rename_i same
      rw [if_pos (same ▸ (Array.getElem?_eq_some_iff.1 empty).1)]
    · exact empty
  counted := by
    refine Nat.le_trans ?_ steady.counted
    simp only [ClauseStore.vacate, Array.setIfInBounds]
    split
    · rw [Array.countP_set]
      exact Nat.sub_le _ _
    · exact Nat.le_refl _
  ranks := steady.ranks

theorem release (steady : ledger.Steady s) {i token : Nat} {d : WatchedClause}
    (live : s.get (.addition i token) = .ok d) :
    (ledger.remove (.addition i token)).Steady ((s.vacate i).release (.addition i token)) := by
  obtain ⟨slot, same⟩ := get_addition.1 live
  obtain ⟨_, same', member, -, latest⟩ := steady.stored i d slot
  obtain ⟨-, rfl⟩ := ClauseKey.addition.inj (same.symm.trans same')
  have vacated := steady.vacate i
  exact {
    stored := fun j e slot' => by
      obtain ⟨old, key, member, kept, latest⟩ := vacated.stored j e slot'
      refine ⟨old, key, member, fun removed => ?_, latest⟩
      rcases List.mem_cons.1 removed with same | removed
      · obtain ⟨rfl, -⟩ := ClauseKey.addition.inj (key.symm.trans same)
        exact ((s.additions_vacate _ _ e).1 slot').1 rfl
      · exact kept removed
    free := fun j old listed => by
      rcases List.mem_cons.1 listed with same | listed
      · obtain ⟨rfl, rfl⟩ := ClauseKey.addition.inj same
        exact latest
      · exact vacated.free j old listed
    used := vacated.used
    removed := fun key removed => by
      rcases List.mem_cons.1 removed with rfl | removed
      · exact same ▸ member
      · exact vacated.removed key removed
    vacant := steady.vacant.release slot
    counted := by
      change (s.vacate i).additions.countP Option.isSome ≤ s.additionCount - 1
      rw [countP_vacate slot]
      exact Nat.sub_le_sub_right steady.counted 1
    ranks := vacated.ranks }

theorem unrank (steady : ledger.Steady s) (i : Nat) : ledger.Steady (s.unrank i) :=
  steady.congr ⟨rfl, rfl, rfl, rfl⟩ (.refl _) rfl (steady.ranks.remove i)

theorem raise (steady : ledger.Steady s) (key : ClauseKey) : ledger.Steady (s.raise key) := by
  obtain ⟨same, vacated, reordered⟩ := Solver.raise_same s key
  exact steady.congr same (vacated ▸ .refl _) (s.preserves_raise key).additionCount
    (reordered.wellFormed steady.ranks)

theorem decay (steady : ledger.Steady s) : ledger.Steady s.decay := by
  obtain ⟨same, vacated, reordered⟩ := Solver.decay_same s
  exact steady.congr same (vacated ▸ .refl _) s.preserves_decay.additionCount
    (reordered.wellFormed steady.ranks)

theorem new (settings : Settings) : ({} : Ledger).Steady (Solver.new settings).clauses.store where
  stored i c slot := by simp [Solver.new] at slot
  free i token member := absurd member List.not_mem_nil
  used i token member := absurd member List.not_mem_nil
  removed key member := absurd member List.not_mem_nil
  vacant := ⟨fun key member => absurd member List.not_mem_nil, .nil⟩
  counted := Nat.le_refl 0
  ranks := (Solver.new_coherent settings).orderly.ranked.wellFormed

section Removing

variable {state state' : WatchedStore}

theorem detach_ok (steady : ledger.Steady state.store)
    (detached : state.detach key = (.ok (), state')) :
    (ledger.remove key).Steady state'.store := by
  have cases := state.detach_cases key
  rw [detached] at cases
  obtain - | - | ⟨rfl, live, -⟩ := cases
  exact steady.release live

theorem detach_error (steady : ledger.Steady state.store) {failure : Failure}
    (refused : state.detach key = (.error failure, state')) : ledger.Steady state'.store := by
  have cases := state.detach_cases key
  rw [refused] at cases
  obtain - | ⟨rfl, live, -⟩ | - := cases
  · exact steady
  · exact steady.vacate _

theorem visit (source : Atom → Option Source) (visits count : Nat) (r : Reduction) :
    ∀ ledger : Ledger, ledger.Steady r.state.store → ∃ keys : List ClauseKey,
      (Reduction.visit source visits count r).2.removed = keys.reverse ++ r.removed ∧
      (keys.foldl Ledger.remove ledger).Steady
        (Reduction.visit source visits count r).2.state.store := by
  fun_induction Reduction.visit source visits count r with
  | case1 => exact fun ledger steady => ⟨[], rfl, steady⟩
  | case2 => exact fun ledger steady => ⟨[], rfl, steady⟩
  | case3 => exact fun ledger steady => ⟨[], rfl, steady⟩
  | case4 => exact fun ledger steady => ⟨[], rfl, steady⟩
  | case5 => exact fun ledger steady => ⟨[], rfl, steady⟩
  | case6 visits count state ranks kept removed i rest popped c slot key rank isProtected ih =>
    exact ih
  | case7 visits count state ranks kept removed i rest popped c slot key rank unprotected failure
      state' refused =>
    exact fun ledger steady => ⟨[], rfl, Ledger.Steady.detach_error steady refused⟩
  | case8 visits count state ranks kept removed i rest popped c slot key rank unprotected state'
      detached ih =>
    intro ledger steady
    obtain ⟨keys, listed, steady'⟩ := ih _ (Ledger.Steady.detach_ok steady detached)
    exact ⟨key :: keys, by simpa using listed, steady'⟩

theorem reduce (steady : ledger.Steady state.store) (source : Atom → Option Source) (count : Nat) :
    ((state.reduce source count).1.2.foldl Ledger.remove ledger).Steady
      (state.reduce source count).2.store := by
  obtain ⟨store, watches⟩ := state
  let start : Reduction :=
    { state := ⟨{ store with ranks := { blank := {} } }, watches⟩, ranks := store.ranks }
  have wellFormed := Reduction.visit_ranks (fun _ before => before.popMax) source
    store.ranks.activeCount count start steady.ranks
  have apart : ledger.Steady start.state.store :=
    steady.congr ⟨rfl, rfl, rfl, rfl⟩ (.refl _) rfl ⟨fun _ _ => by simp [start], rfl⟩
  have visited := visit source store.ranks.activeCount count start ledger apart
  simp only [WatchedStore.reduce]
  cases answer : Reduction.visit source store.ranks.activeCount count start with
  | mk result r =>
    rw [answer] at wellFormed visited
    obtain ⟨⟨store', watches'⟩, ranks, kept, removed⟩ := r
    obtain ⟨keys, listed, steady'⟩ := visited
    obtain rfl : removed.reverse = keys := by simpa [start] using congrArg List.reverse listed
    cases result with
    | error failure => exact Ledger.Steady.congr steady' ⟨rfl, rfl, rfl, rfl⟩ (.refl _) rfl wellFormed
    | ok _ =>
      exact Ledger.Steady.congr steady' ⟨rfl, rfl, rfl, rfl⟩ (.refl _) rfl
        (Reduction.reactivate_wellFormed wellFormed kept)

end Removing

end Ledger.Steady

namespace RecordedStore

theorem steady_undergo (r : RecordedStore) (steady : r.ledger.Steady r.state.store)
    (call : OpenCall) : (r.undergo call).ledger.Steady (r.undergo call).state.store := by
  cases call with
  | insert value level c origin blockDistance =>
    rcases r.state.insert_ok_or_error value level c origin blockDistance with
      ⟨key, state, answer⟩ | ⟨failure, state, answer, forgets⟩
    · simp only [undergo, answer]
      have ranks := r.state.ranks_insert value level c origin blockDistance
      rw [answer] at ranks
      refine steady.insert (WatchedStore.insert_inserts answer) ?_
      rcases ranks with same | ⟨i, distance, added⟩
      · exact same ▸ steady.ranks
      · exact added ▸ ((IndexedHeap.add_spec steady.ranks i _).1.activate i).1
    · simp only [undergo, answer]
      refine steady.congr forgets.same forgets.sublist ?_ ?_
      · rw [forgets.store]
      · rw [forgets.store]
        exact steady.ranks
  | remove key =>
    simp only [undergo, WatchedStore.remove]
    cases detached : r.state.detach key with
    | mk answer state =>
      cases answer with
      | ok _ => exact (steady.detach_ok detached).unrank _
      | error failure => exact steady.detach_error detached
  | reduce source count => exact steady.reduce source count
  | raise key => exact steady.raise key
  | decay => exact steady.decay
  | relist change => exact steady

theorem steady_undergoAll (settings : Settings) (calls : List OpenCall) :
    ((new settings).undergoAll calls).ledger.Steady
      ((new settings).undergoAll calls).state.store := by
  suffices steady : ∀ r : RecordedStore, r.ledger.Steady r.state.store →
      (r.undergoAll calls).ledger.Steady (r.undergoAll calls).state.store from
    steady _ (.new settings)
  induction calls with
  | nil => exact fun r steady => steady
  | cons call rest ih => exact fun r steady => ih _ (r.steady_undergo steady call)

end RecordedStore

end ClauseLearning
