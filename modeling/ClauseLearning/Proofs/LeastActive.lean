import ClauseLearning.Proofs.ActivityRange
import ClauseLearning.Proofs.Calls

namespace ClauseLearning

open ClauseStore

namespace ClauseStore

/-- Whether the addition of a key is above the bound on block distances and is not why a literal is
true. -/
def isRemovable (source : Atom → Option Source) (s : ClauseStore) (key : ClauseKey) : Bool :=
  match s.rank? key with
  | some rank => decide (s.blockDistanceBound < rank.blockDistance) && !s.isReason source key
  | none => false

/-- The addition of a key is less active than that of another, or as active and in a lower slot. -/
def Sooner (s : ClauseStore) (key other : ClauseKey) : Prop :=
  ∃ rank ∈ s.rank? key, ∃ rank' ∈ s.rank? other, rank.activity < rank'.activity ∨
    ¬rank'.activity < rank.activity ∧ key.index < other.index

/-- The keys of the additions which may be removed, each once, in the order of their removal. -/
structure RemovalOrder (source : Atom → Option Source) (s : ClauseStore) (keys : List ClauseKey) :
    Prop where
  nodup : keys.Nodup
  mem_iff : ∀ key, key ∈ keys ↔ s.isRemovable source key = true
  pairwise : keys.Pairwise s.Sooner

def keyAt? (s : ClauseStore) (i : Nat) : Option ClauseKey :=
  (s.additions[i]?).join.map WatchedClause.key

variable {source : Atom → Option Source} {s s' : ClauseStore} {proper : Literal → Prop}
  {key other : ClauseKey} {i j : Nat}

theorem rank?_eq_some {rank : ClauseRank} (ranked : s.rank? key = some rank) :
    ∃ i token c, key = .addition i token ∧ s.get key = .ok c ∧ s.ranks.value? i = some rank := by
  unfold rank? at ranked
  split at ranked
  · rename_i i token c live
    exact ⟨i, token, c, rfl, live, ranked⟩
  · cases ranked

theorem rank?_congr (clauses : ∀ c, s'.get key = .ok c ↔ s.get key = .ok c)
    (values : s'.ranks.values = s.ranks.values) : s'.rank? key = s.rank? key := by
  cases live : s.get key with
  | ok c =>
    have live' : s'.get key = .ok c := (clauses c).2 live
    cases key <;> simp only [rank?, live, live', IndexedHeap.value?, values]
  | error failure =>
    cases live' : s'.get key with
    | ok c => cases live.symm.trans ((clauses c).1 live')
    | error failure' => cases key <;> simp only [rank?, live, live']

theorem keyAt?_eq_some (wellFormed : s.WellFormed proper) :
    s.keyAt? i = some key ↔ ∃ token c, key = .addition i token ∧ s.get key = .ok c := by
  simp only [keyAt?, Option.map_eq_some_iff, Option.join_eq_some_iff]
  constructor
  · rintro ⟨c, slot, rfl⟩
    obtain ⟨token, key⟩ := wellFormed.slotted i c slot
    exact ⟨token, c, key, key ▸ get_addition.2 ⟨slot, key⟩⟩
  · rintro ⟨token, c, rfl, live⟩
    obtain ⟨slot, key⟩ := get_addition.1 live
    exact ⟨c, slot, key⟩

theorem Orderly.removalOrder (orderly : s.Orderly proper) {ranked : List Nat}
    (inOrder : s.ranks.InOrder ranked) (source : Atom → Option Source) :
    s.RemovalOrder source ((ranked.filterMap s.keyAt?).filter (s.isRemovable source)) where
  nodup := by
    refine List.Nodup.filter _ (inOrder.nodup.filterMap fun i j key first second => ?_)
    obtain ⟨token, c, rfl, -⟩ := (keyAt?_eq_some orderly.wellFormed).1 first
    obtain ⟨token', c', same, -⟩ := (keyAt?_eq_some orderly.wellFormed).1 second
    exact (ClauseKey.addition.inj same).1
  mem_iff key := by
    rw [List.mem_filter, List.mem_filterMap, and_iff_right_iff_imp]
    intro removable
    unfold isRemovable at removable
    split at removable
    · rename_i rank ranked
      obtain ⟨i, token, c, rfl, live, -⟩ := rank?_eq_some ranked
      have active : i ∈ s.ranks.order := (orderly.ranked.active i).2 ⟨c, (get_addition.1 live).1⟩
      exact ⟨i, (inOrder.mem_iff i).2 active,
        (keyAt?_eq_some orderly.wellFormed).2 ⟨token, c, rfl, live⟩⟩
    · cases removable
  pairwise := by
    refine List.Pairwise.filter _ (List.pairwise_filterMap.2 (inOrder.pairwise.imp ?_))
    intro i j sooner key first other second
    obtain ⟨token, c, rfl, live⟩ := (keyAt?_eq_some orderly.wellFormed).1 first
    obtain ⟨token', c', rfl, live'⟩ := (keyAt?_eq_some orderly.wellFormed).1 second
    unfold IndexedHeap.precedes at sooner
    split at sooner
    · rename_i rank rank' found found'
      refine ⟨rank, (rank?_addition live).trans found, rank',
        (rank?_addition live').trans found', ?_⟩
      simp only [Bool.or_eq_true, Bool.and_eq_true, Bool.not_eq_true', decide_eq_true_eq,
        decide_eq_false_iff_not] at sooner
      exact sooner
    · cases sooner

end ClauseStore

structure Selecting (source : Atom → Option Source) (s : ClauseStore) (proper : Literal → Prop)
    (ranked : List Nat) (r : Reduction) : Prop extends Reducing source s proper r where
  sortable : r.ranks.Sortable
  ordered : r.ranks.Ordered
  inOrder : r.ranks.InOrder ranked
  values : r.ranks.values = s.ranks.values
  bound : r.state.store.blockDistanceBound = s.blockDistanceBound

namespace Selecting

variable {source : Atom → Option Source} {s : ClauseStore} {proper : Literal → Prop}
  {state : WatchedStore} {ranks : IndexedHeap ClauseRank} {kept : List Nat}
  {removed : List ClauseKey} {i : Nat} {ranked : List Nat} {r : Reduction}

theorem next (selecting : Selecting source s proper (i :: ranked) ⟨state, ranks, kept, removed⟩) :
    ∃ c, ranks.popMax = (some i, (ranks.remove i).2) ∧
      state.store.additions[i]? = some (some c) ∧ s.keyAt? i = some c.key ∧
      Reduction.isProtected source state.store (((ranks.remove i).2.value? i).getD {}) c.key =
        !s.isRemovable source c.key := by
  obtain ⟨popped, -⟩ := selecting.inOrder.popMax_cons selecting.sortable selecting.ordered
  obtain ⟨c, slot⟩ := selecting.slot popped
  obtain ⟨token, key⟩ := selecting.wellFormed.slotted i c slot
  have live : state.store.get c.key = .ok c := key ▸ get_addition.2 ⟨slot, key⟩
  have before : s.get c.key = .ok c := selecting.fewer c.key c live
  have slotBefore : s.additions[i]? = some (some c) := (get_addition.1 (key ▸ before)).1
  have active : i ∈ ranks.order := (selecting.inOrder.mem_iff i).1 List.mem_cons_self
  obtain ⟨rank, found⟩ := selecting.ranks.known active
  have ranked : s.rank? c.key = some rank := by
    rw [key, rank?_addition (key ▸ before), IndexedHeap.value?, ← selecting.values]
    exact found
  have value : (ranks.remove i).2.value? i = some rank := by
    rw [IndexedHeap.value?, IndexedHeap.values_remove]
    exact found
  have bound : state.store.blockDistanceBound = s.blockDistanceBound := selecting.bound
  refine ⟨c, popped, slot, by simp [keyAt?, slotBefore], ?_⟩
  simp only [Reduction.isProtected, isRemovable, isReason, ranked, value, live, before, bound,
    Option.getD_some, Bool.not_and, Bool.not_not]
  congr 1
  simp only [← decide_not, Nat.not_lt]

theorem setAside
    (selecting : Selecting source s proper (i :: ranked) ⟨state, ranks, kept, removed⟩) :
    Selecting source s proper ranked ⟨state, (ranks.remove i).2, i :: kept, removed⟩ := by
  obtain ⟨popped, inOrder⟩ :=
    selecting.inOrder.popMax_cons selecting.sortable selecting.ordered
  exact {
    toReducing := selecting.toReducing.setAside popped
    sortable := selecting.sortable.remove i
    ordered := selecting.sortable.remove_ordered selecting.ordered i
    inOrder
    values := (ranks.values_remove i).trans selecting.values
    bound := selecting.bound }

theorem detach {c : WatchedClause}
    (selecting : Selecting source s proper (i :: ranked) ⟨state, ranks, kept, removed⟩)
    (slot : state.store.additions[i]? = some (some c)) {rank : ClauseRank}
    (unprotected : ¬Reduction.isProtected source state.store rank c.key) :
    ∃ state', state.detach c.key = (.ok (), state') ∧
      Selecting source s proper ranked ⟨state', (ranks.remove i).2, kept, c.key :: removed⟩ := by
  obtain ⟨popped, inOrder⟩ :=
    selecting.inOrder.popMax_cons selecting.sortable selecting.ordered
  obtain ⟨state', detached, reducing⟩ :=
    selecting.toReducing.detach popped slot unprotected
  obtain ⟨_, _, _, _, _, store⟩ := WatchedStore.detach_eq_ok detached
  exact ⟨state', detached, {
    toReducing := reducing
    sortable := selecting.sortable.remove i
    ordered := selecting.sortable.remove_ordered selecting.ordered i
    inOrder
    values := (ranks.values_remove i).trans selecting.values
    bound := (congrArg blockDistanceBound store).trans selecting.bound }⟩

theorem visit (selecting : Selecting source s proper ranked r) {visits : Nat}
    (enough : ranked.length ≤ visits) (count : Nat) :
    (Reduction.visit source visits count r).2.removed =
      (((ranked.filterMap s.keyAt?).filter (s.isRemovable source)).take count).reverse ++
        r.removed := by
  -- On the slots still to come; each turn takes the first of them off the heap.
  induction ranked generalizing visits count r with
  | nil =>
    obtain ⟨state, ranks, kept, removed⟩ := r
    have popped : ranks.popMax = (none, ranks) := selecting.inOrder.popMax_nil
    cases visits with
    | zero => simp [Reduction.visit]
    | succ visits =>
      cases count with
      | zero => simp [Reduction.visit]
      | succ count => simp [Reduction.visit, popped]
  | cons i rest ih =>
    obtain ⟨state, ranks, kept, removed⟩ := r
    obtain ⟨visits, rfl⟩ : ∃ n, visits = n + 1 := ⟨visits - 1, by simp at enough; omega⟩
    have enough' : rest.length ≤ visits := by simpa using enough
    cases count with
    | zero => simp [Reduction.visit]
    | succ count =>
      obtain ⟨c, popped, slot, key, test⟩ := selecting.next
      rw [List.filterMap_cons_some key]
      simp only [Reduction.visit, popped, slot, test]
      cases removable : s.isRemovable source c.key with
      | false =>
        rw [List.filter_cons_of_neg (by simp [removable])]
        exact ih selecting.setAside enough' (count + 1)
      | true =>
        rw [removable, Bool.not_true] at test
        obtain ⟨state', detached, selecting'⟩ :=
          selecting.detach slot (Bool.eq_false_iff.1 test)
        rw [List.filter_cons_of_pos removable, List.take_succ_cons, List.reverse_cons,
          List.append_assoc]
        simp only [detached]
        exact ih selecting' enough' count

end Selecting

namespace WatchedStore

variable {s s' : WatchedStore} {proper : Literal → Prop} {source : Atom → Option Source}
  {keys : List ClauseKey}

theorem Detaches.get_iff (detaches : Detaches s keys s') (key : ClauseKey) (c : WatchedClause) :
    s'.store.get key = .ok c ↔ s.store.get key = .ok c ∧ key ∉ keys := by
  induction detaches with
  | nil => simp
  | @cons s s' s'' first keys detached rest ih =>
    obtain ⟨i, token, d, rfl, live, store⟩ := detach_eq_ok detached
    have removed : Removed s.store s'.store (.addition i token) := store ▸ removed_vacate live
    rw [ih, removed, List.mem_cons, not_or]
    tauto

/-- Keys were removed with their clauses. Every other clause has the key, the literals, the watches
and the rank it had, and what is left of the additions is on the heap. -/
structure Loses (s s' : WatchedStore) (removed : List ClauseKey) : Prop where
  get_iff : ∀ key c, s'.store.get key = .ok c ↔ s.store.get key = .ok c ∧ key ∉ removed
  rank?_eq : ∀ key, key ∉ removed → s'.store.rank? key = s.store.rank? key
  originalUnits : s'.store.originalUnits = s.store.originalUnits
  additionUnits : s'.store.additionUnits = s.store.additionUnits
  active : ∀ i, s'.store.ranks.isActive i = true ↔ ∃ c, s'.store.additions[i]? = some (some c)
  watchers : ∀ l, (s'.watches.watchers l).toList.Perm
    ((s.watches.watchers l).toList.filter (· ∉ removed))

theorem removed_reduce (s : WatchedStore) (source : Atom → Option Source) (count : Nat) :
    (s.reduce source count).1.2 = (Reduction.visit source s.store.ranks.activeCount count
      { state := ⟨{ s.store with ranks := { blank := {} } }, s.watches⟩
        ranks := s.store.ranks }).2.removed.reverse := by
  obtain ⟨store, watches⟩ := s
  simp only [reduce]
  split <;> rename_i answer <;> rw [answer]

theorem values_reduce (s : WatchedStore) (source : Atom → Option Source) (count : Nat) :
    (s.reduce source count).2.store.ranks.values = s.store.ranks.values := by
  obtain ⟨store, watches⟩ := s
  have visited := Reduction.visit_ranks (P := fun ranks => ranks.values = store.ranks.values)
    (fun ranks same => ranks.values_popMax.trans same) source store.ranks.activeCount count
    { state := ⟨{ store with ranks := { blank := {} } }, watches⟩, ranks := store.ranks } rfl
  simp only [reduce]
  split <;> rename_i answer <;> rw [answer] at visited
  · exact visited
  · exact (Reduction.values_reactivate ..).trans visited

theorem reduce_loses (orderly : s.store.Orderly proper) (mirrors : s.Mirrors) {count : Nat}
    {removed : List ClauseKey} (answer : s.reduce source count = ((.ok (), removed), s')) :
    s.Loses s' removed := by
  have same (store : ClauseStore) (ranks : IndexedHeap ClauseRank) :
      store.SameClauses { store with ranks } := ⟨rfl, rfl, rfl, rfl⟩
  obtain ⟨_, _, answer', orderly', mirrors', -, -, originalUnits, additionUnits, -⟩ :=
    reduce_spec source orderly mirrors count
  obtain ⟨-, rfl⟩ := Prod.mk.inj (answer.symm.trans answer')
  obtain ⟨state, ranks, detaches, store⟩ := reduce_detaches answer
  have get_iff (key : ClauseKey) (c : WatchedClause) :
      s'.store.get key = .ok c ↔ s.store.get key = .ok c ∧ key ∉ removed := by
    rw [store, (same state.store ranks).get_eq, detaches.get_iff, (same s.store _).get_eq]
  have values : s'.store.ranks.values = s.store.ranks.values := by
    have values := s.values_reduce source count
    rwa [answer] at values
  exact {
    get_iff
    rank?_eq := fun key spared =>
      rank?_congr (fun c => (get_iff key c).trans (and_iff_left spared)) values
    originalUnits
    additionUnits
    active := fun i => orderly'.ranked.wellFormed.isActive_iff.trans (orderly'.ranked.active i)
    watchers := fun l => by
      refine (List.perm_ext_iff_of_nodup (mirrors' l).nodup ((mirrors l).nodup.filter _)).2
        fun key => ?_
      rw [(mirrors' l).mem_iff, List.mem_filter, (mirrors l).mem_iff]
      simp only [Watching, get_iff, decide_eq_true_eq]
      tauto }

theorem reduce_selects (orderly : s.store.Orderly proper) (mirrors : s.Mirrors)
    (sortable : s.store.ranks.Sortable) (ordered : s.store.ranks.Ordered)
    (source : Atom → Option Source) (count : Nat) :
    ∃ keys s', s.store.RemovalOrder source keys ∧
      s.reduce source count = ((.ok (), keys.take count), s') := by
  obtain ⟨ranked, inOrder⟩ := sortable.exists_inOrder ordered
  have start : Selecting source s.store proper ranked
      { state := ⟨{ s.store with ranks := { blank := {} } }, s.watches⟩, ranks := s.store.ranks } :=
    { toReducing := .start source orderly mirrors
      sortable, ordered, inOrder, values := rfl, bound := rfl }
  have enough : ranked.length ≤ s.store.ranks.activeCount := by
    refine (List.subperm_of_subset inOrder.nodup fun i member => ?_).length_le
    exact Array.mem_toList_iff.2 ((inOrder.mem_iff i).1 member)
  obtain ⟨removed, s', answer, -⟩ := reduce_spec source orderly mirrors count
  have selected := s.removed_reduce source count
  rw [start.visit enough, answer, List.append_nil, List.reverse_reverse] at selected
  obtain rfl : removed = _ := selected
  exact ⟨_, s', orderly.removalOrder inOrder source, answer⟩

end WatchedStore

def StoreCall.addition (c : Clause) (distinct : (c.map Int.natAbs).Nodup) (blockDistance : Nat) :
    StoreCall :=
  .insert (fun _ => none) (fun _ => none) c distinct .resolution (some blockDistance)

namespace RecordedStore

/-- After any calls of a store, none of which leaves an addition with an activity that is no number,
a reduction removes the least active of the additions which may be removed, as many as it is asked
to or else all, and nothing else. -/
theorem performAll_reduceBy (settings : Settings) (calls : List StoreCall)
    (numeric : ∀ earlier ∈ calls.inits, ((new settings).performAll earlier).state.store.Numeric)
    (s : Solver) (reached : s.clauses = ((new settings).performAll calls).state) (count : Nat) :
    ∃ keys s', s.clauses.store.RemovalOrder s.atoms.source keys ∧
      s.reduceBy count = (.ok (min count keys.length), s') ∧
      s.clauses.Loses s'.clauses (keys.take count) := by
  obtain ⟨orderly, mirrors, -⟩ := (Sound.new settings).performAll calls
  have ordered := (Sound.new settings).performAll_ordered
    (fun j _ inside _ => absurd inside (Nat.not_lt_zero j)) numeric
  have numbers := orderly.numeric (numeric calls ((List.mem_inits ..).2 List.prefix_rfl))
  rw [← reached] at orderly mirrors ordered numbers
  obtain ⟨keys, clauses, order, answer⟩ := WatchedStore.reduce_selects orderly mirrors
    (numbers.sortable orderly.ranked.wellFormed) ordered s.atoms.source count
  obtain ⟨journal, reduced⟩ := s.reduceBy_eq count
  refine ⟨keys, (s.reduceBy count).2, order, Prod.ext ?_ rfl, ?_⟩
  · simp only [Solver.reduceBy, answer, List.length_take]
  · rw [reduced, answer]
    exact WatchedStore.reduce_loses orderly mirrors answer

/-- Slot 1 is used again, for an addition as active as that in slot 5. The one in slot 3 is within
the bound, and the one in slot 4 is to be a reason. -/
def crowdedCalls : List StoreCall :=
  [.addition [1, 2, 3] (by decide) 3, .addition [1, 2, -3] (by decide) 3,
    .addition [1, -2, 3] (by decide) 3, .addition [-1, 2, 3] (by decide) 2,
    .addition [4, 5, 6] (by decide) 4, .raise (.addition 0 0), .decay, .raise (.addition 2 0),
    .remove (.addition 1 0), .propagate (.new {}) (-1), .addition [-1, -2, 3] (by decide) 5,
    .addition [4, 5] (by decide) 3]

def crowded : Solver :=
  { (Solver.new {}).performAll [.ensureAtoms 6, .assign 4 (.propagation (.addition 4 0))] with
    clauses := ((new {}).performAll crowdedCalls).state }

theorem crowded_reduceBy :
    (∀ earlier ∈ crowdedCalls.inits, ((new {}).performAll earlier).state.store.Numeric) ∧
      (∃ keys s', crowded.clauses.store.RemovalOrder crowded.atoms.source keys ∧
        crowded.reduceBy 2 = (.ok (min 2 keys.length), s') ∧
        crowded.clauses.Loses s'.clauses (keys.take 2)) ∧
      (crowded.reduceBy 2).2.store.longAdditions.map WatchedClause.key =
        [.addition 0 0, .addition 2 0, .addition 3 0, .addition 4 0] := by
  have numeric : ∀ earlier ∈ crowdedCalls.inits,
      ((new {}).performAll earlier).state.store.Numeric :=
    fun earlier _ => performAll_numeric Settings.withinBounds_default earlier
  have reached : crowded.clauses = ((new {}).performAll crowdedCalls).state := by
    simp only [crowded]
  exact ⟨numeric, performAll_reduceBy {} crowdedCalls numeric crowded reached 2,
    by decide +kernel⟩

/-- The bump is no number once it decays. After all additions with such an activity are removed, the
heap is not in order: the addition in slot 3 is the least active, and that in slot 0 is removed. -/
example :
    let s := ((new { clauseDecay := 0.0 / 0.0 }).performAll
      [.addition [1, 2] (by decide) 3, .raise (.addition 0 0), .addition [1, 2] (by decide) 3,
        .addition [1, 2] (by decide) 3, .raise (.addition 2 0), .addition [1, 2] (by decide) 3,
        .addition [1, 2] (by decide) 3, .remove (.addition 1 0), .decay,
        .addition [1, 2] (by decide) 3, .remove (.addition 2 0), .remove (.addition 4 0),
        .remove (.addition 1 1)]).state
    s.store.Numeric ∧ s.store.longAdditions.map WatchedClause.key = [.addition 0 0, .addition 3 0] ∧
      (s.reduce (fun _ => none) 1).1.2 = [.addition 0 0] := by
  decide +kernel

end RecordedStore

end ClauseLearning
