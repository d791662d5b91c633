import ClauseLearning.Proofs.KeyLedger
import ClauseLearning.Proofs.Run

namespace ClauseLearning

/-- A call of a store. Clauses have distinct atoms. A propagation is that of a solver with the store
as it is then, for any literal. -/
inductive StoreCall where
  | insert (value : Atom → Option Bool) (level : Atom → Option Nat) (c : Clause)
      (distinct : (c.map Int.natAbs).Nodup) (origin : ClauseOrigin) (blockDistance : Option Nat)
  | remove (key : ClauseKey)
  | reduce (source : Atom → Option Source) (count : Nat)
  | raise (key : ClauseKey)
  | decay
  | propagate (s : Solver) (l : Literal)

structure RecordedStore where
  state : WatchedStore
  ledger : Ledger := {}

namespace ClauseStore

variable {s s' : ClauseStore}

theorem SameClauses.preserves (same : SameClauses s s') (vacated : s'.vacated = s.vacated)
    (additionCount : s'.additionCount = s.additionCount) (limit : s'.limit = s.limit) :
    s.Preserves s' where
  rearranged := {
    originalUnits := same.originalUnits
    additionUnits := same.additionUnits
    forth := fun key c live => ⟨c, (same.get_eq key).trans live, .refl _⟩
    back := fun key c live => ⟨c, (same.get_eq key).symm.trans live, .refl _⟩ }
  originals := congrArg _ same.originals
  occupied := congrArg _ same.additions
  vacated := vacated
  additionCount := additionCount
  limit := limit

theorem preserves_ranks (s : ClauseStore) (ranks : IndexedHeap ClauseRank) :
    s.Preserves { s with ranks } :=
  SameClauses.preserves ⟨rfl, rfl, rfl, rfl⟩ rfl rfl rfl

theorem preserves_raise (s : ClauseStore) (key : ClauseKey) : s.Preserves (s.raise key) := by
  obtain ⟨same, vacated, -⟩ := Solver.raise_same s key
  refine same.preserves vacated ?_ ?_
  all_goals
    unfold raise
    split
    · simp only
      split <;> rfl
    · rfl

theorem preserves_decay (s : ClauseStore) : s.Preserves s.decay := by
  obtain ⟨same, vacated, -⟩ := Solver.decay_same s
  refine same.preserves vacated ?_ ?_
  all_goals
    unfold decay
    simp only
    split <;> rfl

theorem isLong_of_get {key : ClauseKey} {c : WatchedClause} (live : s.get key = .ok c) :
    key.isLong := by
  cases key with
  | originalUnit l => exact absurd live get_originalUnit
  | additionUnit l => exact absurd live get_additionUnit
  | original i => rfl
  | addition i token => rfl

theorem clauseOf_of_isLong {key : ClauseKey} (long : key.isLong) :
    s.clauseOf key = (s.get key).map WatchedClause.clause := by
  cases key with
  | originalUnit l => cases long
  | additionUnit l => cases long
  | original i => rfl
  | addition i token => rfl

end ClauseStore

namespace WatchedStore

/-- The key leads to a clause, to read and to change, and to that one only. -/
structure Holds (s : WatchedStore) (key : ClauseKey) (c : WatchedClause) : Prop where
  get : s.store.get key = .ok c
  clauseOf : s.store.clauseOf key = .ok c.clause
  change : ∀ {α : Type} (f : WatchedClause → WatchLists → α × WatchedClause × WatchLists)
    {answer : α} {c' : WatchedClause} {watches : WatchLists},
    f c s.watches = (answer, c', watches) → c'.key = c.key →
      ∃ store, s.change key f = (.ok answer, ⟨store, watches⟩) ∧ ∀ other d,
        store.get other = .ok d ↔
          (other = key ∧ d = c') ∨ (other ≠ key ∧ s.store.get other = .ok d)

theorem holds_of_get {s : WatchedStore} {key : ClauseKey} {c : WatchedClause}
    (live : s.store.get key = .ok c) : s.Holds key c where
  get := live
  clauseOf := by
    rw [ClauseStore.clauseOf_of_isLong (ClauseStore.isLong_of_get live), live, Except.map]
  change {_} f _ c' _ changed keeps := by
    refine ⟨s.store.modify key fun _ => c', ?_, ClauseStore.get_modify live keeps⟩
    simp only [WatchedStore.change, live, changed]

/-- The key leads to no clause, neither to read one nor to change or remove it. -/
structure LeadsNowhere (s : WatchedStore) (key : ClauseKey) : Prop where
  get : ∃ failure, s.store.get key = .error failure
  change : ∀ {α : Type} (f : WatchedClause → WatchLists → α × WatchedClause × WatchLists),
    ∃ failure, s.change key f = (.error failure, s)
  clauseOf : ∃ failure, s.store.clauseOf key = .error failure
  rank? : s.store.rank? key = none
  isReason : ∀ source, s.store.isReason source key = false
  remove : ∃ failure, s.remove key = (.error failure, s)

theorem leadsNowhere_of_get {s : WatchedStore} {key : ClauseKey} (long : key.isLong)
    (absent : ∀ c, s.store.get key ≠ .ok c) : s.LeadsNowhere key := by
  obtain ⟨failure, get⟩ : ∃ failure, s.store.get key = .error failure := by
    cases answer : s.store.get key with
    | ok c => exact absurd answer (absent c)
    | error failure => exact ⟨failure, rfl⟩
  refine ⟨⟨failure, get⟩, fun f => ⟨failure, ?_⟩, ⟨failure, ?_⟩, ?_, fun source => ?_,
    remove_of_not_live fun _ _ c _ => absent c⟩
  · simp only [WatchedStore.change, get]
  · rw [ClauseStore.clauseOf_of_isLong long, get, Except.map]
  · unfold ClauseStore.rank?
    split
    · rename_i live
      cases get.symm.trans live
    · rfl
  · simp only [ClauseStore.isReason, get]

end WatchedStore

namespace RecordedStore

def new (settings : Settings) : RecordedStore where
  state := (Solver.new settings).clauses

def perform (r : RecordedStore) : StoreCall → RecordedStore
  | .insert value level c _ origin blockDistance =>
    match r.state.insert value level c origin blockDistance with
    | (.ok key, state) => ⟨state, r.ledger.issue key c⟩
    | (.error _, state) => ⟨state, r.ledger⟩
  | .remove key =>
    match r.state.remove key with
    | (.ok (), state) => ⟨state, r.ledger.remove key⟩
    | (.error _, state) => ⟨state, r.ledger⟩
  | .reduce source count =>
    match r.state.reduce source count with
    | ((_, removed), state) => ⟨state, removed.foldl Ledger.remove r.ledger⟩
  | .raise key => { r with state := { r.state with store := r.state.store.raise key } }
  | .decay => { r with state := { r.state with store := r.state.store.decay } }
  | .propagate s l =>
    { r with state := ({ s with clauses := r.state }.propagateLiteral l).2.clauses }

def performAll (r : RecordedStore) (calls : List StoreCall) : RecordedStore := calls.foldl perform r

structure Sound (limit : Nat) (r : RecordedStore) : Prop where
  orderly : r.state.store.Orderly fun _ => True
  mirrors : r.state.Mirrors
  keeps : r.ledger.Keeps limit r.state.store

namespace Sound

variable {limit : Nat} {r : RecordedStore}

theorem new (settings : Settings) : (new settings).Sound settings.clauseLimit where
  orderly := (Solver.new_coherent settings).orderly.mono fun _ _ => trivial
  mirrors := (Solver.new_settled settings).invariant.mirrors
  keeps := {
    numbers := {
      original_lt := fun _ member => absurd member List.not_mem_nil
      tokens := fun _ => ⟨0, Nat.zero_le _, rfl⟩
      unused := fun _ _ => rfl
      latest := fun _ _ c live => absurd live (Solver.get_new settings _ c)
      vacated := fun _ _ member => absurd member List.not_mem_nil
      spent := fun _ empty => by cases empty }
    accounts := {
      distinct := .nil
      removed := fun _ member => absurd member List.not_mem_nil
      held := fun _ _ member => absurd member List.not_mem_nil
      live := fun key c live => absurd live (Solver.get_new settings key c) }
    counted := ⟨rfl, rfl, Nat.zero_le _, Nat.zero_le _, Nat.zero_le _⟩ }

theorem of_preserves (sound : r.Sound limit) {state : WatchedStore}
    (orderly : state.store.Orderly fun _ => True) (mirrors : state.Mirrors)
    (preserves : r.state.store.Preserves state.store) : ({ r with state }).Sound limit :=
  ⟨orderly, mirrors, sound.keeps.preserves preserves⟩

theorem insert (sound : r.Sound limit) {value : Atom → Option Bool} {level : Atom → Option Nat}
    {c : Clause} (distinct : (c.map Int.natAbs).Nodup) {origin : ClauseOrigin}
    {blockDistance : Option Nat} {key : ClauseKey} {state : WatchedStore}
    (answer : r.state.insert value level c origin blockDistance = (.ok key, state)) :
    Sound limit ⟨state, r.ledger.issue key c⟩ := by
  have room := (WatchedStore.insert_takes answer).room
  obtain ⟨orderly, mirrors⟩ := WatchedStore.insert_spec sound.orderly sound.mirrors distinct
    (fun _ _ => trivial) answer
  exact ⟨orderly, mirrors, sound.keeps.insert sound.orderly orderly room
    (WatchedStore.insert_inserts answer)⟩

theorem forgets (sound : r.Sound limit) {state : WatchedStore} (forgets : r.state.Forgets state) :
    ({ r with state }).Sound limit :=
  ⟨forgets.orderly sound.orderly, forgets.mirrors sound.mirrors, sound.keeps.forgets forgets⟩

theorem remove (sound : r.Sound limit) (key : ClauseKey) :
    (r.perform (.remove key)).Sound limit := by
  by_cases live : ∃ i token c, key = .addition i token ∧ r.state.store.get key = .ok c
  · obtain ⟨i, token, c, rfl, live⟩ := live
    obtain ⟨state, state', detached, removed, store, orderly, mirrors⟩ :=
      WatchedStore.remove_spec live sound.orderly sound.mirrors
    have keeps := sound.keeps.detaches (.cons detached (.nil state))
    have unranked : state.store.Preserves state'.store := store ▸ state.store.preserves_ranks _
    simp only [perform, removed]
    exact ⟨orderly, mirrors, keeps.preserves unranked⟩
  · obtain ⟨failure, refused⟩ := WatchedStore.remove_of_not_live
      fun i token c same found => live ⟨i, token, c, same, found⟩
    simp only [perform, refused]
    exact sound

theorem reduce (sound : r.Sound limit) (source : Atom → Option Source) (count : Nat) :
    (r.perform (.reduce source count)).Sound limit := by
  obtain ⟨removed, state, answer, orderly, mirrors, -⟩ :=
    WatchedStore.reduce_spec source sound.orderly sound.mirrors count
  obtain ⟨state', ranks, detaches, store⟩ := WatchedStore.reduce_detaches answer
  have start := sound.keeps.preserves (r.state.store.preserves_ranks { blank := {} })
  have keeps := (start.detaches detaches).preserves (state'.store.preserves_ranks ranks)
  simp only [perform, answer]
  exact ⟨orderly, mirrors, store ▸ keeps⟩

theorem perform (sound : r.Sound limit) (call : StoreCall) : (r.perform call).Sound limit := by
  cases call with
  | insert value level c distinct origin blockDistance =>
    rcases r.state.insert_ok_or_error value level c origin blockDistance with
      ⟨key, state, answer⟩ | ⟨failure, state, answer, forgets⟩
    · simp only [RecordedStore.perform, answer]
      exact sound.insert distinct answer
    · simp only [RecordedStore.perform, answer]
      exact sound.forgets forgets
  | remove key => exact sound.remove key
  | reduce source count => exact sound.reduce source count
  | raise key =>
    obtain ⟨same, vacated, ranks⟩ := Solver.raise_same r.state.store key
    exact sound.of_preserves (sound.orderly.congr same vacated ranks) (sound.mirrors.congr same)
      (r.state.store.preserves_raise key)
  | decay =>
    obtain ⟨same, vacated, ranks⟩ := Solver.decay_same r.state.store
    exact sound.of_preserves (sound.orderly.congr same vacated ranks) (sound.mirrors.congr same)
      r.state.store.preserves_decay
  | propagate s l =>
    obtain ⟨orderly, mirrors, preserves⟩ :=
      Solver.propagateLiteral_preserves (s := { s with clauses := r.state }) sound.orderly
        sound.mirrors l
    exact sound.of_preserves orderly mirrors preserves

theorem performAll (sound : r.Sound limit) (calls : List StoreCall) :
    (r.performAll calls).Sound limit := by
  induction calls generalizing r with
  | nil => exact sound
  | cons call rest ih => exact ih (sound.perform call)

end Sound

/-- A map from long keys to clauses, which hands out no key again. The tokens of a slot follow each
other, and it is given up after the last. A clause for which there is room gets a key while one is
left, and an addition is removed at the first request. -/
structure MapsKeys (r : RecordedStore) : Prop where
  distinct : (r.ledger.keys.filter ClauseKey.isLong).Nodup
  tokens : ∀ i, ∃ n ≤ ClauseKey.maxToken + 1, r.ledger.tokens i = (List.range n).reverse
  indices : ∀ key ∈ r.ledger.keys, key.isLong → key.index ≤ ClauseKey.maxIndex
  held : ∀ key c, (key, c) ∈ r.ledger.issued → key.isLong → key ∉ r.ledger.removed →
    ∃ d, r.state.Holds key d ∧ d.clause.Perm c
  nowhere : ∀ key, key.isLong → key ∉ r.ledger.keys ∨ key ∈ r.ledger.removed →
    r.state.LeadsNowhere key
  stores : ∀ value level c origin blockDistance, c ≠ [] → r.state.store.Takes c origin →
    ∃ key state, r.state.insert value level c origin blockDistance = (.ok key, state)
  removes : ∀ i token, .addition i token ∈ r.ledger.keys → .addition i token ∉ r.ledger.removed →
    ∃ state, r.state.remove (.addition i token) = (.ok (), state) ∧
      ClauseStore.Removed r.state.store state.store (.addition i token)

/-- Whatever the calls, a long key leads to the clause stored under it from when it is handed out to
when it is removed, and nowhere before and after. -/
theorem performAll_mapsKeys (settings : Settings) (calls : List StoreCall) :
    ((new settings).performAll calls).MapsKeys := by
  obtain ⟨orderly, mirrors, numbers, accounts, counted⟩ := (Sound.new settings).performAll calls
  refine ⟨accounts.distinct, numbers.tokens, fun key member long => ?_,
    fun key c issued long kept => ?_, fun key long lost => ?_,
    fun value level c origin blockDistance nonempty takes =>
      WatchedStore.insert_stores nonempty takes blockDistance, fun i token member kept => ?_⟩
  · exact Nat.le_of_lt_succ (numbers.index_lt counted member long)
  · obtain ⟨d, live, perm⟩ := accounts.held key c issued long kept
    exact ⟨d, WatchedStore.holds_of_get live, perm⟩
  · refine WatchedStore.leadsNowhere_of_get long fun c live => ?_
    obtain ⟨issued, kept⟩ := accounts.live key c live
    exact lost.elim (absurd issued) kept
  · obtain ⟨⟨_, c⟩, issued, rfl⟩ := List.mem_map.1 member
    obtain ⟨d, live, -⟩ := accounts.held _ c issued rfl kept
    exact WatchedStore.remove_removed live orderly mirrors

example :
    let addition (c : Clause) (distinct : (c.map Int.natAbs).Nodup) : StoreCall :=
      .insert (fun _ => none) (fun _ => none) c distinct .resolution (some 3)
    let r := (new {}).performAll [addition [1, 2] (by decide), addition [1, 3] (by decide),
      .remove (.addition 0 0), addition [2, 3] (by decide)]
    r.ledger.keys = [.addition 0 1, .addition 1 0, .addition 0 0] ∧
      r.ledger.removed = [.addition 0 0] ∧
      r.state.store.clauseOf (.addition 1 0) = .ok [1, 3] ∧
      r.state.store.clauseOf (.addition 0 0) = .error .staleToken ∧
      r.state.store.clauseOf (.addition 0 1) = .ok [2, 3] := by
  decide +kernel

/-- The counts, the free slots and the heap of ranks agree with the slots in use. An empty slot is
free unless its tokens ran out. A clause which is not stored leaves all clauses, counts, ranks and
watch lists as they were. -/
structure Balanced (limit : Nat) (r : RecordedStore) : Prop where
  count : r.state.store.additionCount = r.state.store.additions.countP Option.isSome
  active : ∀ i, r.state.store.ranks.isActive i = true ↔
    ∃ c, r.state.store.additions[i]? = some (some c)
  free : (r.state.store.vacated.map ClauseKey.index).Nodup
  empty : ∀ key ∈ r.state.store.vacated, ∃ i token, key = .addition i token ∧
    r.state.store.additions[i]? = some none ∧ (r.ledger.tokens i).head? = some token
  listed : ∀ i, r.state.store.additions[i]? = some none →
    (∃ token, .addition i token ∈ r.state.store.vacated) ∨
      (r.ledger.tokens i).head? = some ClauseKey.maxToken
  total : r.state.store.totalCount ≤ limit
  refused : ∀ value level c origin blockDistance failure state,
    r.state.insert value level c origin blockDistance = (.error failure, state) →
      r.state.Forgets state

theorem performAll_balanced (settings : Settings) (calls : List StoreCall) :
    ((new settings).performAll calls).Balanced settings.clauseLimit := by
  obtain ⟨orderly, -, numbers, -, counted⟩ := (Sound.new settings).performAll calls
  refine ⟨counted.additions, fun i => ?_, orderly.vacant.distinct, fun key member => ?_,
    numbers.spent, counted.total, fun _ _ _ _ _ _ _ => WatchedStore.insert_error⟩
  · rw [← orderly.ranked.active, IndexedHeap.isActive, Option.isSome_iff_ne_none, ne_eq,
      orderly.ranked.wellFormed.position?_eq_none, not_not]
  · obtain ⟨i, token, rfl, empty⟩ := orderly.vacant.empty key member
    exact ⟨i, token, rfl, empty, numbers.vacated i token member⟩

end RecordedStore

end ClauseLearning
