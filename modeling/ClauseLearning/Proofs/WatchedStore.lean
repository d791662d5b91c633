import ClauseLearning.ClauseStore.Storage
import ClauseLearning.Proofs.ClauseStore
import ClauseLearning.Proofs.IndexedHeap
import ClauseLearning.Proofs.WatchLists

/-!
The watch lists mirror the store: each literal has on its list, once each, the keys of the live
clauses which watch it, and nothing else. Clauses are stored under keys that were free, and the
slots which the heap of ranks holds are those in use.
-/

namespace ClauseLearning

namespace ClauseStore

def Watching (s : ClauseStore) (l : Literal) (key : ClauseKey) : Prop :=
  ∃ c, s.get key = .ok c ∧ c.Watches l

instance (s : ClauseStore) (l : Literal) (key : ClauseKey) : Decidable (s.Watching l key) :=
  match live : s.get key with
  | .ok c => decidable_of_iff (c.Watches l) (by simp [Watching, live])
  | .error _ => isFalse (by simp [Watching, live])

structure Lists (s : ClauseStore) (l : Literal) (keys : List ClauseKey) : Prop where
  nodup : keys.Nodup
  mem_iff : ∀ key, key ∈ keys ↔ s.Watching l key

namespace Lists

variable {s s' : ClauseStore} {l : Literal} {keys keys' : List ClauseKey} {key : ClauseKey}

theorem keep (lists : s.Lists l keys) (same : ∀ other, s'.Watching l other ↔ s.Watching l other) :
    s'.Lists l keys :=
  ⟨lists.nodup, fun other => (lists.mem_iff other).trans (same other).symm⟩

theorem gain (lists : s.Lists l keys) (absent : ¬s.Watching l key)
    (gained : ∀ other, s'.Watching l other ↔ s.Watching l other ∨ other = key) :
    s'.Lists l (keys ++ [key]) where
  nodup := by
    refine List.Nodup.append lists.nodup (List.nodup_singleton _) fun other member last => ?_
    rw [List.mem_singleton.1 last, lists.mem_iff] at member
    exact absent member
  mem_iff other := by rw [List.mem_append, List.mem_singleton, lists.mem_iff, gained]

theorem lose (lists : s.Lists l keys) (perm : (key :: keys').Perm keys)
    (lost : ∀ other, s'.Watching l other ↔ s.Watching l other ∧ other ≠ key) :
    s'.Lists l keys' := by
  have distinct := List.nodup_cons.1 (perm.nodup_iff.2 lists.nodup)
  refine ⟨distinct.2, fun other => ?_⟩
  rw [lost, ← lists.mem_iff, ← perm.mem_iff, List.mem_cons]
  constructor
  · intro member
    refine ⟨.inr member, ?_⟩
    rintro rfl
    exact distinct.1 member
  · rintro ⟨first | member, other⟩
    · exact absurd first other
    · exact member

theorem count (lists : s.Lists l keys) (key : ClauseKey) :
    keys.count key = if s.Watching l key then 1 else 0 := by
  rw [lists.nodup.count, if_congr (lists.mem_iff key) rfl rfl]

theorem congr (lists : s.Lists l keys) (same : SameClauses s s') : s'.Lists l keys :=
  lists.keep fun other => by simp only [Watching, same.get_eq]

end Lists

structure Vacant (s : ClauseStore) : Prop where
  empty : ∀ key ∈ s.vacated, ∃ i token, key = .addition i token ∧ s.additions[i]? = some none
  distinct : (s.vacated.map ClauseKey.index).Nodup

structure Ranked (ranks : IndexedHeap ClauseRank) (additions : Array (Option WatchedClause)) :
    Prop where
  wellFormed : ranks.WellFormed
  size : ranks.values.size = additions.size
  active : ∀ i, i ∈ ranks.order ↔ ∃ c, additions[i]? = some (some c)

theorem Ranked.reordered {ranks ranks' : IndexedHeap ClauseRank}
    {additions : Array (Option WatchedClause)} (ranked : Ranked ranks additions)
    (same : ranks.Reordered ranks') : Ranked ranks' additions where
  wellFormed := same.wellFormed ranked.wellFormed
  size := same.size_values.trans ranked.size
  active i := same.mem_iff.trans (ranked.active i)

structure Stored (s s' : ClauseStore) (c : WatchedClause) : Prop where
  fresh : ∀ d, s.get c.key ≠ .ok d
  get_iff : ∀ key d, s'.get key = .ok d ↔ (key = c.key ∧ d = c) ∨ s.get key = .ok d

def Removed (s s' : ClauseStore) (removed : ClauseKey) : Prop :=
  ∀ key d, s'.get key = .ok d ↔ key ≠ removed ∧ s.get key = .ok d

namespace Stored

variable {s s' : ClauseStore} {c : WatchedClause}

theorem live (stored : Stored s s' c) : s'.get c.key = .ok c :=
  (stored.get_iff _ _).2 (.inl ⟨rfl, rfl⟩)

theorem kept (stored : Stored s s' c) {key : ClauseKey} {d : WatchedClause}
    (live : s.get key = .ok d) : s'.get key = .ok d :=
  (stored.get_iff _ _).2 (.inr live)

theorem watching (stored : Stored s s' c) (l : Literal) (key : ClauseKey) :
    s'.Watching l key ↔ s.Watching l key ∨ (key = c.key ∧ c.Watches l) := by
  unfold Watching
  simp only [stored.get_iff]
  constructor
  · rintro ⟨d, ⟨rfl, rfl⟩ | live, watched⟩
    · exact .inr ⟨rfl, watched⟩
    · exact .inl ⟨d, live, watched⟩
  · rintro (⟨d, live, watched⟩ | ⟨rfl, watched⟩)
    · exact ⟨d, .inr live, watched⟩
    · exact ⟨c, .inl ⟨rfl, rfl⟩, watched⟩

theorem lists (stored : Stored s s' c) {l : Literal} {keys : List ClauseKey}
    (lists : s.Lists l keys) (watches : c.Watches l) : s'.Lists l (keys ++ [c.key]) := by
  refine lists.gain ?_ fun key => ?_
  · rintro ⟨d, live, -⟩
    exact stored.fresh d live
  · rw [stored.watching, and_iff_left watches]

theorem lists_other (stored : Stored s s' c) {l : Literal} {keys : List ClauseKey}
    (lists : s.Lists l keys) (unwatched : ¬c.Watches l) : s'.Lists l keys :=
  lists.keep fun key => by
    rw [stored.watching, or_iff_left fun impossible => unwatched impossible.2]

end Stored

end ClauseStore

namespace WatchedStore

open ClauseStore

def Mirrors (s : WatchedStore) : Prop := ∀ l, s.store.Lists l (s.watches.watchers l).toList

theorem Mirrors.mem_iff {s : WatchedStore} (mirrors : s.Mirrors) {l : Literal} {key : ClauseKey} :
    key ∈ s.watches.watchers l ↔ ∃ c, s.store.get key = .ok c ∧ c.Watches l := by
  rw [← Array.mem_toList_iff]
  exact (mirrors l).mem_iff key

theorem Mirrors.congr {s : WatchedStore} {store : ClauseStore} (mirrors : s.Mirrors)
    (same : SameClauses s.store store) : Mirrors { s with store } :=
  fun l => (mirrors l).congr same

theorem watchers_watchClause (w : WatchLists) {c : WatchedClause} (apart : c.first ≠ c.second)
    (l : Literal) : (c.Watches l →
        ((watchClause w c).watchers l).toList = (w.watchers l).toList ++ [c.key]) ∧
      (¬c.Watches l → (watchClause w c).watchers l = w.watchers l) := by
  simp only [watchClause, WatchLists.watchers_watch, WatchedClause.Watches]
  constructor
  · rintro (rfl | rfl)
    · simp [apart]
    · simp [Ne.symm apart]
  · intro unwatched
    simp only [not_or] at unwatched
    rw [if_neg (Ne.symm unwatched.2), if_neg (Ne.symm unwatched.1)]

theorem Mirrors.insert {s : WatchedStore} {store : ClauseStore} {c : WatchedClause}
    (mirrors : s.Mirrors) (stored : Stored s.store store c) (apart : c.first ≠ c.second) :
    Mirrors ⟨store, watchClause s.watches c⟩ := by
  intro l
  change store.Lists l ((watchClause s.watches c).watchers l).toList
  obtain ⟨added, same⟩ := watchers_watchClause s.watches apart l
  by_cases watches : c.Watches l
  · rw [added watches]
    exact stored.lists (mirrors l) watches
  · rw [same watches]
    exact stored.lists_other (mirrors l) watches

end WatchedStore

theorem ClauseKey.renew_eq_ok {key key' : ClauseKey} (renewed : key.renew = .ok key') :
    ∃ i token, key = .addition i token ∧ token < maxToken ∧ key' = .addition i (token + 1) := by
  cases key with
  | addition i token =>
    simp only [renew] at renewed
    by_cases room : token < maxToken
    · rw [if_pos room] at renewed
      exact ⟨i, token, rfl, room, (Except.ok.inj renewed).symm⟩
    · rw [if_neg room] at renewed
      cases renewed
  | originalUnit l => cases renewed
  | additionUnit l => cases renewed
  | original i => cases renewed

namespace ClauseStore

variable {proper : Literal → Prop} {s : ClauseStore} {c : WatchedClause}

theorem stored_original (key : c.key = .original s.originals.size) :
    Stored s { s with originals := s.originals.push c } c where
  fresh d live := by
    rw [key, get_original, Array.getElem?_eq_none (Nat.le_refl _)] at live
    cases live
  get_iff other d := by
    cases other with
    | originalUnit l => simp [get, key]
    | additionUnit l => simp [get, key]
    | addition i token => simp [get, key]
    | original i =>
      simp only [get_original, Array.getElem?_push, key, ClauseKey.original.injEq]
      by_cases last : i = s.originals.size
      · simp [last, eq_comm]
      · simp [last]

/-- A key is left for a clause of two or more literals. -/
def HasKey (s : ClauseStore) : ClauseOrigin → Prop
  | .formula => s.originals.size ≤ ClauseKey.maxIndex
  | .resolution => s.additions.size ≤ ClauseKey.maxIndex ∨
      ∃ last ∈ s.vacated, ∃ key, last.renew = .ok key

/-- There is room for the clause, and a key where it needs one. -/
structure Takes (s : ClauseStore) (c : Clause) (origin : ClauseOrigin) : Prop where
  room : s.totalCount < s.limit
  key : 2 ≤ c.length → s.HasKey origin

/-- A clause is refused for want of room, or else of a key. Then no free slot has a token left, and
they are all forgotten. -/
inductive Refuses (s : ClauseStore) (c : Clause) :
    ClauseOrigin → Failure → ClauseStore → Prop where
  | full {origin : ClauseOrigin} (full : s.limit ≤ s.totalCount) :
      Refuses s c origin (.clauseLimit s.limit) s
  | originalKeys (room : s.totalCount < s.limit) (long : 2 ≤ c.length)
      (spent : ¬s.HasKey .formula) : Refuses s c .formula .originalKeys s
  | additionKeys (room : s.totalCount < s.limit) (long : 2 ≤ c.length)
      (spent : ¬s.HasKey .resolution) :
      Refuses s c .resolution .additionKeys { s with vacated := [] }

namespace Refuses

variable {s' : ClauseStore} {c : Clause} {origin : ClauseOrigin} {failure : Failure}

theorem not_takes (refuses : s.Refuses c origin failure s') : ¬s.Takes c origin := by
  intro takes
  cases refuses with
  | full full => exact Nat.not_le.2 takes.room full
  | originalKeys room long spent => exact spent (takes.key long)
  | additionKeys room long spent => exact spent (takes.key long)

theorem count_eq (refuses : s.Refuses c origin failure s') :
    s'.totalCount = s.totalCount ∧ s'.limit = s.limit := by
  cases refuses <;> exact ⟨rfl, rfl⟩

theorem resolution (refuses : s.Refuses c .resolution failure s') :
    failure = .clauseLimit s'.limit ∧ s'.limit ≤ s'.totalCount ∨
      failure = .additionKeys ∧ ¬s'.HasKey .resolution := by
  cases refuses with
  | full full => exact .inl ⟨rfl, full⟩
  | additionKeys room long spent =>
    refine .inr ⟨rfl, not_or.2 ⟨fun unused => spent (.inl unused), ?_⟩⟩
    rintro ⟨_, member, -⟩
    exact List.not_mem_nil member

end Refuses

theorem freshKey_spec {newSlot : Nat} {vacated vacated' : List ClauseKey} {key : ClauseKey}
    (answer : freshKey newSlot vacated = (.ok key, vacated')) :
    vacated'.Sublist vacated ∧ (key = .addition newSlot 0 ∧ newSlot ≤ ClauseKey.maxIndex ∨
      ∃ last ∈ vacated, last.renew = .ok key ∧
        ((vacated.map ClauseKey.index).Nodup → ∀ other ∈ vacated', other.index ≠ last.index)) := by
  induction vacated with
  | nil =>
    obtain ⟨taken, rfl⟩ := Prod.mk.inj answer
    refine ⟨.slnil, .inl ?_⟩
    split at taken <;> cases taken
    rename_i unused
    exact ⟨rfl, unused⟩
  | cons last rest ih =>
    simp only [freshKey] at answer
    split at answer
    · rename_i renewed
      obtain ⟨same, rfl⟩ := Prod.mk.inj answer
      obtain rfl := Except.ok.inj same
      refine ⟨List.sublist_cons_self _ _, .inr ⟨last, List.mem_cons_self, renewed, ?_⟩⟩
      intro distinct other member same
      rw [List.map_cons, List.nodup_cons] at distinct
      exact distinct.1 (List.mem_map.2 ⟨other, member, same⟩)
    · obtain ⟨sublist, place⟩ := ih answer
      refine ⟨sublist.cons _, place.imp_right ?_⟩
      rintro ⟨old, member, renewed, apart⟩
      refine ⟨old, List.mem_cons_of_mem _ member, renewed, fun distinct => ?_⟩
      rw [List.map_cons, List.nodup_cons] at distinct
      exact apart distinct.2

theorem freshKey_of_hasKey (left : s.HasKey .resolution) :
    ∃ key vacated, freshKey s.additions.size s.vacated = (.ok key, vacated) := by
  unfold HasKey at left
  generalize s.vacated = vacated at left ⊢
  induction vacated with
  | nil =>
    have unused := left.resolve_right fun ⟨_, member, _⟩ => List.not_mem_nil member
    exact ⟨_, [], by rw [freshKey, if_pos unused]⟩
  | cons last rest ih =>
    rw [freshKey]
    split
    · exact ⟨_, rest, rfl⟩
    · rename_i refused
      refine ih (left.imp_right ?_)
      rintro ⟨other, member, key, renewed⟩
      rcases List.mem_cons.1 member with rfl | member
      · cases refused.symm.trans renewed
      · exact ⟨other, member, key, renewed⟩

theorem freshKey_of_not_hasKey (spent : ¬s.HasKey .resolution) :
    freshKey s.additions.size s.vacated = (.error .additionKeys, []) := by
  unfold HasKey at spent
  generalize s.vacated = vacated at spent ⊢
  induction vacated with
  | nil => rw [freshKey, if_neg fun unused => spent (.inl unused)]
  | cons last rest ih =>
    rw [freshKey]
    split
    · rename_i key renewed
      exact absurd (.inr ⟨last, List.mem_cons_self, key, renewed⟩) spent
    · refine ih fun left => spent (left.imp_right ?_)
      rintro ⟨other, member, renewed⟩
      exact ⟨other, List.mem_cons_of_mem last member, renewed⟩

example : freshKey (ClauseKey.maxIndex + 1) [.addition 7 ClauseKey.maxToken] =
    (.error .additionKeys, []) :=
  rfl

def fill (additions : Array (Option WatchedClause)) (i : Nat) (c : WatchedClause) :
    Array (Option WatchedClause) :=
  if i < additions.size then additions.setIfInBounds i (some c) else additions.push (some c)

theorem getElem?_fill {additions : Array (Option WatchedClause)} {i : Nat} (le : i ≤ additions.size)
    (c : WatchedClause) (j : Nat) :
    (fill additions i c)[j]? = if j = i then some (some c) else additions[j]? := by
  unfold fill
  split
  · rw [Array.getElem?_setIfInBounds]
    grind
  · rw [Array.getElem?_push]
    grind

theorem size_fill {additions : Array (Option WatchedClause)} {i : Nat} (le : i ≤ additions.size)
    (c : WatchedClause) : (fill additions i c).size = max additions.size (i + 1) := by
  unfold fill
  split
  · rw [Array.size_setIfInBounds]
    omega
  · rw [Array.size_push]
    omega

theorem Vacant.freshKey {vacated : List ClauseKey} {key : ClauseKey} (vacant : s.Vacant)
    (answer : freshKey s.additions.size s.vacated = (.ok key, vacated)) :
    ∃ i token, key = .addition i token ∧ i ≤ s.additions.size ∧
      (∀ d, s.additions[i]? ≠ some (some d)) ∧
      ∀ (c : WatchedClause) (s' : ClauseStore), s'.additions = fill s.additions i c →
        s'.vacated = vacated → s'.Vacant := by
  obtain ⟨sublist, place⟩ := freshKey_spec answer
  obtain ⟨i, token, rfl, le, free, apart⟩ : ∃ i token, key = .addition i token ∧
      i ≤ s.additions.size ∧ (∀ d, s.additions[i]? ≠ some (some d)) ∧
      ∀ other ∈ vacated, other.index ≠ i := by
    rcases place with ⟨rfl, -⟩ | ⟨last, member, renewed, apart⟩
    · refine ⟨_, 0, rfl, Nat.le_refl _, fun d found => by simp at found, fun other member => ?_⟩
      intro same
      obtain ⟨j, token, rfl, empty⟩ := vacant.empty other (sublist.subset member)
      exact absurd (Array.getElem?_eq_some_iff.1 empty).1 (Nat.not_lt.2 (Nat.le_of_eq same.symm))
    · obtain ⟨i, token, rfl, -, rfl⟩ := ClauseKey.renew_eq_ok renewed
      obtain ⟨_, _, same, empty⟩ := vacant.empty _ member
      obtain ⟨rfl, rfl⟩ := ClauseKey.addition.inj same
      exact ⟨i, _, rfl, (Array.getElem?_eq_some_iff.1 empty).1.le,
        fun d found => by simp [empty] at found, apart vacant.distinct⟩
  refine ⟨i, token, rfl, le, free, fun c s' filled taken => ⟨fun last member => ?_, ?_⟩⟩
  · rw [taken] at member
    obtain ⟨j, token', rfl, empty⟩ := vacant.empty last (sublist.subset member)
    refine ⟨j, token', rfl, ?_⟩
    rw [filled, getElem?_fill le, if_neg, empty]
    exact apart _ member
  · rw [taken]
    exact (sublist.map _).nodup vacant.distinct

theorem Vacant.ne_filled {s' : ClauseStore} (vacant : s'.Vacant) {i j token : Nat}
    {c : WatchedClause} (additions : s'.additions = fill s.additions i c)
    (le : i ≤ s.additions.size) (member : .addition j token ∈ s'.vacated) : j ≠ i := by
  rintro rfl
  obtain ⟨_, _, same, empty⟩ := vacant.empty _ member
  obtain ⟨rfl, rfl⟩ := ClauseKey.addition.inj same
  rw [additions, getElem?_fill le, if_pos rfl] at empty
  cases empty

theorem Ranked.fill {ranks : IndexedHeap ClauseRank} {additions : Array (Option WatchedClause)}
    (ranked : Ranked ranks additions) {i : Nat} (le : i ≤ additions.size) (c : WatchedClause)
    (rank : ClauseRank) :
    Ranked ((ranks.add i rank).2.activate i).2 (fill additions i c) := by
  obtain ⟨added, onHeap, size⟩ := IndexedHeap.add_spec ranked.wellFormed i rank
  have room : i < (ranks.add i rank).2.values.size := by
    rw [size]
    exact Nat.lt_of_lt_of_le (Nat.lt_succ_self _) (Nat.le_max_right _ _)
  obtain ⟨activated, active, size'⟩ := IndexedHeap.activate_spec added room
  refine ⟨activated, ?_, fun j => ?_⟩
  · rw [size_fill le, ← ranked.size]
    exact size'.trans size
  · rw [getElem?_fill le, active, onHeap, ranked.active]
    by_cases same : j = i
    · simp [same]
    · simp [same]

/-- The store with a long addition put in the free slot `i`. -/
def addLong (s : ClauseStore) (i : Nat) (c : WatchedClause) (vacated : List ClauseKey)
    (blockDistance : Nat) : ClauseStore :=
  { s with
    additions := fill s.additions i c
    vacated
    additionCount := s.additionCount + 1
    ranks := ((s.ranks.add i ⟨s.bump, blockDistance⟩).2.activate i).2 }

theorem value?_addLong (ranked : Ranked s.ranks s.additions) {i : Nat} (le : i ≤ s.additions.size)
    (c : WatchedClause) (vacated : List ClauseKey) (blockDistance : Nat) :
    (s.addLong i c vacated blockDistance).ranks.value? i = some ⟨s.bump, blockDistance⟩ := by
  rw [addLong, IndexedHeap.value?, IndexedHeap.values_activate]
  exact s.ranks.value?_add (ranked.size ▸ le) _

theorem stored_addition {s' : ClauseStore} {i token : Nat} (le : i ≤ s.additions.size)
    (free : ∀ d, s.additions[i]? ≠ some (some d)) (key : c.key = .addition i token)
    (originals : s'.originals = s.originals) (additions : s'.additions = fill s.additions i c) :
    Stored s s' c where
  fresh d live := by
    rw [key, get_addition] at live
    exact free d live.1
  get_iff other d := by
    cases other with
    | originalUnit l => simp [get, key]
    | additionUnit l => simp [get, key]
    | original j => simp [get, key, originals]
    | addition j token' =>
      rw [get_addition, get_addition, additions, getElem?_fill le, key,
        ClauseKey.addition.injEq]
      by_cases same : j = i
      · subst same
        simp only [if_pos, Option.some.injEq, true_and]
        constructor
        · rintro ⟨rfl, holds⟩
          rw [key, ClauseKey.addition.injEq] at holds
          exact .inl ⟨holds.2.symm, rfl⟩
        · rintro (⟨rfl, rfl⟩ | ⟨found, -⟩)
          · exact ⟨rfl, key⟩
          · exact absurd found (free d)
      · simp [same]

theorem Stored.wellFormed {s' : ClauseStore} (stored : Stored s s' c)
    (wellFormed : s.WellFormed proper) (shaped : c.WellFormed proper)
    (slotted : ∀ (i : Nat) d, s'.additions[i]? = some (some d) →
      ∃ token, d.key = .addition i token) : s'.WellFormed proper := by
  have shaped' (key : ClauseKey) (d : WatchedClause) (live : s'.get key = .ok d) :
      d.key = key ∧ d.WellFormed proper := by
    rcases (stored.get_iff key d).1 live with ⟨rfl, rfl⟩ | live
    · exact ⟨rfl, shaped⟩
    · exact ⟨wellFormed.key_eq live, wellFormed.shaped key d live⟩
  exact ⟨fun i d found => (shaped' (.original i) d (get_original.2 found)).1, slotted,
    fun key d live => (shaped' key d live).2⟩

structure Orderly (proper : Literal → Prop) (s : ClauseStore) : Prop where
  wellFormed : s.WellFormed proper
  vacant : s.Vacant
  ranked : Ranked s.ranks s.additions

theorem Orderly.congr {s' : ClauseStore} (orderly : s.Orderly proper) (same : SameClauses s s')
    (vacated : s'.vacated = s.vacated) (ranks : s.ranks.Reordered s'.ranks) :
    s'.Orderly proper where
  wellFormed := same.wellFormed orderly.wellFormed
  vacant := by
    refine ⟨?_, vacated ▸ orderly.vacant.distinct⟩
    rw [vacated, same.additions]
    exact orderly.vacant.empty
  ranked := same.additions ▸ orderly.ranked.reordered ranks

theorem Orderly.mono (orderly : s.Orderly proper) {wider : Literal → Prop}
    (included : ∀ l, proper l → wider l) : s.Orderly wider :=
  ⟨orderly.wellFormed.mono included, orderly.vacant, orderly.ranked⟩

end ClauseStore

namespace WatchedStore

open ClauseStore WatchLists

variable {proper : Literal → Prop} {value : Atom → Option Bool} {s : WatchedStore} {c : Clause}

theorem insertOriginal_spec (value : Atom → Option Bool) (orderly : s.store.Orderly proper)
    (mirrors : s.Mirrors) (left : s.store.HasKey .formula) (two_le : 2 ≤ c.length)
    (distinct : (c.map Int.natAbs).Nodup) (known : ∀ l ∈ c, proper l) :
    ∃ key s', insertOriginal value s c = (.ok key, s') ∧ s'.store.Orderly proper ∧ s'.Mirrors ∧
      Stored s.store s'.store (.ofClause value key c) ∧
      s'.store.originalUnits = s.store.originalUnits ∧
      s'.store.additionUnits = s.store.additionUnits ∧
      s'.store.originals = s.store.originals.push (.ofClause value key c) := by
  let key : ClauseKey := .original s.store.originals.size
  let stored := WatchedClause.ofClause value key c
  have shaped : stored.WellFormed proper :=
    WatchedClause.ofClause_wellFormed value key two_le distinct known
  have isStored := stored_original (s := s.store) (c := stored) rfl
  refine ⟨key, _, if_pos left, ⟨?_, ⟨orderly.vacant.empty, orderly.vacant.distinct⟩,
    orderly.ranked⟩, ?_, isStored, rfl, rfl, rfl⟩
  · exact isStored.wellFormed orderly.wellFormed shaped orderly.wellFormed.slotted
  · exact mirrors.insert isStored shaped.first_ne_second

theorem insertAddition_addLong (vacant : s.store.Vacant) (left : s.store.HasKey .resolution)
    (value : Atom → Option Bool) (c : Clause) (blockDistance : Nat) :
    ∃ i token vacated, i ≤ s.store.additions.size ∧
      (∀ d, s.store.additions[i]? ≠ some (some d)) ∧
      (s.store.addLong i (.ofClause value (.addition i token) c) vacated blockDistance).Vacant ∧
      insertAddition value s c blockDistance = (.ok (.addition i token),
        ⟨s.store.addLong i (.ofClause value (.addition i token) c) vacated blockDistance,
          watchClause s.watches (.ofClause value (.addition i token) c)⟩) := by
  obtain ⟨store, watches⟩ := s
  obtain ⟨key, vacated, answer⟩ := freshKey_of_hasKey left
  obtain ⟨i, token, rfl, le, free, vacant'⟩ := vacant.freshKey answer
  refine ⟨i, token, vacated, le, free, vacant' _ _ rfl rfl, ?_⟩
  simp only [insertAddition, answer]
  rfl

theorem insertAddition_spec (value : Atom → Option Bool) (orderly : s.store.Orderly proper)
    (mirrors : s.Mirrors) (left : s.store.HasKey .resolution) (two_le : 2 ≤ c.length)
    (distinct : (c.map Int.natAbs).Nodup) (known : ∀ l ∈ c, proper l) (blockDistance : Nat) :
    ∃ key s', insertAddition value s c blockDistance = (.ok key, s') ∧
      s'.store.Orderly proper ∧ s'.Mirrors ∧ Stored s.store s'.store (.ofClause value key c) ∧
      s'.store.originalUnits = s.store.originalUnits ∧
      s'.store.additionUnits = s.store.additionUnits ∧
      s'.store.originals = s.store.originals := by
  obtain ⟨i, token, vacated, le, free, vacant, inserted⟩ :=
    insertAddition_addLong orderly.vacant left value c blockDistance
  let stored := WatchedClause.ofClause value (.addition i token) c
  have shaped : stored.WellFormed proper :=
    WatchedClause.ofClause_wellFormed value _ two_le distinct known
  have isStored : Stored s.store (s.store.addLong i stored vacated blockDistance) stored :=
    stored_addition le free rfl rfl rfl
  refine ⟨_, _, inserted, ⟨?_, vacant, orderly.ranked.fill le stored _⟩, ?_, isStored, rfl, rfl,
    rfl⟩
  · refine isStored.wellFormed orderly.wellFormed shaped fun j d found => ?_
    simp only [addLong, getElem?_fill le] at found
    split at found
    · obtain rfl := Option.some.inj (Option.some.inj found)
      subst j
      exact ⟨token, rfl⟩
    · exact orderly.wellFormed.slotted j d found
  · exact mirrors.insert isStored shaped.first_ne_second

theorem insert_long {level : Atom → Option Nat} {origin : ClauseOrigin}
    (orderly : s.store.Orderly proper) (mirrors : s.Mirrors) (takes : s.store.Takes c origin)
    (two_le : 2 ≤ c.length) (distinct : (c.map Int.natAbs).Nodup) (known : ∀ l ∈ c, proper l)
    (blockDistance : Option Nat) :
    ∃ key s', s.insert value level c origin blockDistance = (.ok key, s') ∧
      s'.store.Orderly proper ∧ s'.Mirrors ∧ Stored s.store s'.store (.ofClause value key c) ∧
      s'.store.originalUnits = s.store.originalUnits ∧
      s'.store.additionUnits = s.store.additionUnits ∧
      s'.store.originals = match origin with
        | .formula => s.store.originals.push (.ofClause value key c)
        | .resolution => s.store.originals := by
  obtain ⟨l, m, rest, rfl⟩ : ∃ l m rest, c = l :: m :: rest := by
    match c, two_le with
    | l :: m :: rest, _ => exact ⟨l, m, rest, rfl⟩
  have left := takes.key two_le
  unfold insert
  rw [if_neg (Nat.not_le.2 takes.room)]
  cases origin with
  | formula =>
    exact insertOriginal_spec value orderly mirrors left two_le distinct known
  | resolution =>
    exact insertAddition_spec value orderly mirrors left two_le distinct known
      (blockDistance.getD (Clause.blockDistance level (l :: m :: rest)))

theorem insert_refused {origin : ClauseOrigin} (nonempty : c ≠ [])
    (refused : ¬s.store.Takes c origin) (value : Atom → Option Bool) (level : Atom → Option Nat)
    (blockDistance : Option Nat) :
    ∃ failure store, s.store.Refuses c origin failure store ∧
      s.insert value level c origin blockDistance = (.error failure, { s with store }) := by
  unfold insert
  by_cases full : s.store.limit ≤ s.store.totalCount
  · exact ⟨_, s.store, .full full, if_pos full⟩
  have room := Nat.lt_of_not_le full
  rw [if_neg full]
  have spent : 2 ≤ c.length ∧ ¬s.store.HasKey origin := by
    by_contra left
    exact refused ⟨room, fun two_le => by_contra fun spent => left ⟨two_le, spent⟩⟩
  match c, origin, spent with
  | _ :: _ :: _, .formula, ⟨long, spent⟩ =>
    exact ⟨_, s.store, .originalKeys room long spent, if_neg spent⟩
  | _ :: _ :: _, .resolution, ⟨long, spent⟩ =>
    refine ⟨_, { s.store with vacated := [] }, .additionKeys room long spent, ?_⟩
    simp only [insertAddition, freshKey_of_not_hasKey spent]

theorem unwatchClause_cases (w : WatchLists) (c : WatchedClause) (key : ClauseKey) :
    (w.Holds [c.first, c.second] key ∧ ∃ w', unwatchClause w c key = (.ok (), w') ∧
      w.Without w' [c.first, c.second] key) ∨
    (¬w.Holds [c.first, c.second] key ∧ ∃ failure w',
      unwatchClause w c key = (.error failure, w') ∧ failure.text = "ClauseDB(MissingWatch)" ∧
      (w' = w ∨ w.Without w' [c.first] key)) := by
  by_cases first : key ∈ w.watchers c.first
  · obtain ⟨w', unwatched, without⟩ := unwatch_without first
    by_cases second : key ∈ w'.watchers c.second
    · obtain ⟨w'', unwatched', without'⟩ := unwatch_without second
      have both := without.trans without'
      exact .inl ⟨both.holds, w'', by simp only [unwatchClause, unwatched, unwatched'], both⟩
    · obtain ⟨failure, missing, text⟩ := unwatch_of_not_mem second
      refine .inr ⟨fun held => ?_, failure, w', ?_, text, .inr without⟩
      · have enough := held c.second
        have none : (w'.watchers c.second).toList.count key = 0 :=
          List.count_eq_zero.2 (by simpa using second)
        rw [without.count_eq, none, ← List.singleton_append, List.count_append,
          List.count_singleton_self] at enough
        omega
      · simp only [unwatchClause, unwatched, missing]
  · obtain ⟨failure, missing, text⟩ := unwatch_of_not_mem first
    refine .inr ⟨fun held => ?_, failure, w, by simp only [unwatchClause, missing], text, .inl rfl⟩
    have enough := held c.first
    have none : (w.watchers c.first).toList.count key = 0 :=
      List.count_eq_zero.2 (by simpa using first)
    rw [none] at enough
    simp at enough

theorem unwatchClause_spec (mirrors : s.Mirrors) {key : ClauseKey} {c : WatchedClause}
    (live : s.store.get key = .ok c) (apart : c.first ≠ c.second) :
    ∃ w, unwatchClause s.watches c key = (.ok (), w) ∧ ∀ l,
      (c.Watches l → (key :: (w.watchers l).toList).Perm (s.watches.watchers l).toList) ∧
      (¬c.Watches l → w.watchers l = s.watches.watchers l) := by
  have once (l : Literal) (watches : c.Watches l) : [c.first, c.second].count l = 1 := by
    rcases watches with rfl | rfl
    · simp [Ne.symm apart]
    · simp [apart]
  have absent (l : Literal) (unwatched : ¬c.Watches l) : l ∉ [c.first, c.second] := by
    simpa [WatchedClause.Watches, eq_comm] using unwatched
  rcases unwatchClause_cases s.watches c key with ⟨-, w, unwatched, without⟩ | ⟨missing, -⟩
  · refine ⟨w, unwatched, fun l =>
      ⟨fun watches => ?_, fun other => without.same l (absent l other)⟩⟩
    have perm := without.perm l
    rwa [once l watches] at perm
  · refine absurd (fun l => ?_) missing
    by_cases watches : c.Watches l
    · rw [once l watches, List.one_le_count_iff, Array.mem_toList_iff]
      exact mirrors.mem_iff.2 ⟨c, live, watches⟩
    · rw [List.count_eq_zero.2 (absent l watches)]
      exact Nat.zero_le _

end WatchedStore

namespace ClauseStore

variable {s s' : ClauseStore} {key : ClauseKey} {i token : Nat} {c : WatchedClause}

theorem Lists.remove {l : Literal} {keys keys' : List ClauseKey} (lists : s.Lists l keys)
    (removed : Removed s s' key) (perm : (key :: keys').Perm keys) : s'.Lists l keys' := by
  refine lists.lose perm fun other => ?_
  unfold Watching
  simp only [removed other, and_assoc, exists_and_left]
  exact and_comm

theorem Lists.remove_other {l : Literal} {keys : List ClauseKey} (lists : s.Lists l keys)
    (removed : Removed s s' key) (live : s.get key = .ok c) (unwatched : ¬c.Watches l) :
    s'.Lists l keys := by
  refine lists.keep fun other => ?_
  unfold Watching
  simp only [removed other, and_assoc, exists_and_left, and_iff_right_iff_imp]
  rintro ⟨d, live', watched⟩ rfl
  obtain rfl := Except.ok.inj (live.symm.trans live')
  exact unwatched watched

theorem removed_vacate (live : s.get (.addition i token) = .ok c) :
    Removed s (s.vacate i) (.addition i token) := by
  obtain ⟨found, key⟩ := get_addition.1 live
  intro other d
  cases other with
  | originalUnit l => simp [ClauseStore.get]
  | additionUnit l => simp [ClauseStore.get]
  | original j => simp [ClauseStore.get, vacate]
  | addition j token' =>
    rw [get_addition, get_addition, vacate]
    simp only [Array.getElem?_setIfInBounds, ne_eq, ClauseKey.addition.injEq, not_and]
    by_cases same : i = j
    · subst same
      rw [if_pos rfl]
      constructor
      · rintro ⟨none, -⟩
        split at none <;> cases none
      · rintro ⟨stale, present, holds⟩
        rw [found] at present
        obtain rfl := Option.some.inj (Option.some.inj present)
        rw [key, ClauseKey.addition.injEq] at holds
        exact absurd holds.2.symm (stale rfl)
    · rw [if_neg same]
      simp [Ne.symm same]

theorem additions_vacate (s : ClauseStore) (i j : Nat) (d : WatchedClause) :
    (s.vacate i).additions[j]? = some (some d) ↔ j ≠ i ∧ s.additions[j]? = some (some d) := by
  simp only [vacate, Array.getElem?_setIfInBounds]
  by_cases same : i = j
  · subst same
    rw [if_pos rfl]
    constructor
    · intro none
      split at none <;> cases none
    · exact fun impossible => absurd rfl impossible.1
  · rw [if_neg same]
    simp [Ne.symm same]

theorem Vacant.release (vacant : s.Vacant) (found : s.additions[i]? = some (some c)) :
    ((s.vacate i).release (.addition i token)).Vacant := by
  have inside := (Array.getElem?_eq_some_iff.1 found).1
  constructor
  · intro last member
    simp only [ClauseStore.release, vacate, Array.getElem?_setIfInBounds]
    rcases List.mem_cons.1 member with rfl | member
    · exact ⟨i, token, rfl, by simp [inside]⟩
    · obtain ⟨j, token', rfl, isEmpty⟩ := vacant.empty last member
      refine ⟨j, token', rfl, ?_⟩
      split
      · rfl
      · exact isEmpty
  · refine List.nodup_cons.2 ⟨fun member => ?_, vacant.distinct⟩
    obtain ⟨last, member, index⟩ := List.mem_map.1 member
    obtain ⟨j, token', rfl, isEmpty⟩ := vacant.empty last member
    simp only [ClauseKey.index] at index
    subst index
    simp [found] at isEmpty

end ClauseStore

namespace WatchedStore

open ClauseStore

variable {proper : Literal → Prop} {s : WatchedStore}

theorem detach_spec {i token : Nat} {c : WatchedClause}
    (live : s.store.get (.addition i token) = .ok c) (wellFormed : s.store.WellFormed proper)
    (vacant : s.store.Vacant) (mirrors : s.Mirrors) :
    ∃ s', s.detach (.addition i token) = (.ok (), s') ∧
      Removed s.store s'.store (.addition i token) ∧ s'.store.WellFormed proper ∧
      s'.store.Vacant ∧ s'.Mirrors ∧ s'.store.originalUnits = s.store.originalUnits ∧
      s'.store.additionUnits = s.store.additionUnits ∧
      s'.store.originals = s.store.originals ∧ s'.store.additions.size = s.store.additions.size ∧
      ∀ j d, s'.store.additions[j]? = some (some d) ↔
        j ≠ i ∧ s.store.additions[j]? = some (some d) := by
  obtain ⟨w, unwatched, lists⟩ :=
    unwatchClause_spec mirrors live (wellFormed.shaped _ c live).first_ne_second
  have removed : Removed s.store ((s.store.vacate i).release (.addition i token))
      (.addition i token) := removed_vacate live
  have slots := s.store.additions_vacate i
  refine ⟨⟨(s.store.vacate i).release (.addition i token), w⟩, ?_, removed, ?_,
    vacant.release (get_addition.1 live).1, fun l => ?_, rfl, rfl, rfl, by simp [vacate, release],
    slots⟩
  · simp only [detach, live, unwatched]
  · refine ⟨wellFormed.keyed, fun j d slot => ?_, fun other d live' => ?_⟩
    · exact wellFormed.slotted j d ((slots j d).1 slot).2
    · exact wellFormed.shaped other d ((removed other d).1 live').2
  · obtain ⟨onList, offList⟩ := lists l
    by_cases watches : c.Watches l
    · exact (mirrors l).remove removed (onList watches)
    · simp only [offList watches]
      exact (mirrors l).remove_other removed live watches

end WatchedStore

end ClauseLearning
