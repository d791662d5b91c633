import ClauseLearning.Proofs.StoreChanges
import ClauseLearning.Proofs.WatchWalks

/-!
A ledger of the keys a store handed out and of those removed since. The tokens of a slot are handed
out one after another, and the store knows the latest: from the clause in the slot, or else from the
list of free slots. So the next key is new, and a key leads to the clause stored under it or to
nothing. Only slots whose tokens ran out are given up.
-/

namespace ClauseLearning

namespace ClauseKey

def isLong : ClauseKey → Bool
  | original _ | addition _ _ => true
  | originalUnit _ | additionUnit _ => false

def tokenIn? (i : Nat) : ClauseKey → Option Nat
  | addition j token => if j = i then some token else none
  | originalUnit _ | additionUnit _ | original _ => none

theorem tokenIn?_eq_some {i token : Nat} {key : ClauseKey} :
    key.tokenIn? i = some token ↔ key = .addition i token := by
  cases key with
  | addition j other =>
    by_cases same : j = i
    · simp [tokenIn?, same]
    · simp [tokenIn?, same]
  | _ => simp [tokenIn?]

theorem le_of_renew_eq_error {i token : Nat} {failure : Failure}
    (refused : (addition i token).renew = .error failure) : maxToken ≤ token := by
  by_contra room
  simp only [renew, if_pos (Nat.lt_of_not_le room), reduceCtorEq] at refused

theorem isLong_unitKey (l : Literal) (origin : ClauseOrigin) :
    (unitKey l origin).isLong = false := by
  cases origin <;> rfl

theorem tokenIn?_unitKey (i : Nat) (l : Literal) (origin : ClauseOrigin) :
    (unitKey l origin).tokenIn? i = none := by
  cases origin <;> rfl

end ClauseKey

theorem ClauseStore.renew_of_not_mem_freshKey {newSlot : Nat} {vacated vacated' : List ClauseKey}
    {key last : ClauseKey} (answer : freshKey newSlot vacated = (.ok key, vacated'))
    (member : last ∈ vacated) (taken : last ∉ vacated') :
    last.renew = .ok key ∨ ∃ failure, last.renew = .error failure := by
  induction vacated with
  | nil => cases member
  | cons first rest ih =>
    simp only [freshKey] at answer
    split at answer <;> rename_i renewed
    · obtain ⟨same, rfl⟩ := Prod.mk.inj answer
      obtain rfl := Except.ok.inj same
      obtain rfl := (List.mem_cons.1 member).resolve_right taken
      exact .inl renewed
    · rcases List.mem_cons.1 member with rfl | member
      · exact .inr ⟨_, renewed⟩
      · exact ih answer member

theorem ClauseStore.forgotten_of_freshKey {newSlot i token j last : Nat}
    {vacated vacated' : List ClauseKey}
    (answer : freshKey newSlot vacated = (.ok (.addition i token), vacated'))
    (member : .addition j last ∈ vacated) (taken : .addition j last ∉ vacated') :
    j = i ∨ ClauseKey.maxToken ≤ last := by
  rcases renew_of_not_mem_freshKey answer member taken with renewed | ⟨failure, refused⟩
  · obtain ⟨slot, _, before, -, after⟩ := ClauseKey.renew_eq_ok renewed
    have sameBefore : j = slot := (ClauseKey.addition.inj before).1
    have sameAfter : i = slot := (ClauseKey.addition.inj after).1
    exact .inl (sameBefore.trans sameAfter.symm)
  · exact .inr (ClauseKey.le_of_renew_eq_error refused)

/-- The keys which were handed out, with the clauses stored under them, and those of additions which
were removed. Both are listed latest first. -/
structure Ledger where
  issued : List (ClauseKey × Clause) := []
  removed : List ClauseKey := []

namespace Ledger

def issue (ledger : Ledger) (key : ClauseKey) (c : Clause) : Ledger :=
  { ledger with issued := (key, c) :: ledger.issued }

def remove (ledger : Ledger) (key : ClauseKey) : Ledger :=
  { ledger with removed := key :: ledger.removed }

def keys (ledger : Ledger) : List ClauseKey := ledger.issued.map Prod.fst

def tokens (ledger : Ledger) (i : Nat) : List Nat := ledger.keys.filterMap (·.tokenIn? i)

variable {ledger : Ledger} {s s' : ClauseStore} {key : ClauseKey} {c : Clause}

@[simp] theorem keys_issue : (ledger.issue key c).keys = key :: ledger.keys := rfl

theorem mem_tokens {i token : Nat} : token ∈ ledger.tokens i ↔ .addition i token ∈ ledger.keys := by
  simp only [tokens, List.mem_filterMap, ClauseKey.tokenIn?_eq_some, exists_eq_right]

theorem tokens_issue_of_none {i : Nat} (other : key.tokenIn? i = none) :
    (ledger.issue key c).tokens i = ledger.tokens i :=
  List.filterMap_cons_none other

theorem tokens_issue_addition (i token : Nat) :
    (ledger.issue (.addition i token) c).tokens i = token :: ledger.tokens i :=
  List.filterMap_cons_some (ClauseKey.tokenIn?_eq_some.2 rfl)

theorem tokens_issue_other {i j : Nat} (apart : i ≠ j) (token : Nat) :
    (ledger.issue (.addition i token) c).tokens j = ledger.tokens j :=
  tokens_issue_of_none (if_neg apart)

/-- The tokens of each slot were handed out one after another, and the latest of each is that of the
clause in the slot or the one on the list of free slots. A slot that is in neither has had them
all. -/
structure Numbers (ledger : Ledger) (s : ClauseStore) : Prop where
  original_lt : ∀ i, .original i ∈ ledger.keys → i < s.originals.size
  tokens : ∀ i, ∃ n ≤ ClauseKey.maxToken + 1, ledger.tokens i = (List.range n).reverse
  unused : ∀ i, s.additions.size ≤ i → ledger.tokens i = []
  latest : ∀ i token c, s.get (.addition i token) = .ok c → (ledger.tokens i).head? = some token
  vacated : ∀ i token, .addition i token ∈ s.vacated → (ledger.tokens i).head? = some token
  spent : ∀ i, s.additions[i]? = some none →
    (∃ token, .addition i token ∈ s.vacated) ∨
      (ledger.tokens i).head? = some ClauseKey.maxToken

namespace Numbers

theorem tokens_of_latest (numbers : ledger.Numbers s) {i token : Nat}
    (latest : (ledger.tokens i).head? = some token) :
    token ≤ ClauseKey.maxToken ∧ ledger.tokens i = (List.range (token + 1)).reverse := by
  obtain ⟨n, le, tokens⟩ := numbers.tokens i
  rw [tokens, List.head?_reverse, List.getLast?_range] at latest
  obtain ⟨positive, rfl⟩ : n ≠ 0 ∧ n - 1 = token := by
    by_cases none : n = 0
    · simp [none] at latest
    · exact ⟨none, by simpa [none] using latest⟩
  rw [tokens, Nat.sub_add_cancel (Nat.pos_of_ne_zero positive)]
  exact ⟨Nat.sub_le_of_le_add le, rfl⟩

theorem fresh (numbers : ledger.Numbers s) {vacated : List ClauseKey}
    (answer : ClauseStore.freshKey s.additions.size s.vacated = (.ok key, vacated)) :
    ∃ i token, key = .addition i token ∧ token ≤ ClauseKey.maxToken ∧
      ledger.tokens i = (List.range token).reverse := by
  rcases (ClauseStore.freshKey_spec answer).2 with ⟨rfl, -⟩ | ⟨last, member, renewed, -⟩
  · exact ⟨_, 0, rfl, Nat.zero_le _, numbers.unused _ (Nat.le_refl _)⟩
  · obtain ⟨i, token, rfl, room, rfl⟩ := ClauseKey.renew_eq_ok renewed
    have latest := numbers.vacated i token member
    exact ⟨i, token + 1, rfl, room, (numbers.tokens_of_latest latest).2⟩

theorem not_mem_addition {i token : Nat} (tokens : ledger.tokens i = (List.range token).reverse) :
    .addition i token ∉ ledger.keys := by
  rw [← mem_tokens, tokens, List.mem_reverse, List.mem_range]
  exact Nat.lt_irrefl token

theorem not_mem_original (numbers : ledger.Numbers s) :
    .original s.originals.size ∉ ledger.keys :=
  fun member => Nat.lt_irrefl _ (numbers.original_lt _ member)

theorem preserves (numbers : ledger.Numbers s) (preserves : s.Preserves s') :
    ledger.Numbers s' where
  original_lt i member := preserves.originals ▸ numbers.original_lt i member
  tokens := numbers.tokens
  unused i outside := by
    have size := congrArg Array.size preserves.occupied
    rw [Array.size_map, Array.size_map] at size
    exact numbers.unused i (size ▸ outside)
  latest i token c live := by
    obtain ⟨d, before, -⟩ := preserves.rearranged.back _ c live
    exact numbers.latest i token d before
  vacated i token member := numbers.vacated i token (preserves.vacated ▸ member)
  spent i empty := by
    have occupied := congrArg (·[i]?) preserves.occupied
    simp only [Array.getElem?_map, empty, Option.map_some, Option.isSome_none] at occupied
    obtain ⟨slot, found, isNone⟩ := Option.map_eq_some_iff.1 occupied.symm
    obtain rfl := Option.not_isSome_iff_eq_none.1 (Bool.eq_false_iff.1 isNone)
    exact preserves.vacated ▸ numbers.spent i found

theorem issue_of_none (numbers : ledger.Numbers s) (none : ∀ i, key.tokenIn? i = none)
    (originals : ∀ i, .original i = key ∨ i < s.originals.size → i < s'.originals.size)
    (additions : s'.additions = s.additions) (vacated : s'.vacated = s.vacated) :
    (ledger.issue key c).Numbers s' where
  original_lt i member := originals i <| (List.mem_cons.1 member).imp_right (numbers.original_lt i)
  tokens i := by
    rw [tokens_issue_of_none (none i)]
    exact numbers.tokens i
  unused i outside := by
    rw [tokens_issue_of_none (none i)]
    exact numbers.unused i (additions ▸ outside)
  latest i token d live := by
    rw [tokens_issue_of_none (none i)]
    rw [ClauseStore.get_addition, additions, ← ClauseStore.get_addition] at live
    exact numbers.latest i token d live
  vacated i token member := by
    rw [tokens_issue_of_none (none i)]
    exact numbers.vacated i token (vacated ▸ member)
  spent i empty := by
    rw [tokens_issue_of_none (none i), vacated]
    exact numbers.spent i (additions ▸ empty)

theorem issue_unit (numbers : ledger.Numbers s) (l : Literal) (origin : ClauseOrigin) :
    (ledger.issue (unitKey l origin) c).Numbers (s.addUnit l origin) := by
  refine numbers.issue_of_none (ClauseKey.tokenIn?_unitKey · l origin) (fun i place => ?_) ?_ ?_
  · cases origin <;> exact place.resolve_left fun same => by cases same
  · cases origin <;> rfl
  · cases origin <;> rfl

theorem issue_original (numbers : ledger.Numbers s) (d : WatchedClause) :
    (ledger.issue (.original s.originals.size) c).Numbers
      { s with originals := s.originals.push d } := by
  refine numbers.issue_of_none (fun _ => rfl) (fun i place => ?_) rfl rfl
  simp only [Array.size_push, ClauseKey.original.injEq] at place ⊢
  omega

theorem issue_addition (numbers : ledger.Numbers s) {i token : Nat} {d : WatchedClause}
    (room : token ≤ ClauseKey.maxToken) (tokens : ledger.tokens i = (List.range token).reverse)
    (le : i ≤ s.additions.size) (free : ∀ d, s.additions[i]? ≠ some (some d))
    (key : d.key = .addition i token) (originals : s'.originals = s.originals)
    (additions : s'.additions = ClauseStore.fill s.additions i d)
    (vacated : ∀ key ∈ s'.vacated, key ∈ s.vacated)
    (forgotten : ∀ j other, .addition j other ∈ s.vacated → .addition j other ∉ s'.vacated →
      j = i ∨ ClauseKey.maxToken ≤ other) (vacant : s'.Vacant) :
    (ledger.issue (.addition i token) c).Numbers s' where
  original_lt j member := by
    rw [originals]
    exact numbers.original_lt j (by simpa using member)
  tokens j := by
    by_cases same : i = j
    · subst same
      refine ⟨token + 1, Nat.succ_le_succ room, ?_⟩
      rw [tokens_issue_addition, tokens, List.range_succ, List.reverse_append]
      rfl
    · rw [tokens_issue_other same]
      exact numbers.tokens j
  unused j outside := by
    rw [additions, ClauseStore.size_fill le, Nat.max_le] at outside
    rw [tokens_issue_other (Nat.ne_of_lt outside.2)]
    exact numbers.unused j outside.1
  latest j other e live := by
    rcases ((ClauseStore.stored_addition le free key originals additions).get_iff _ e).1 live with
      ⟨same, rfl⟩ | before
    · obtain ⟨rfl, rfl⟩ := ClauseKey.addition.inj (same.trans key)
      rw [tokens_issue_addition, List.head?_cons]
    · have apart : i ≠ j := by
        rintro rfl
        exact free e (ClauseStore.get_addition.1 before).1
      rw [tokens_issue_other apart]
      exact numbers.latest j other e before
  vacated j other member := by
    rw [tokens_issue_other (vacant.ne_filled additions le member).symm]
    exact numbers.vacated j other (vacated _ member)
  spent j empty := by
    rw [additions, ClauseStore.getElem?_fill le] at empty
    by_cases same : j = i
    · simp [same] at empty
    · rw [if_neg same] at empty
      rw [tokens_issue_other (Ne.symm same)]
      -- Another free slot is passed over only if it has no token left.
      rcases numbers.spent j empty with ⟨other, member⟩ | last
      · by_cases kept : .addition j other ∈ s'.vacated
        · exact .inl ⟨other, kept⟩
        · have latest := numbers.vacated j other member
          have last := (forgotten j other member kept).resolve_left same
          rw [(numbers.tokens_of_latest latest).1.antisymm last] at latest
          exact .inr latest
      · exact .inr last

theorem forget (numbers : ledger.Numbers s)
    (spent : ∀ last ∈ s.vacated, ∀ key, last.renew ≠ .ok key) :
    ledger.Numbers { s with vacated := [] } where
  original_lt := numbers.original_lt
  tokens := numbers.tokens
  unused := numbers.unused
  latest := numbers.latest
  vacated _ _ member := absurd member List.not_mem_nil
  spent i empty := by
    rcases numbers.spent i empty with ⟨token, member⟩ | last
    · have latest := numbers.vacated i token member
      have le : ClauseKey.maxToken ≤ token := by
        by_contra room
        exact spent _ member _ (if_pos (Nat.lt_of_not_le room))
      rw [(numbers.tokens_of_latest latest).1.antisymm le] at latest
      exact .inr latest
    · exact .inr last

theorem remove (numbers : ledger.Numbers s) {i token : Nat} {d : WatchedClause}
    (live : s.get (.addition i token) = .ok d) :
    (ledger.remove (.addition i token)).Numbers
      ((s.vacate i).release (.addition i token)) where
  original_lt := numbers.original_lt
  tokens := numbers.tokens
  unused j outside := by
    refine numbers.unused j ?_
    simpa [ClauseStore.release, ClauseStore.vacate] using outside
  latest j other e live' := by
    have removed : ClauseStore.Removed s ((s.vacate i).release (.addition i token))
        (.addition i token) := ClauseStore.removed_vacate live
    exact numbers.latest j other e ((removed _ e).1 live').2
  vacated j other member := by
    rcases List.mem_cons.1 member with same | member
    · obtain ⟨rfl, rfl⟩ := ClauseKey.addition.inj same
      exact numbers.latest j other d live
    · exact numbers.vacated j other member
  spent j empty := by
    by_cases same : i = j
    · exact .inl ⟨token, same ▸ List.mem_cons_self⟩
    · have before : s.additions[j]? = some none := by
        rw [← empty]
        exact (Array.getElem?_setIfInBounds_ne same).symm
      rcases numbers.spent j before with ⟨other, member⟩ | last
      · exact .inl ⟨other, List.mem_cons_of_mem _ member⟩
      · exact .inr last

end Numbers

/-- The keys of live clauses are those handed out and not removed, and each leads to the clause
which was stored under it. -/
structure Accounts (ledger : Ledger) (s : ClauseStore) : Prop where
  distinct : (ledger.keys.filter ClauseKey.isLong).Nodup
  removed : ∀ key ∈ ledger.removed, key ∈ ledger.keys
  held : ∀ key c, (key, c) ∈ ledger.issued → key.isLong → key ∉ ledger.removed →
    ∃ d, s.get key = .ok d ∧ d.clause.Perm c
  live : ∀ key d, s.get key = .ok d → key ∈ ledger.keys ∧ key ∉ ledger.removed

namespace Accounts

theorem preserves (accounts : ledger.Accounts s) (preserves : s.Preserves s') :
    ledger.Accounts s' where
  distinct := accounts.distinct
  removed := accounts.removed
  held key c issued long kept := by
    obtain ⟨d, live, perm⟩ := accounts.held key c issued long kept
    obtain ⟨d', live', perm'⟩ := preserves.rearranged.forth key d live
    exact ⟨d', live', perm'.trans perm⟩
  live key d live := by
    obtain ⟨d', before, -⟩ := preserves.rearranged.back key d live
    exact accounts.live key d' before

theorem issue_unit (accounts : ledger.Accounts s) (l : Literal) (origin : ClauseOrigin) :
    (ledger.issue (unitKey l origin) c).Accounts (s.addUnit l origin) where
  distinct := by
    rw [keys_issue, List.filter_cons_of_neg (by simp [ClauseKey.isLong_unitKey])]
    exact accounts.distinct
  removed key member := List.mem_cons_of_mem _ (accounts.removed key member)
  held key d issued long kept := by
    rw [s.get_addUnit]
    rcases List.mem_cons.1 issued with same | before
    · obtain ⟨rfl, -⟩ := Prod.mk.inj same
      rw [ClauseKey.isLong_unitKey] at long
      cases long
    · exact accounts.held key d before long kept
  live key d live := by
    rw [s.get_addUnit] at live
    exact (accounts.live key d live).imp_left (List.mem_cons_of_mem _)

theorem issue_long (accounts : ledger.Accounts s) {d : WatchedClause}
    (stored : ClauseStore.Stored s s' d) (long : d.key.isLong) (new : d.key ∉ ledger.keys)
    (perm : d.clause.Perm c) : (ledger.issue d.key c).Accounts s' where
  distinct := by
    rw [keys_issue, List.filter_cons_of_pos long]
    exact List.nodup_cons.2 ⟨fun member => new (List.mem_filter.1 member).1, accounts.distinct⟩
  removed key member := List.mem_cons_of_mem _ (accounts.removed key member)
  held key e issued isLong kept := by
    rcases List.mem_cons.1 issued with same | before
    · obtain ⟨rfl, rfl⟩ := Prod.mk.inj same
      exact ⟨d, stored.live, perm⟩
    · obtain ⟨e', live, perm'⟩ := accounts.held key e before isLong kept
      exact ⟨e', stored.kept live, perm'⟩
  live key e live := by
    rcases (stored.get_iff key e).1 live with ⟨rfl, -⟩ | before
    · exact ⟨List.mem_cons_self, mt (accounts.removed _) new⟩
    · exact (accounts.live key e before).imp_left (List.mem_cons_of_mem _)

theorem remove (accounts : ledger.Accounts s) {d : WatchedClause} (live : s.get key = .ok d)
    (removed : ClauseStore.Removed s s' key) : (ledger.remove key).Accounts s' where
  distinct := accounts.distinct
  removed other member := by
    rcases List.mem_cons.1 member with rfl | member
    · exact (accounts.live _ d live).1
    · exact accounts.removed other member
  held other e issued long kept := by
    obtain ⟨apart, before⟩ := not_or.1 (mt List.mem_cons.2 kept)
    obtain ⟨e', live', perm⟩ := accounts.held other e issued long before
    exact ⟨e', (removed other e').2 ⟨apart, live'⟩, perm⟩
  live other e live' := by
    obtain ⟨apart, before⟩ := (removed other e).1 live'
    obtain ⟨issued, kept⟩ := accounts.live other e before
    exact ⟨issued, mt List.mem_cons.1 (not_or.2 ⟨apart, kept⟩)⟩

end Accounts

end Ledger

namespace ClauseStore

theorem countP_fill {additions : Array (Option WatchedClause)} {i : Nat}
    (free : ∀ d, additions[i]? ≠ some (some d)) (d : WatchedClause) :
    (fill additions i d).countP Option.isSome =
      additions.countP Option.isSome + 1 := by
  unfold fill
  split
  · rename_i inside
    have vacant : additions[i].isSome = false := by
      cases slot : additions[i] with
      | none => rfl
      | some e => exact absurd (Array.getElem?_eq_some_iff.2 ⟨inside, slot⟩) (free e)
    rw [Array.setIfInBounds, dif_pos inside, Array.countP_set, vacant]
    simp
  · rw [Array.countP_push]
    simp

theorem countP_vacate {s : ClauseStore} {i : Nat} {d : WatchedClause}
    (found : s.additions[i]? = some (some d)) :
    (s.vacate i).additions.countP Option.isSome = s.additions.countP Option.isSome - 1 := by
  obtain ⟨inside, slot⟩ := Array.getElem?_eq_some_iff.1 found
  rw [vacate, Array.setIfInBounds, dif_pos inside, Array.countP_set, slot]
  simp

structure Counted (limit : Nat) (s : ClauseStore) : Prop where
  additions : s.additionCount = s.additions.countP Option.isSome
  limit_eq : s.limit = limit
  total : s.totalCount ≤ limit
  originals_le : s.originals.size ≤ ClauseKey.maxIndex + 1
  additions_le : s.additions.size ≤ ClauseKey.maxIndex + 1

namespace Counted

variable {limit : Nat} {s s' : ClauseStore}

theorem preserves (counted : s.Counted limit) (preserves : s.Preserves s') : s'.Counted limit where
  additions := by
    have same : s'.additions.countP Option.isSome = s.additions.countP Option.isSome := by
      have mapped (additions : Array (Option WatchedClause)) :
          additions.countP Option.isSome = (additions.map Option.isSome).countP id := by
        rw [Array.countP_map, Function.id_comp]
      rw [mapped, preserves.occupied, ← mapped]
    rw [preserves.additionCount, same, counted.additions]
  limit_eq := preserves.limit.trans counted.limit_eq
  total := by
    have before := counted.total
    unfold ClauseStore.totalCount at before ⊢
    rw [preserves.rearranged.originalUnits, preserves.rearranged.additionUnits, preserves.originals,
      preserves.additionCount]
    exact before
  originals_le := preserves.originals ▸ counted.originals_le
  additions_le := by
    have same := congrArg Array.size preserves.occupied
    simp only [Array.size_map] at same
    exact same ▸ counted.additions_le

theorem addUnit (counted : s.Counted limit) (room : s.totalCount < limit) (l : Literal)
    (origin : ClauseOrigin) : (s.addUnit l origin).Counted limit where
  additions := by cases origin <;> exact counted.additions
  limit_eq := by cases origin <;> exact counted.limit_eq
  total := by
    have total : (s.addUnit l origin).totalCount = s.totalCount + 1 := by
      cases origin
      all_goals
        simp only [ClauseStore.addUnit, ClauseStore.totalCount, Array.size_push]
        omega
    exact total ▸ room
  originals_le := by cases origin <;> exact counted.originals_le
  additions_le := by cases origin <;> exact counted.additions_le

theorem push (counted : s.Counted limit) (room : s.totalCount < limit)
    (left : s.HasKey .formula) (d : WatchedClause) :
    Counted limit { s with originals := s.originals.push d } where
  additions := counted.additions
  limit_eq := counted.limit_eq
  total := by
    simp only [ClauseStore.totalCount, Array.size_push] at room ⊢
    omega
  originals_le := by
    rw [Array.size_push]
    exact Nat.succ_le_succ left
  additions_le := counted.additions_le

theorem fill (counted : s.Counted limit) (room : s.totalCount < limit) {i : Nat}
    (le : i ≤ s.additions.size) (indexed : i ≤ ClauseKey.maxIndex)
    (free : ∀ d, s.additions[i]? ≠ some (some d)) (d : WatchedClause) (vacated : List ClauseKey)
    (ranks : IndexedHeap ClauseRank) : Counted limit { s with
      additions := ClauseStore.fill s.additions i d
      vacated
      additionCount := s.additionCount + 1
      ranks } where
  additions := (congrArg (· + 1) counted.additions).trans (countP_fill free d).symm
  limit_eq := counted.limit_eq
  total := by
    simp only [ClauseStore.totalCount] at room ⊢
    omega
  originals_le := counted.originals_le
  additions_le := by
    rw [size_fill le]
    exact Nat.max_le.2 ⟨counted.additions_le, Nat.succ_le_succ indexed⟩

theorem index_le (counted : s.Counted limit) (vacant : s.Vacant) {i token : Nat}
    {vacated : List ClauseKey}
    (fresh : freshKey s.additions.size s.vacated = (.ok (.addition i token), vacated)) :
    i ≤ ClauseKey.maxIndex := by
  rcases (freshKey_spec fresh).2 with ⟨same, unused⟩ | ⟨last, member, renewed, -⟩
  · exact (ClauseKey.addition.inj same).1 ▸ unused
  · obtain ⟨j, _, rfl, -, same⟩ := ClauseKey.renew_eq_ok renewed
    obtain ⟨_, _, before, empty⟩ := vacant.empty _ member
    obtain rfl := ((ClauseKey.addition.inj same).1.trans (ClauseKey.addition.inj before).1)
    have inside := (Array.getElem?_eq_some_iff.1 empty).1
    exact Nat.le_of_lt_succ (Nat.lt_of_lt_of_le inside counted.additions_le)

theorem vacate (counted : s.Counted limit) {i token : Nat} {d : WatchedClause}
    (live : s.get (.addition i token) = .ok d) :
    Counted limit ((s.vacate i).release (.addition i token)) where
  additions := by
    have found := (ClauseStore.get_addition.1 live).1
    exact (congrArg (· - 1) counted.additions).trans (countP_vacate found).symm
  limit_eq := counted.limit_eq
  total := by
    refine Nat.le_trans ?_ counted.total
    simp only [ClauseStore.totalCount, ClauseStore.release, ClauseStore.vacate]
    omega
  originals_le := counted.originals_le
  additions_le := by
    refine Nat.le_trans (Nat.le_of_eq ?_) counted.additions_le
    exact Array.size_setIfInBounds

end Counted

end ClauseStore

namespace Ledger

variable {ledger : Ledger} {s s' : ClauseStore} {key : ClauseKey} {c : Clause}

theorem Numbers.index_lt (numbers : ledger.Numbers s) {limit : Nat} (counted : s.Counted limit)
    (member : key ∈ ledger.keys) (long : key.isLong) : key.index < ClauseKey.maxIndex + 1 := by
  cases key with
  | originalUnit l => cases long
  | additionUnit l => cases long
  | original i => exact Nat.lt_of_lt_of_le (numbers.original_lt i member) counted.originals_le
  | addition i token =>
    refine Nat.lt_of_lt_of_le ?_ counted.additions_le
    by_contra outside
    have used := mem_tokens.2 member
    rw [numbers.unused i (Nat.le_of_not_lt outside)] at used
    exact absurd used List.not_mem_nil

structure Keeps (ledger : Ledger) (limit : Nat) (s : ClauseStore) : Prop where
  numbers : ledger.Numbers s
  accounts : ledger.Accounts s
  counted : s.Counted limit

namespace Keeps

variable {limit : Nat}

theorem preserves (keeps : ledger.Keeps limit s) (preserves : s.Preserves s') :
    ledger.Keeps limit s' where
  numbers := keeps.numbers.preserves preserves
  accounts := keeps.accounts.preserves preserves
  counted := keeps.counted.preserves preserves

theorem insert (keeps : ledger.Keeps limit s) {proper : Literal → Prop}
    (orderly : s.Orderly proper) (orderly' : s'.Orderly proper) {value : Atom → Option Bool}
    (room : s.totalCount < s.limit) (inserts : s.Inserts value c key s') :
    (ledger.issue key c).Keeps limit s' := by
  obtain ⟨numbers, accounts, counted⟩ := keeps
  rw [counted.limit_eq] at room
  cases inserts with
  | unit l origin =>
    exact ⟨numbers.issue_unit l origin, accounts.issue_unit l origin, counted.addUnit room l origin⟩
  | original two_le left =>
    let d := WatchedClause.ofClause value (.original s.originals.size) c
    have stored := ClauseStore.stored_original (s := s) (c := d) rfl
    have perm := WatchedClause.ofClause_perm value (.original s.originals.size) c
    exact ⟨numbers.issue_original d, accounts.issue_long stored rfl numbers.not_mem_original perm,
      counted.push room left d⟩
  | addition two_le fresh ranks =>
    obtain ⟨i, token, rfl, below, tokens⟩ := numbers.fresh fresh
    obtain ⟨_, _, same, le, free, -⟩ := orderly.vacant.freshKey fresh
    obtain ⟨rfl, rfl⟩ := ClauseKey.addition.inj same
    let d := WatchedClause.ofClause value (.addition i token) c
    have perm := WatchedClause.ofClause_perm value (.addition i token) c
    have sublist := (ClauseStore.freshKey_spec fresh).1
    exact ⟨numbers.issue_addition (d := d) below tokens le free rfl rfl rfl
        (fun _ member => sublist.subset member)
        (fun _ _ => ClauseStore.forgotten_of_freshKey fresh) orderly'.vacant,
      accounts.issue_long (d := d) (ClauseStore.stored_addition le free rfl rfl rfl) rfl
        (Numbers.not_mem_addition tokens) perm,
      counted.fill room le (counted.index_le orderly.vacant fresh) free d _ ranks⟩

theorem forgets {s s' : WatchedStore} (keeps : ledger.Keeps limit s.store)
    (forgets : s.Forgets s') : ledger.Keeps limit s'.store := by
  obtain ⟨store, -, same | ⟨none, spent⟩⟩ := forgets
  · rwa [store, same]
  · rw [store, none]
    exact ⟨keeps.numbers.forget spent, { keeps.accounts with }, { keeps.counted with }⟩

theorem detach (keeps : ledger.Keeps limit s) {i token : Nat} {d : WatchedClause}
    (live : s.get (.addition i token) = .ok d) :
    (ledger.remove (.addition i token)).Keeps limit
      ((s.vacate i).release (.addition i token)) where
  numbers := keeps.numbers.remove live
  accounts := keeps.accounts.remove live (ClauseStore.removed_vacate live)
  counted := keeps.counted.vacate live

theorem detaches {state state' : WatchedStore} (keeps : ledger.Keeps limit state.store)
    {removed : List ClauseKey} (detaches : state.Detaches removed state') :
    (removed.foldl remove ledger).Keeps limit state'.store := by
  induction detaches generalizing ledger with
  | nil => exact keeps
  | cons first rest ih =>
    obtain ⟨i, token, d, rfl, live, store⟩ := WatchedStore.detach_eq_ok first
    exact ih (store ▸ keeps.detach live)

end Keeps

end Ledger

end ClauseLearning
