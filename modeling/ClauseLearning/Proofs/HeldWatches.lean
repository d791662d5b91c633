import ClauseLearning.Proofs.OpenCalls

namespace ClauseLearning

namespace WatchedStore

open ClauseStore WatchLists

theorem toList_watchClause (w : WatchLists) (c : WatchedClause) (l : Literal) :
    ((watchClause w c).watchers l).toList =
      (w.watchers l).toList ++ List.replicate ([c.first, c.second].count l) c.key := by
  simp only [watchClause, watchers_watch]
  by_cases first : l = c.first
  · subst first
    by_cases second : c.first = c.second
    · simp [← second, List.replicate]
    · simp [second]
  · by_cases second : l = c.second
    · subst second
      simp [first, Ne.symm first]
    · simp [first, second, Ne.symm first, Ne.symm second]

structure Listed (s : WatchedStore) : Prop where
  slotted : ∀ (i : Nat) (c : WatchedClause), s.store.additions[i]? = some (some c) →
    ∃ token, c.key = .addition i token
  held : ∀ (i : Nat) (c : WatchedClause), s.store.additions[i]? = some (some c) →
    s.watches.Holds [c.first, c.second] c.key

structure Tidy (s : WatchedStore) : Prop extends s.Listed where
  active : ∀ i ∈ s.store.ranks.order, ∃ c, s.store.additions[i]? = some (some c)

namespace Listed

variable {s s' : WatchedStore} {key : ClauseKey}

theorem detach (listed : s.Listed) {i token : Nat} {c : WatchedClause}
    (live : s.store.get (.addition i token) = .ok c) :
    ∃ s', s.detach (.addition i token) = (.ok (), s') ∧ s'.Listed ∧
      ∀ j d, s'.store.additions[j]? = some (some d) ↔
        j ≠ i ∧ s.store.additions[j]? = some (some d) := by
  obtain ⟨slot, key⟩ := get_addition.1 live
  have held := listed.held i c slot
  rw [key] at held
  rcases unwatchClause_cases s.watches c (.addition i token) with
    ⟨-, watches, unwatched, without⟩ | ⟨missing, -⟩
  · have slots := s.store.additions_vacate i
    refine ⟨⟨(s.store.vacate i).release (.addition i token), watches⟩, ?_, ⟨?_, ?_⟩, slots⟩
    · simp only [WatchedStore.detach, live, unwatched]
    · exact fun j d slot' => listed.slotted j d ((slots j d).1 slot').2
    · intro j d slot' l
      obtain ⟨apart, before⟩ := (slots j d).1 slot'
      obtain ⟨token', key'⟩ := listed.slotted j d before
      have other : d.key ≠ .addition i token := by
        rw [key']
        exact fun same => apart (ClauseKey.addition.inj same).1
      rw [without.count_other other]
      exact listed.held j d before l
  · exact absurd held missing

end Listed

theorem Listed.gain {s s' : WatchedStore} (listed : s.Listed)
    (more : ∀ l key, (s.watches.watchers l).toList.count key ≤
      (s'.watches.watchers l).toList.count key)
    (slots : ∀ (i : Nat) (c : WatchedClause), s'.store.additions[i]? = some (some c) →
      s.store.additions[i]? = some (some c) ∨
        (∃ token, c.key = .addition i token) ∧ s'.watches.Holds [c.first, c.second] c.key) :
    s'.Listed where
  slotted i c slot := (slots i c slot).elim (listed.slotted i c) And.left
  held i c slot := by
    rcases slots i c slot with before | ⟨-, held⟩
    · exact fun l => (listed.held i c before l).trans (more l c.key)
    · exact held

theorem holds_watchClause (w : WatchLists) (c : WatchedClause) :
    (watchClause w c).Holds [c.first, c.second] c.key := by
  intro l
  rw [toList_watchClause, List.count_append, List.count_replicate_self]
  exact Nat.le_add_left _ _

theorem count_le_watchClause (w : WatchLists) (c : WatchedClause) (l : Literal) (key : ClauseKey) :
    (w.watchers l).toList.count key ≤ ((watchClause w c).watchers l).toList.count key := by
  rw [toList_watchClause, List.count_append]
  exact Nat.le_add_right _ _

namespace Tidy

variable {s s' : WatchedStore} {key : ClauseKey}

theorem congr (tidy : s.Tidy) (additions : s'.store.additions = s.store.additions)
    (ranks : ∀ i ∈ s'.store.ranks.order, i ∈ s.store.ranks.order)
    (more : ∀ l key, (s.watches.watchers l).toList.count key ≤
      (s'.watches.watchers l).toList.count key) : s'.Tidy where
  toListed := tidy.gain more fun _ _ slot => .inl (additions ▸ slot)
  active i member := additions ▸ tidy.active i (ranks i member)

theorem insertAddition (tidy : s.Tidy) (vacant : s.store.Vacant)
    (wellFormed : s.store.ranks.WellFormed) (value : Atom → Option Bool) (c : Clause)
    (blockDistance : Nat) : (WatchedStore.insertAddition value s c blockDistance).2.Tidy := by
  by_cases left : s.store.HasKey .resolution
  · obtain ⟨i, token, vacated, le, -, -, inserted⟩ :=
      insertAddition_addLong vacant left value c blockDistance
    let stored := WatchedClause.ofClause value (.addition i token) c
    have slots (j : Nat) : (s.store.addLong i stored vacated blockDistance).additions[j]? =
        if j = i then some (some stored) else s.store.additions[j]? := getElem?_fill le stored j
    rw [inserted]
    refine ⟨tidy.gain (count_le_watchClause s.watches stored) fun j d slot => ?_,
      fun j member => ?_⟩
    · rw [slots] at slot
      split at slot
      · rename_i same
        obtain rfl := Option.some.inj (Option.some.inj slot)
        exact .inr ⟨⟨token, same ▸ rfl⟩, holds_watchClause s.watches stored⟩
      · exact .inl slot
    · rw [slots]
      split
      · exact ⟨stored, rfl⟩
      · rename_i apart
        obtain ⟨added, onHeap, -⟩ := IndexedHeap.add_spec wellFormed i ⟨s.store.bump, blockDistance⟩
        exact tidy.active j ((onHeap j).1 ((added.mem_activate member).resolve_left apart))
  · simp only [WatchedStore.insertAddition, freshKey_of_not_hasKey left]
    exact tidy.congr rfl (fun _ member => member) fun _ _ => Nat.le_refl _

theorem insert (tidy : s.Tidy) (vacant : s.store.Vacant) (ranks : s.store.ranks.WellFormed)
    (value : Atom → Option Bool) (level : Atom → Option Nat) (c : Clause) (origin : ClauseOrigin)
    (blockDistance : Option Nat) : (s.insert value level c origin blockDistance).2.Tidy := by
  by_cases full : s.store.limit ≤ s.store.totalCount
  · simpa only [WatchedStore.insert, if_pos full] using tidy
  rcases c with _ | ⟨l, _ | ⟨m, rest⟩⟩
  · simpa only [WatchedStore.insert, if_neg full] using tidy
  · rw [insert_unit (Nat.lt_of_not_le full)]
    cases origin <;> exact tidy.congr rfl (fun _ member => member) fun _ _ => Nat.le_refl _
  · cases origin with
    | formula =>
      simp only [WatchedStore.insert, if_neg full, WatchedStore.insertOriginal]
      split
      · exact tidy.congr rfl (fun _ member => member) (count_le_watchClause s.watches _)
      · exact tidy
    | resolution =>
      simp only [WatchedStore.insert, if_neg full]
      exact tidy.insertAddition vacant ranks value _ _

theorem remove (tidy : s.Tidy) (wellFormed : s.store.ranks.WellFormed) (key : ClauseKey) :
    (s.remove key).2.Tidy := by
  by_cases live : ∃ i token c, key = .addition i token ∧ s.store.get key = .ok c
  · obtain ⟨i, token, c, rfl, live⟩ := live
    obtain ⟨s', detached, listed, slots⟩ := tidy.detach live
    have ranks : s'.store.ranks = s.store.ranks := by
      have same := s.ranks_detach (.addition i token)
      rwa [detached] at same
    simp only [WatchedStore.remove, detached]
    refine ⟨⟨listed.slotted, listed.held⟩, fun j member => ?_⟩
    change j ∈ (s'.store.ranks.remove i).2.order at member
    rw [ranks, IndexedHeap.mem_remove_iff wellFormed] at member
    obtain ⟨d, slot⟩ := tidy.active j member.1
    exact ⟨d, (slots j d).2 ⟨member.2, slot⟩⟩
  · obtain ⟨failure, refused⟩ := remove_of_not_live
      fun i token c same found => live ⟨i, token, c, same, found⟩
    rw [refused]
    exact tidy

end Tidy

structure Clearing (r : Reduction) : Prop extends r.state.Listed where
  ranks : r.ranks.WellFormed
  active : ∀ i, i ∈ r.ranks.order ∨ i ∈ r.kept →
    ∃ c, r.state.store.additions[i]? = some (some c)
  apart : ∀ i ∈ r.kept, i ∉ r.ranks.order

namespace Clearing

variable {state : WatchedStore} {ranks rest : IndexedHeap ClauseRank} {kept : List Nat}
  {removed : List ClauseKey} {i : Nat} {c : WatchedClause}

theorem slot (clearing : Clearing ⟨state, ranks, kept, removed⟩)
    (popped : ranks.popMax = (some i, rest)) : ∃ c, state.store.additions[i]? = some (some c) :=
  clearing.active i (.inl (clearing.ranks.without_of_popMax popped).1)

theorem setAside (clearing : Clearing ⟨state, ranks, kept, removed⟩)
    (popped : ranks.popMax = (some i, rest)) : Clearing ⟨state, rest, i :: kept, removed⟩ := by
  obtain ⟨onHeap, wellFormed, order, -⟩ := clearing.ranks.without_of_popMax popped
  have active := clearing.active
  have apart := clearing.apart
  exact { clearing with
    ranks := wellFormed
    active := fun j => by grind
    apart := fun j => by grind }

theorem detach (clearing : Clearing ⟨state, ranks, kept, removed⟩)
    (popped : ranks.popMax = (some i, rest)) (slot : state.store.additions[i]? = some (some c)) :
    ∃ state', state.detach c.key = (.ok (), state') ∧
      Clearing ⟨state', rest, kept, c.key :: removed⟩ := by
  obtain ⟨onHeap, wellFormed, order, -⟩ := clearing.ranks.without_of_popMax popped
  obtain ⟨token, same⟩ := clearing.slotted i c slot
  obtain ⟨state', detached, listed, slots⟩ :=
    clearing.toListed.detach (get_addition.2 ⟨slot, same⟩)
  have active := clearing.active
  have apart := clearing.apart
  exact ⟨state', same ▸ detached, { listed with
    ranks := wellFormed
    active := fun j => by grind
    apart := fun j => by grind }⟩

theorem visit (source : Atom → Option Source) (visits count : Nat) (r : Reduction) :
    Clearing r → (Reduction.visit source visits count r).1 = .ok () ∧
      Clearing (Reduction.visit source visits count r).2 := by
  fun_induction Reduction.visit source visits count r with
  | case1 => exact fun clearing => ⟨rfl, clearing⟩
  | case2 => exact fun clearing => ⟨rfl, clearing⟩
  | case3 visits count state ranks kept removed rest empty =>
    obtain rfl := IndexedHeap.eq_of_popMax_none empty
    exact fun clearing => ⟨rfl, clearing⟩
  | case4 visits count state ranks kept removed i rest popped none =>
    intro clearing
    obtain ⟨c, slot⟩ := clearing.slot popped
    cases none.symm.trans slot
  | case5 visits count state ranks kept removed i rest popped none =>
    intro clearing
    obtain ⟨c, slot⟩ := clearing.slot popped
    cases none.symm.trans slot
  | case6 visits count state ranks kept removed i rest popped c slot key rank isProtected ih =>
    exact fun clearing => ih (clearing.setAside popped)
  | case7 visits count state ranks kept removed i rest popped c slot key rank unprotected failure
      state' refused =>
    intro clearing
    obtain ⟨_, detached, -⟩ := clearing.detach popped slot
    cases refused.symm.trans detached
  | case8 visits count state ranks kept removed i rest popped c slot key rank unprotected state'
      detached ih =>
    intro clearing
    obtain ⟨_, detached', clearing'⟩ := clearing.detach popped slot
    cases detached.symm.trans detached'
    exact ih clearing'

end Clearing

theorem mem_reactivate {ranks : IndexedHeap ClauseRank} (wellFormed : ranks.WellFormed)
    {kept : List Nat} {i : Nat} (active : i ∈ (Reduction.reactivate ranks kept).order) :
    i ∈ ranks.order ∨ i ∈ kept := by
  induction kept with
  | nil => exact .inl active
  | cons j rest ih =>
    rcases (Reduction.reactivate_wellFormed wellFormed rest).mem_activate active with rfl | before
    · exact .inr List.mem_cons_self
    · exact (ih before).imp_right (List.mem_cons_of_mem j)

theorem Tidy.reduce {s : WatchedStore} (tidy : s.Tidy) (wellFormed : s.store.ranks.WellFormed)
    (source : Atom → Option Source) (count : Nat) :
    (s.reduce source count).1.1 = .ok () ∧ (s.reduce source count).2.Tidy := by
  obtain ⟨store, watches⟩ := s
  have start : Clearing
      { state := ⟨{ store with ranks := { blank := {} } }, watches⟩, ranks := store.ranks } :=
    { slotted := tidy.slotted
      held := tidy.held
      ranks := wellFormed
      active := fun i place => tidy.active i (place.resolve_right List.not_mem_nil)
      apart := fun i member => absurd member List.not_mem_nil }
  obtain ⟨answer, clearing⟩ := start.visit source store.ranks.activeCount count
  simp only [WatchedStore.reduce]
  split
  · rename_i visited
    rw [visited] at answer
    cases answer
  · rename_i visited
    rw [visited] at clearing
    refine ⟨rfl, ⟨⟨clearing.slotted, clearing.held⟩, fun i member => ?_⟩⟩
    exact clearing.active i (mem_reactivate clearing.ranks member)

end WatchedStore

namespace OpenCall

def IsOwn : OpenCall → Prop
  | relist _ => False
  | _ => True

end OpenCall

namespace RecordedStore

open ClauseStore

theorem tidy_undergo {r : RecordedStore} (steady : r.ledger.Steady r.state.store)
    (tidy : r.state.Tidy) {call : OpenCall} (own : call.IsOwn) : (r.undergo call).state.Tidy := by
  cases call with
  | insert value level c origin blockDistance =>
    have inserted := tidy.insert steady.vacant steady.ranks value level c origin blockDistance
    simp only [undergo]
    split <;> rename_i answer <;> rwa [answer] at inserted
  | remove key =>
    have removed := tidy.remove steady.ranks key
    simp only [undergo]
    split <;> rename_i answer <;> rwa [answer] at removed
  | reduce source count => exact (tidy.reduce steady.ranks source count).2
  | raise key =>
    obtain ⟨same, -, reordered⟩ := Solver.raise_same r.state.store key
    exact tidy.congr same.additions (fun i => reordered.mem_iff.1) fun _ _ => Nat.le_refl _
  | decay =>
    obtain ⟨same, -, reordered⟩ := Solver.decay_same r.state.store
    exact tidy.congr same.additions (fun i => reordered.mem_iff.1) fun _ _ => Nat.le_refl _
  | relist change => cases own

theorem tidy_undergoAll (settings : Settings) {calls : List OpenCall}
    (own : ∀ call ∈ calls, call.IsOwn) : ((new settings).undergoAll calls).state.Tidy := by
  suffices tidy : ∀ r : RecordedStore, r.ledger.Steady r.state.store → r.state.Tidy →
      (r.undergoAll calls).state.Tidy from
    tidy (new settings) (.new settings) ⟨⟨fun i c slot => by simp [new, Solver.new] at slot,
      fun i c slot => by simp [new, Solver.new] at slot⟩, fun i member => by
        simp [new, Solver.new] at member⟩
  induction calls with
  | nil => exact fun r _ tidy => tidy
  | cons call rest ih =>
    obtain ⟨first, later⟩ := List.forall_mem_cons.1 own
    exact fun r steady tidy => ih later _ (r.steady_undergo steady call)
      (tidy_undergo steady tidy first)

end RecordedStore

end ClauseLearning
