import ClauseLearning.Proofs.Reduction
import ClauseLearning.Proofs.Storing

namespace ClauseLearning

namespace ClauseStore

inductive Inserts (value : Atom → Option Bool) (s : ClauseStore) :
    Clause → ClauseKey → ClauseStore → Prop where
  | unit (l : Literal) (origin : ClauseOrigin) :
      Inserts value s [l] (unitKey l origin) (s.addUnit l origin)
  | original {c : Clause} (two_le : 2 ≤ c.length) (left : s.HasKey .formula) :
      Inserts value s c (.original s.originals.size)
        { s with
          originals := s.originals.push (.ofClause value (.original s.originals.size) c) }
  | addition {c : Clause} {key : ClauseKey} {vacated : List ClauseKey} (two_le : 2 ≤ c.length)
      (fresh : freshKey s.additions.size s.vacated = (.ok key, vacated))
      (ranks : IndexedHeap ClauseRank) :
      Inserts value s c key
        { s with
          additions := fill s.additions key.index (.ofClause value key c)
          vacated
          additionCount := s.additionCount + 1
          ranks }

end ClauseStore

namespace WatchedStore

open ClauseStore

variable {proper : Literal → Prop} {s s' : WatchedStore} {key : ClauseKey}

section Insert

variable {value : Atom → Option Bool} {level : Atom → Option Nat} {c : Clause}
  {origin : ClauseOrigin} {blockDistance : Option Nat}

theorem insert_takes (answer : s.insert value level c origin blockDistance = (.ok key, s')) :
    s.store.Takes c origin := by
  by_contra refused
  cases c with
  | nil =>
    unfold insert at answer
    split at answer <;> cases answer
  | cons l rest =>
    obtain ⟨_, _, -, ended⟩ :=
      insert_refused (List.cons_ne_nil l rest) refused value level blockDistance
    cases answer.symm.trans ended

theorem insert_inserts (answer : s.insert value level c origin blockDistance = (.ok key, s')) :
    Inserts value s.store c key s'.store := by
  have takes := insert_takes answer
  have room : ¬s.store.limit ≤ s.store.totalCount := Nat.not_le.2 takes.room
  match c with
  | [] =>
    simp only [insert, if_neg room] at answer
    cases answer
  | [l] =>
    rw [insert_unit takes.room, Prod.mk.injEq, Except.ok.injEq] at answer
    obtain ⟨rfl, rfl⟩ := answer
    exact .unit l origin
  | l :: m :: rest =>
    have two_le : 2 ≤ (l :: m :: rest).length := Nat.le_add_left 2 _
    have left := takes.key two_le
    simp only [insert, if_neg room] at answer
    cases origin with
    | formula =>
      obtain ⟨same, rfl⟩ := Prod.mk.inj ((if_pos left).symm.trans answer)
      obtain rfl := Except.ok.inj same
      exact .original two_le left
    | resolution =>
      obtain ⟨key', vacated, fresh⟩ := freshKey_of_hasKey left
      simp only [insertAddition, fresh] at answer
      obtain ⟨same, rfl⟩ := Prod.mk.inj answer
      obtain rfl := Except.ok.inj same
      exact .addition two_le fresh _

theorem insert_spec (orderly : s.store.Orderly proper) (mirrors : s.Mirrors)
    (distinct : (c.map Int.natAbs).Nodup) (known : ∀ l ∈ c, proper l)
    (answer : s.insert value level c origin blockDistance = (.ok key, s')) :
    s'.store.Orderly proper ∧ s'.Mirrors := by
  have takes := insert_takes answer
  match c with
  | [] =>
    simp only [insert, if_neg (Nat.not_le.2 takes.room)] at answer
    cases answer
  | [l] =>
    rw [insert_unit takes.room, Prod.mk.injEq] at answer
    obtain ⟨-, rfl⟩ := answer
    refine ⟨orderly.addUnit l origin, fun m => (mirrors m).keep fun other => ?_⟩
    simp only [Watching, s.store.get_addUnit]
  | l :: m :: rest =>
    obtain ⟨_, _, answer', orderly', mirrors', -⟩ := insert_long orderly mirrors takes
      (Nat.le_add_left 2 _) distinct known blockDistance
    rw [answer, Prod.mk.injEq] at answer'
    obtain ⟨-, rfl⟩ := answer'
    exact ⟨orderly', mirrors'⟩

/-- What a clause that is not stored leaves: the clauses, the counts, the ranks and the watch lists
as they were, and of the free slots all but such as have no token left. -/
structure Forgets (s s' : WatchedStore) : Prop where
  store : s'.store = { s.store with vacated := s'.store.vacated }
  watches : s'.watches = s.watches
  vacated : s'.store.vacated = s.store.vacated ∨
    s'.store.vacated = [] ∧ ∀ last ∈ s.store.vacated, ∀ key, last.renew ≠ .ok key

namespace Forgets

theorem refl (s : WatchedStore) : s.Forgets s := ⟨rfl, rfl, .inl rfl⟩

theorem same (forgets : s.Forgets s') : s.store.SameClauses s'.store := by
  rw [forgets.store]
  exact ⟨rfl, rfl, rfl, rfl⟩

theorem sublist (forgets : s.Forgets s') : s'.store.vacated.Sublist s.store.vacated := by
  rcases forgets.vacated with same | ⟨none, -⟩
  · rw [same]
  · rw [none]
    exact List.nil_sublist _

theorem orderly (forgets : s.Forgets s') (orderly : s.store.Orderly proper) :
    s'.store.Orderly proper where
  wellFormed := forgets.same.wellFormed orderly.wellFormed
  vacant := by
    refine ⟨fun key member => ?_, (forgets.sublist.map _).nodup orderly.vacant.distinct⟩
    rw [forgets.same.additions]
    exact orderly.vacant.empty key (forgets.sublist.subset member)
  ranked := by
    rw [forgets.store]
    exact orderly.ranked

theorem mirrors (forgets : s.Forgets s') (mirrors : s.Mirrors) : s'.Mirrors := by
  intro l
  rw [forgets.watches]
  exact (mirrors l).congr forgets.same

end Forgets

theorem forgets_of_refuses {failure : Failure} {store : ClauseStore}
    (refuses : s.store.Refuses c origin failure store) : s.Forgets { s with store } := by
  cases refuses with
  | full full => exact .refl s
  | originalKeys room long spent => exact .refl s
  | additionKeys room long spent =>
    refine ⟨rfl, rfl, .inr ⟨rfl, fun last member key renewed => spent (.inr ?_)⟩⟩
    exact ⟨last, member, key, renewed⟩

theorem insert_error {failure : Failure}
    (answer : s.insert value level c origin blockDistance = (.error failure, s')) :
    s.Forgets s' := by
  cases c with
  | nil =>
    unfold insert at answer
    split at answer <;> cases answer <;> exact .refl s
  | cons l rest =>
    have nonempty := List.cons_ne_nil l rest
    by_cases takes : s.store.Takes (l :: rest) origin
    · obtain ⟨_, _, stored⟩ := insert_stores nonempty takes blockDistance
      cases answer.symm.trans stored
    · obtain ⟨_, _, refuses, ended⟩ := insert_refused nonempty takes value level blockDistance
      cases answer.symm.trans ended
      exact forgets_of_refuses refuses

theorem insert_ok_or_error (s : WatchedStore) (value : Atom → Option Bool)
    (level : Atom → Option Nat) (c : Clause) (origin : ClauseOrigin)
    (blockDistance : Option Nat) :
    (∃ key s', s.insert value level c origin blockDistance = (.ok key, s')) ∨
      ∃ failure s', s.insert value level c origin blockDistance = (.error failure, s') ∧
        s.Forgets s' := by
  cases answer : s.insert value level c origin blockDistance with
  | mk result s' =>
    cases result with
    | ok key => exact .inl ⟨key, s', rfl⟩
    | error failure => exact .inr ⟨failure, s', rfl, insert_error answer⟩

end Insert

theorem detach_eq_ok (detached : s.detach key = (.ok (), s')) :
    ∃ i token c, key = .addition i token ∧ s.store.get key = .ok c ∧
      s'.store = (s.store.vacate i).release key := by
  cases key with
  | addition i token =>
    unfold detach at detached
    simp only at detached
    split at detached
    · cases detached
    · rename_i c live
      split at detached
      · cases detached
      · obtain ⟨-, rfl⟩ := Prod.mk.inj detached
        exact ⟨i, token, c, rfl, live, rfl⟩
  | originalUnit l => cases detached
  | additionUnit l => cases detached
  | original i => cases detached

theorem detach_of_not_live
    (absent : ∀ i token c, key = .addition i token → s.store.get key ≠ .ok c) :
    ∃ failure, s.detach key = (.error failure, s) := by
  cases key with
  | addition i token =>
    cases live : s.store.get (.addition i token) with
    | ok c => exact absurd live (absent i token c rfl)
    | error failure => exact ⟨failure, by simp only [detach, live]⟩
  | originalUnit l => exact ⟨_, rfl⟩
  | additionUnit l => exact ⟨_, rfl⟩
  | original i => exact ⟨_, rfl⟩

theorem remove_of_not_live
    (absent : ∀ i token c, key = .addition i token → s.store.get key ≠ .ok c) :
    ∃ failure, s.remove key = (.error failure, s) := by
  obtain ⟨failure, refused⟩ := detach_of_not_live absent
  exact ⟨failure, by simp only [remove, refused]⟩

theorem remove_spec {i token : Nat} {c : WatchedClause}
    (live : s.store.get (.addition i token) = .ok c) (orderly : s.store.Orderly proper)
    (mirrors : s.Mirrors) :
    ∃ s' s'', s.detach (.addition i token) = (.ok (), s') ∧
      s.remove (.addition i token) = (.ok (), s'') ∧ s''.store = s'.store.unrank i ∧
      s''.store.Orderly proper ∧ s''.Mirrors := by
  obtain ⟨s', detached, -, wellFormed, vacant, mirrors', -, -, -, size, slots⟩ :=
    detach_spec live orderly.wellFormed orderly.vacant mirrors
  obtain ⟨i', token', c', same, -, store⟩ := detach_eq_ok detached
  have unranked : (s'.store.unrank i).ranks = (s.store.ranks.remove i).2 := by
    rw [store]
    rfl
  have onHeap : i ∈ s.store.ranks.order := (orderly.ranked.active i).2 ⟨c, (get_addition.1 live).1⟩
  obtain ⟨heap, order, sameSize, -⟩ := IndexedHeap.remove_spec orderly.ranked.wellFormed onHeap
  rw [← unranked] at heap order sameSize
  have clauses : s'.store.SameClauses (s'.store.unrank i) := ⟨rfl, rfl, rfl, rfl⟩
  refine ⟨s', { s' with store := s'.store.unrank i }, detached, ?_, rfl,
    ⟨clauses.wellFormed wellFormed, { vacant with }, heap,
      (sameSize.trans orderly.ranked.size).trans size.symm, fun j => ?_⟩,
    mirrors'.congr clauses⟩
  · simp only [remove, detached]
    rfl
  · rw [order, orderly.ranked.active, ← exists_and_right]
    exact exists_congr fun d => and_comm.trans (slots j d).symm

theorem remove_removed {i token : Nat} {c : WatchedClause}
    (live : s.store.get (.addition i token) = .ok c) (orderly : s.store.Orderly proper)
    (mirrors : s.Mirrors) : ∃ s', s.remove (.addition i token) = (.ok (), s') ∧
      Removed s.store s'.store (.addition i token) := by
  obtain ⟨s', s'', detached, removed, unranked, -⟩ := remove_spec live orderly mirrors
  obtain ⟨_, _, _, same, -, vacated⟩ := detach_eq_ok detached
  obtain ⟨rfl, rfl⟩ := ClauseKey.addition.inj same
  refine ⟨s'', removed, ?_⟩
  rw [unranked, vacated]
  exact removed_vacate live

inductive Detaches : WatchedStore → List ClauseKey → WatchedStore → Prop where
  | nil (s : WatchedStore) : Detaches s [] s
  | cons {s s' s'' : WatchedStore} {key : ClauseKey} {keys : List ClauseKey}
      (first : s.detach key = (.ok (), s')) (rest : Detaches s' keys s'') :
      Detaches s (key :: keys) s''

theorem visit_detaches (source : Atom → Option Source) (visits count : Nat) (r : Reduction)
    (answer : (Reduction.visit source visits count r).1 = .ok ()) :
    ∃ keys, (Reduction.visit source visits count r).2.removed = keys.reverse ++ r.removed ∧
      Detaches r.state keys (Reduction.visit source visits count r).2.state := by
  fun_induction Reduction.visit source visits count r with
  | case1 => exact ⟨[], rfl, .nil _⟩
  | case2 => exact ⟨[], rfl, .nil _⟩
  | case3 => exact ⟨[], rfl, .nil _⟩
  | case4 => cases answer
  | case5 => cases answer
  | case6 visits count state ranks kept removed i rest popped c slot key rank isProtected ih =>
    exact ih answer
  | case7 => cases answer
  | case8 visits count state ranks kept removed i rest popped c slot key rank unprotected state'
      detached ih =>
    obtain ⟨keys, listed, detaches⟩ := ih answer
    exact ⟨key :: keys, by simpa using listed, .cons detached detaches⟩

theorem reduce_detaches {source : Atom → Option Source} {count : Nat} {removed : List ClauseKey}
    (answer : s.reduce source count = ((.ok (), removed), s')) :
    ∃ s'' ranks,
      Detaches { s with store := { s.store with ranks := { blank := {} } } } removed s'' ∧
        s'.store = { s''.store with ranks } := by
  obtain ⟨store, watches⟩ := s
  simp only [reduce] at answer
  split at answer
  · cases answer
  · rename_i store' watches' ranks kept keys visited
    obtain ⟨⟨-, rfl⟩, rfl⟩ := (Prod.mk.inj answer).imp_left Prod.mk.inj
    obtain ⟨listed, order, detaches⟩ := visit_detaches source _ _ _ (congrArg Prod.fst visited)
    rw [visited] at order detaches
    simp only [List.append_nil] at order
    rw [order, List.reverse_reverse]
    exact ⟨_, _, detaches, rfl⟩

end WatchedStore

end ClauseLearning
