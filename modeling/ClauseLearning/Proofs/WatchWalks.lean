import ClauseLearning.Proofs.Rewatching

/-!
A walk along a watch list that was taken away, whatever the trail. At each position the other lists
mirror the store, and so does what is left of the list; so the lists mirror the store again once the
list is put back, with the walk at its end or stopped by a conflict. The clauses in the store are
rearranged at most.
-/

namespace ClauseLearning

namespace ClauseStore

/-- The same keys lead to the same clauses, but for the order of literals, and the same slots are
free. -/
structure Preserves (s s' : ClauseStore) : Prop where
  rearranged : s.Rearranged s'
  originals : s'.originals.size = s.originals.size
  occupied : s'.additions.map Option.isSome = s.additions.map Option.isSome
  vacated : s'.vacated = s.vacated
  additionCount : s'.additionCount = s.additionCount
  limit : s'.limit = s.limit

namespace Preserves

variable {s s' s'' : ClauseStore}

theorem refl (s : ClauseStore) : Preserves s s := ⟨.refl s, rfl, rfl, rfl, rfl, rfl⟩

theorem trans (first : Preserves s s') (second : Preserves s' s'') : Preserves s s'' where
  rearranged := first.rearranged.trans second.rearranged
  originals := second.originals.trans first.originals
  occupied := second.occupied.trans first.occupied
  vacated := second.vacated.trans first.vacated
  additionCount := second.additionCount.trans first.additionCount
  limit := second.limit.trans first.limit

theorem modify {key : ClauseKey} {c : WatchedClause} {f : WatchedClause → WatchedClause}
    (live : s.get key = .ok c) (keeps : (f c).key = c.key) (perm : (f c).clause.Perm c.clause) :
    Preserves s (s.modify key f) where
  rearranged := rearranged_modify live keeps perm
  originals := by cases key <;> simp [ClauseStore.modify]
  occupied := by
    refine Array.ext_getElem? fun i => ?_
    rw [Array.getElem?_map, Array.getElem?_map]
    exact additions_modify key f i
  vacated := by cases key <;> rfl
  additionCount := by cases key <;> rfl
  limit := by cases key <;> rfl

end Preserves

end ClauseStore

/-- The lists other than that of `-l`, which was taken away, mirror the store, and so do the keys
which still watch `-l`. -/
structure Walk.Mirrors (l : Literal) (w : Walk) : Prop where
  lists : ∀ m, m ≠ -l →
    w.solver.clauses.store.Lists m (w.solver.clauses.watches.watchers m).toList
  taken : w.solver.clauses.watches.watchers (-l) = #[]
  length_le : w.length ≤ w.list.size
  listed : w.solver.clauses.store.Lists (-l) (w.list.toList.take w.length)

namespace Walk.Mirrors

variable {proper : Literal → Prop} {s s' : Solver} {l : Literal} {list : Array ClauseKey}
  {length i : Nat} {key : ClauseKey} {c : WatchedClause}

theorem start (mirrors : s.clauses.Mirrors) (l : Literal) :
    Mirrors l ⟨s.modifyWatches fun w => (w.take (-l)).2, s.clauses.watches.watchers (-l),
      (s.clauses.watches.watchers (-l)).size⟩ := by
  have watchers (m : Literal) := s.clauses.watches.watchers_take (-l) m
  refine ⟨fun m other => ?_, (watchers _).trans (if_pos rfl), Nat.le_refl _, ?_⟩
  · have list := watchers m
    rw [if_neg other] at list
    exact list ▸ mirrors m
  · rw [List.take_of_length_le (by simp)]
    exact mirrors (-l)

theorem restored (mirrors : Mirrors l ⟨s, list, length⟩) :
    (s.modifyWatches (·.restore (-l) (list.shrink length))).clauses.Mirrors := by
  intro m
  have watchers := s.clauses.watches.watchers_restore (-l) m (list.shrink length)
  have taken : s.clauses.watches.watchers (-l) = #[] := mirrors.taken
  change s.clauses.store.Lists m
    ((s.clauses.watches.restore (-l) (list.shrink length)).watchers m).toList
  rw [watchers]
  by_cases same : m = -l
  · subst same
    rw [if_pos rfl, taken, Array.append_empty, Array.toList_shrink]
    exact mirrors.listed
  · rw [if_neg same]
    exact mirrors.lists m same

theorem congr (mirrors : Mirrors l ⟨s, list, length⟩) (clauses : s'.clauses = s.clauses) :
    Mirrors l ⟨s', list, length⟩ := by
  obtain ⟨lists, taken, length_le, listed⟩ := mirrors
  exact ⟨by rwa [clauses], by rwa [clauses], length_le, by rwa [clauses]⟩

theorem live (mirrors : Mirrors l ⟨s, list, length⟩) (inside : i < length)
    (found : list[i]? = some key) : ∃ c, s.clauses.store.get key = .ok c ∧ c.Watches (-l) := by
  have member : key ∈ list.toList.take length := by
    refine List.mem_of_getElem? (i := i) ?_
    rw [List.getElem?_take, if_pos inside, Array.getElem?_toList, found]
  exact (mirrors.listed.mem_iff key).1 member

theorem turned (mirrors : Mirrors l ⟨s, list, length⟩) (live : s.clauses.store.get key = .ok c)
    (wellFormed : c.WellFormed proper) (watches : c.Watches (-l)) :
    Mirrors l ⟨s.modifyStore (·.modify key (·.turn l.natAbs)), list, length⟩ := by
  have same (m : Literal) : (c.turn l.natAbs).Watches m ↔ c.Watches m := by
    have turned := wellFormed.turn_watches watches m
    rwa [Int.natAbs_neg] at turned
  have keeps : (c.turn l.natAbs).key = c.key := c.key_turn l.natAbs
  exact {
    lists := fun m other => (mirrors.lists m other).modify live keeps (same m)
    taken := mirrors.taken
    length_le := mirrors.length_le
    listed := mirrors.listed.modify live keeps (same _) }

theorem moved (mirrors : Mirrors l ⟨s, list, length⟩) (inside : i < length)
    (found : list[i]? = some key) (live : s.clauses.store.get key = .ok c)
    (wellFormed : c.WellFormed proper) (watches : c.Watches (-l)) {fresh : Literal}
    {f : WatchedClause → WatchedClause} (keeps : (f c).key = c.key)
    (moved : c.Moves (f c) (-l) fresh) :
    Mirrors l ⟨(s.modifyStore (·.modify key f)).modifyWatches (·.watch fresh key),
      list.swapIfInBounds i (length - 1), length - 1⟩ := by
  have watched (m : Literal) := wellFormed.watches_iff (m := m) watches
  have apart := wellFormed.other_ne watches
  have fresh_ne : fresh ≠ -l := fun same => moved.unwatched (same ▸ watches)
  have watchers (m : Literal) := s.clauses.watches.watchers_watch fresh m key
  have length_le : length ≤ list.size := mirrors.length_le
  refine ⟨fun m other => ?_, ?_, ?_, ?_⟩
  · have before : s.clauses.store.Lists m (s.clauses.watches.watchers m).toList :=
      mirrors.lists m other
    change (s.clauses.store.modify key f).Lists m
      ((s.clauses.watches.watch fresh key).watchers m).toList
    rw [watchers]
    by_cases same : m = fresh
    · subst same
      rw [if_pos rfl, Array.toList_push]
      exact before.modify_gain live keeps moved.unwatched ((moved.watches m).2 (.inr rfl))
    · rw [if_neg same]
      refine before.modify live keeps ?_
      rw [moved.watches, watched, or_iff_left same, or_iff_left other]
  · exact (watchers _).trans ((if_neg (Ne.symm fresh_ne)).trans mirrors.taken)
  · change length - 1 ≤ (list.swapIfInBounds i (length - 1)).size
    simp only [Array.size_swapIfInBounds]
    omega
  · refine ClauseStore.Lists.modify_lose mirrors.listed live keeps ?_
      (WatchLists.take_swap_perm found inside length_le)
    rw [moved.watches, not_or]
    exact ⟨Ne.symm apart, Ne.symm fresh_ne⟩

end Walk.Mirrors

namespace Solver

variable {proper : Literal → Prop} {s : Solver} {l : Literal} {list : Array ClauseKey}
  {length i : Nat} {key : ClauseKey} {c : WatchedClause}

theorem visit_moved (wellFormed : s.clauses.store.WellFormed proper)
    (live : s.clauses.store.get key = .ok c) (watches : c.Watches (-l)) {i : Nat}
    (found : c.replacement? s.atoms.value = some i) : s.visit l key =
      (.moved, (s.modifyStore (·.modify key fun c => (c.turn l.natAbs).pointTo i)).modifyWatches
        (·.watch (c.literalAt i) key)) := by
  have shaped := wellFormed.shaped key c live
  obtain ⟨positive, inside, other, -⟩ :=
    WatchedClause.replacement?_some found shaped.pointer_pos shaped.pointer_lt
  have turned := WatchedClause.replacement?_turn s.atoms.value l.natAbs shaped.pointer_lt
  have fresh : ((c.turn l.natAbs).pointTo i).second = c.literalAt i :=
    WatchedClause.literalAt_turn inside positive other
  have keyed : ((c.turn l.natAbs).pointTo i).key = key :=
    (c.key_turn l.natAbs).trans (wellFormed.key_eq live)
  simp only [visit, moveWatch_of_ok live watches.not_stray, Int.natAbs_neg,
    WatchedClause.moveWatch, turned, found, fresh, keyed]
  rw [ClauseStore.modify_const (f := fun c => (c.turn l.natAbs).pointTo i) live]
  rfl

theorem visit_unmoved (wellFormed : s.clauses.store.WellFormed proper)
    (live : s.clauses.store.get key = .ok c) (watches : c.Watches (-l))
    (absent : c.replacement? s.atoms.value = none) : s.visit l key =
      match s.atoms.literalValue (c.other l.natAbs) with
      | some true => (.kept, s.modifyStore (·.modify key (·.turn l.natAbs)))
      | some false => (.conflict, (s.modifyStore (·.modify key (·.turn l.natAbs))).note .trace
          .propagation fun _ => "Conflict on " ++ key.text ++ " from " ++ l.text)
      | none => (.kept, (s.modifyStore (·.modify key (·.turn l.natAbs))).imply
          (c.other l.natAbs) key) := by
  have shaped := wellFormed.shaped key c live
  have turned := WatchedClause.replacement?_turn s.atoms.value l.natAbs shaped.pointer_lt
  have front : (c.turn l.natAbs).first = c.other l.natAbs := by
    have turned := (shaped.turn_watched watches).1
    rwa [Int.natAbs_neg] at turned
  simp only [visit, moveWatch_of_ok live watches.not_stray, Int.natAbs_neg,
    WatchedClause.moveWatch, turned, absent, front]
  rw [ClauseStore.modify_const (f := (·.turn l.natAbs)) live]
  cases s.atoms.literalValue (c.other l.natAbs) with
  | none => rfl
  | some isTrue => cases isTrue <;> rfl

theorem clauses_assign (s : Solver) (l : Literal) (source : Source) :
    (s.assign l source).2.clauses = s.clauses := by
  unfold assign
  simp only
  split
  · exact clauses_note ..
  · rfl

theorem clauses_imply (s : Solver) (l : Literal) (key : ClauseKey) :
    (s.imply l key).clauses = s.clauses :=
  (clauses_assign ..).trans (clauses_note ..)

theorem clauses_visit_unmoved (wellFormed : s.clauses.store.WellFormed proper)
    (live : s.clauses.store.get key = .ok c) (watches : c.Watches (-l))
    (absent : c.replacement? s.atoms.value = none) :
    ((s.visit l key).1 = .kept ∨ (s.visit l key).1 = .conflict) ∧
      (s.visit l key).2.clauses = (s.modifyStore (·.modify key (·.turn l.natAbs))).clauses := by
  rw [visit_unmoved wellFormed live watches absent]
  split
  · exact ⟨.inl rfl, rfl⟩
  · exact ⟨.inr rfl, clauses_note ..⟩
  · exact ⟨.inl rfl, clauses_imply ..⟩

structure Rewatches (start : ClauseStore) (proper : Literal → Prop) (l : Literal) (w : Walk) :
    Prop where
  mirrors : w.Mirrors l
  orderly : w.solver.clauses.store.Orderly proper
  preserves : start.Preserves w.solver.clauses.store

namespace Rewatches

variable {start : ClauseStore} {s' : Solver}

theorem congr (rewatches : Rewatches start proper l ⟨s, list, length⟩)
    (clauses : s'.clauses = s.clauses) : Rewatches start proper l ⟨s', list, length⟩ where
  mirrors := rewatches.mirrors.congr clauses
  orderly := by
    rw [clauses]
    exact rewatches.orderly
  preserves := by
    rw [clauses]
    exact rewatches.preserves

theorem turn (rewatches : Rewatches start proper l ⟨s, list, length⟩)
    (live : s.clauses.store.get key = .ok c) (watches : c.Watches (-l)) :
    Rewatches start proper l ⟨s.modifyStore (·.modify key (·.turn l.natAbs)), list, length⟩ := by
  have wellFormed := rewatches.orderly.wellFormed.shaped key c live
  have keeps (d : WatchedClause) : (d.turn l.natAbs).key = d.key := d.key_turn l.natAbs
  have perm := c.turn_perm l.natAbs
  exact {
    mirrors := rewatches.mirrors.turned live wellFormed watches
    orderly := rewatches.orderly.modify live keeps (wellFormed.turn _)
    preserves := rewatches.preserves.trans (.modify live (keeps c) perm) }

theorem move (rewatches : Rewatches start proper l ⟨s, list, length⟩) (inside : i < length)
    (found : list[i]? = some key) (live : s.clauses.store.get key = .ok c)
    (watches : c.Watches (-l)) {k : Nat} (moves : c.replacement? s.atoms.value = some k) :
    Rewatches start proper l
      ⟨(s.modifyStore (·.modify key fun c => (c.turn l.natAbs).pointTo k)).modifyWatches
        (·.watch (c.literalAt k) key), list.swapIfInBounds i (length - 1), length - 1⟩ := by
  have wellFormed := rewatches.orderly.wellFormed.shaped key c live
  obtain ⟨shaped, moved, -⟩ := wellFormed.moves watches moves
  rw [Int.natAbs_neg] at shaped moved
  have keeps (d : WatchedClause) : ((d.turn l.natAbs).pointTo k).key = d.key := d.key_turn l.natAbs
  exact {
    mirrors := rewatches.mirrors.moved inside found live wellFormed watches (keeps c) moved
    orderly := rewatches.orderly.modify live keeps shaped
    preserves := rewatches.preserves.trans (.modify live (keeps c) moved.perm) }

theorem visit (rewatches : Rewatches start proper l ⟨s, list, length⟩) (inside : i < length)
    (found : list[i]? = some key) :
    ((s.visit l key).1 = .moved ∧ Rewatches start proper l
        ⟨(s.visit l key).2, list.swapIfInBounds i (length - 1), length - 1⟩) ∨
      (((s.visit l key).1 = .kept ∨ (s.visit l key).1 = .conflict) ∧
        Rewatches start proper l ⟨(s.visit l key).2, list, length⟩) := by
  obtain ⟨c, live, watches⟩ := rewatches.mirrors.live inside found
  have wellFormed := rewatches.orderly.wellFormed
  cases moves : c.replacement? s.atoms.value with
  | some k =>
    rw [visit_moved wellFormed live watches moves]
    exact .inl ⟨rfl, rewatches.move inside found live watches moves⟩
  | none =>
    obtain ⟨outcome, clauses⟩ := clauses_visit_unmoved wellFormed live watches moves
    exact .inr ⟨outcome, (rewatches.turn live watches).congr clauses⟩

theorem walk {w : Walk} (rewatches : Rewatches start proper l w) (i : Nat) :
    Rewatches start proper l (walk l w i).2 := by
  fun_induction Solver.walk l w i with
  | case1 => exact rewatches
  | case2 i s list length inside key found s' answer ih =>
    have visited := rewatches.visit inside found
    simp only [answer, reduceCtorEq, or_self, false_and, or_false, true_and] at visited
    exact ih visited
  | case3 i s list length inside key found s' answer ih =>
    have visited := rewatches.visit inside found
    simp only [answer, reduceCtorEq, false_and, false_or, true_or, true_and] at visited
    exact ih visited
  | case4 i s list length inside key found s' answer =>
    have visited := rewatches.visit inside found
    simp only [answer, reduceCtorEq, false_and, false_or, or_true, true_and] at visited
    exact visited
  | case5 i s list length inside key found failure s' answer =>
    have visited := rewatches.visit inside found
    simp only [answer, reduceCtorEq, false_and, or_self] at visited
  | case6 => exact rewatches

end Rewatches

theorem propagateLiteral_eq {s : Solver} {l : Literal} {result : Except Failure Propagated}
    {w : Walk} (ended : walk l ⟨s.modifyWatches fun w => (w.take (-l)).2,
      s.clauses.watches.watchers (-l), (s.clauses.watches.watchers (-l)).size⟩ 0 = (result, w)) :
    s.propagateLiteral l =
      (result, w.solver.modifyWatches (·.restore (-l) (w.list.shrink w.length))) := by
  obtain rfl : _ = result := congrArg Prod.fst ended
  obtain rfl : _ = w := congrArg Prod.snd ended
  rfl

section Relations

variable {R : Solver → Solver → Prop} (refl : ∀ s, R s s)
  (trans : ∀ {s s' s'' : Solver}, R s s' → R s' s'' → R s s'')

include refl trans

theorem walk_related (visit : ∀ s key, R s (s.visit l key).2) (w : Walk) (i : Nat) :
    R w.solver (walk l w i).2.solver := by
  have answered {s s' : Solver} {key : ClauseKey} {outcome : Visit}
      (answer : s.visit l key = (outcome, s')) : R s s' := by
    rw [show s' = (s.visit l key).2 from (congrArg Prod.snd answer).symm]
    exact visit s key
  fun_induction walk l w i with
  | case1 => exact refl _
  | case2 i s list length inside key found s' answer ih => exact trans (answered answer) ih
  | case3 i s list length inside key found s' answer ih => exact trans (answered answer) ih
  | case4 i s list length inside key found s' answer => exact answered answer
  | case5 i s list length inside key found failure s' answer => exact answered answer
  | case6 => exact refl _

theorem propagate_related (draw : ∀ s l, R s (s.propagateLiteral l).2)
    (advance : ∀ s, R s { s with trail := s.trail.advance }) (s : Solver) : R s s.propagate.2 := by
  have answered {s s' : Solver} {l : Literal} {result : Except Failure Propagated}
      (answer : s.propagateLiteral l = (result, s')) : R s s' := by
    rw [show s' = (s.propagateLiteral l).2 from (congrArg Prod.snd answer).symm]
    exact draw s l
  fun_induction propagate s with
  | case1 => exact refl _
  | case2 s l next after answer ih =>
    exact trans (answered answer) (trans (advance after) ih)
  | case3 s l next result after notComplete answer => exact answered answer

end Relations

theorem propagateLiteral_preserves (orderly : s.clauses.store.Orderly proper)
    (mirrors : s.clauses.Mirrors) (l : Literal) :
    (s.propagateLiteral l).2.clauses.store.Orderly proper ∧
      (s.propagateLiteral l).2.clauses.Mirrors ∧
      s.clauses.store.Preserves (s.propagateLiteral l).2.clauses.store := by
  have rewatches : Rewatches s.clauses.store proper l
      ⟨s.modifyWatches fun w => (w.take (-l)).2, s.clauses.watches.watchers (-l),
        (s.clauses.watches.watchers (-l)).size⟩ := ⟨.start mirrors l, orderly, .refl _⟩
  have walked := rewatches.walk 0
  rw [propagateLiteral_eq rfl]
  exact ⟨walked.orderly, walked.mirrors.restored, walked.preserves⟩

end Solver

end ClauseLearning
