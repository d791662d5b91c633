import ClauseLearning.Proofs.Coherence

namespace ClauseLearning

namespace WatchedClause

variable {proper : Literal → Prop} {c : WatchedClause} {l m : Literal}
  {value : Atom → Option Bool} {i : Nat}

theorem WellFormed.watches_iff (wellFormed : c.WellFormed proper) (watches : c.Watches l) :
    c.Watches m ↔ m = c.other l.natAbs ∨ m = l := by
  obtain ⟨front, back⟩ := wellFormed.turn_watched watches
  rw [← wellFormed.turn_watches watches, Watches, front, back, eq_comm, @eq_comm _ l]

theorem WellFormed.other_ne (wellFormed : c.WellFormed proper) (watches : c.Watches l) :
    c.other l.natAbs ≠ l := by
  obtain ⟨front, back⟩ := wellFormed.turn_watched watches
  intro same
  exact (wellFormed.turn l.natAbs).first_ne_second (front.trans (same.trans back.symm))

theorem WellFormed.not_watches (wellFormed : c.WellFormed proper) (positive : 1 ≤ i)
    (inside : i < c.literals.size) (other : i ≠ c.pointer) : ¬c.Watches (c.literalAt i) := by
  rintro (same | same)
  · exact absurd (wellFormed.index_eq (by have := wellFormed.two_le; omega) inside
      (congrArg Int.natAbs same)) (by omega)
  · exact absurd (wellFormed.index_eq wellFormed.pointer_lt inside (congrArg Int.natAbs same))
      (Ne.symm other)

theorem false_of_not_watches (absent : c.replacement? value = none) (member : m ∈ c.clause)
    (unwatched : ¬c.Watches m) : m.value value = some false := by
  obtain ⟨k, inside, rfl⟩ := mem_clause_iff.1 member
  refine replacement?_none absent ?_ inside ?_
  · rcases Nat.eq_zero_or_pos k with rfl | positive
    · exact absurd (.inl rfl) unwatched
    · exact positive
  · rintro rfl
    exact unwatched (.inr rfl)

theorem WellFormed.false_of_replacement?_none (wellFormed : c.WellFormed proper)
    (watches : c.Watches l) (absent : c.replacement? value = none)
    (isFalse : l.value value = some false) (member : m ∈ c.clause)
    (apart : m ≠ c.other l.natAbs) : m.value value = some false := by
  by_cases watched : c.Watches m
  · rcases (wellFormed.watches_iff watches).1 watched with same | same
    · exact absurd same apart
    · rw [same, isFalse]
  · exact false_of_not_watches absent member watched

structure Moves (c c' : WatchedClause) (l fresh : Literal) : Prop where
  perm : c'.clause.Perm c.clause
  fresh_mem : fresh ∈ c.clause
  unwatched : ¬c.Watches fresh
  watches : ∀ m, c'.Watches m ↔ m = c.other l.natAbs ∨ m = fresh

theorem WellFormed.moves (wellFormed : c.WellFormed proper) (watches : c.Watches l)
    (found : c.replacement? value = some i) :
    ((c.turn l.natAbs).pointTo i).WellFormed proper ∧
      Moves c ((c.turn l.natAbs).pointTo i) l (c.literalAt i) ∧
      (c.literalAt i).value value ≠ some false := by
  obtain ⟨positive, inside, other, notFalse⟩ :=
    replacement?_some found wellFormed.pointer_pos wellFormed.pointer_lt
  have perm : ((c.turn l.natAbs).pointTo i).clause.Perm c.clause := c.turn_perm l.natAbs
  have front := (wellFormed.turn_watched watches).1
  have back : ((c.turn l.natAbs).pointTo i).second = c.literalAt i :=
    literalAt_turn inside positive other
  refine ⟨wellFormed.of_perm perm positive inside, ⟨perm, literalAt_mem inside,
    wellFormed.not_watches positive inside other, fun m => ?_⟩, notFalse⟩
  unfold Watches
  rw [back, show ((c.turn l.natAbs).pointTo i).first = c.other l.natAbs from front, eq_comm,
    @eq_comm _ (c.literalAt i)]

end WatchedClause

namespace ClauseStore

variable {proper : Literal → Prop} {s : ClauseStore} {key : ClauseKey} {c : WatchedClause}
  {f : WatchedClause → WatchedClause} {l : Literal} {keys keys' : List ClauseKey}

theorem watching_modify (live : s.get key = .ok c) (keeps : (f c).key = c.key) (l : Literal)
    (other : ClauseKey) : (s.modify key f).Watching l other ↔
      (other = key ∧ (f c).Watches l) ∨ (other ≠ key ∧ s.Watching l other) := by
  unfold Watching
  simp only [get_modify live keeps]
  constructor
  · rintro ⟨d, ⟨rfl, rfl⟩ | ⟨apart, live'⟩, watched⟩
    · exact .inl ⟨rfl, watched⟩
    · exact .inr ⟨apart, d, live', watched⟩
  · rintro (⟨rfl, watched⟩ | ⟨apart, d, live', watched⟩)
    · exact ⟨f c, .inl ⟨rfl, rfl⟩, watched⟩
    · exact ⟨d, .inr ⟨apart, live'⟩, watched⟩

theorem watching_iff (live : s.get key = .ok c) : s.Watching l key ↔ c.Watches l := by
  constructor
  · rintro ⟨d, live', watched⟩
    obtain rfl := Except.ok.inj (live.symm.trans live')
    exact watched
  · exact fun watched => ⟨c, live, watched⟩

theorem Lists.modify (lists : s.Lists l keys) (live : s.get key = .ok c)
    (keeps : (f c).key = c.key) (watches : (f c).Watches l ↔ c.Watches l) :
    (s.modify key f).Lists l keys := by
  refine lists.keep fun other => ?_
  rw [watching_modify live keeps, watches]
  by_cases same : other = key
  · subst same
    simp [watching_iff live]
  · simp [same]

theorem Lists.modify_gain (lists : s.Lists l keys) (live : s.get key = .ok c)
    (keeps : (f c).key = c.key) (before : ¬c.Watches l) (after : (f c).Watches l) :
    (s.modify key f).Lists l (keys ++ [key]) := by
  refine lists.gain (mt (watching_iff live).1 before) fun other => ?_
  rw [watching_modify live keeps]
  by_cases same : other = key
  · simp [same, after]
  · simp [same]

theorem Lists.modify_lose (lists : s.Lists l keys) (live : s.get key = .ok c)
    (keeps : (f c).key = c.key) (after : ¬(f c).Watches l) (perm : (key :: keys').Perm keys) :
    (s.modify key f).Lists l keys' := by
  refine lists.lose perm fun other => ?_
  rw [watching_modify live keeps, or_iff_right fun impossible => after impossible.2, and_comm]

theorem Orderly.modify (orderly : s.Orderly proper) (live : s.get key = .ok c)
    (keeps : ∀ d, (f d).key = d.key) (shaped : (f c).WellFormed proper) :
    (s.modify key f).Orderly proper where
  wellFormed := orderly.wellFormed.modify live keeps shaped
  vacant := by
    have vacated : (s.modify key f).vacated = s.vacated := by cases key <;> rfl
    refine ⟨fun last member => ?_, vacated ▸ orderly.vacant.distinct⟩
    obtain ⟨i, token, rfl, empty⟩ := orderly.vacant.empty last (vacated ▸ member)
    have slots := s.additions_modify key f i
    refine ⟨i, token, rfl, ?_⟩
    rw [empty] at slots
    obtain ⟨slot, found, none⟩ := Option.map_eq_some_iff.1 slots
    rw [found, Option.isSome_eq_false_iff.1 none |> Option.isNone_iff_eq_none.1]
  ranked := by
    have ranks : (s.modify key f).ranks = s.ranks := by cases key <;> rfl
    have size : (s.modify key f).additions.size = s.additions.size := by
      cases key <;> simp [ClauseStore.modify]
    refine ⟨ranks ▸ orderly.ranked.wellFormed, ?_, fun i => ?_⟩
    · rw [ranks, size]
      exact orderly.ranked.size
    · have slots := s.additions_modify key f i
      have occupied (slot : Option (Option WatchedClause)) :
          (∃ d, slot = some (some d)) ↔ slot.map Option.isSome = some true := by
        rcases slot with _ | _ | d <;> simp
      rw [ranks, orderly.ranked.active, occupied, occupied, slots]

end ClauseStore

end ClauseLearning
