import ClauseLearning.Proofs.Assignment

namespace ClauseLearning

def unitKey (l : Literal) : ClauseOrigin → ClauseKey
  | .formula => .originalUnit l
  | .resolution => .additionUnit l

namespace ClauseStore

theorem Guarded.mono {s : ClauseStore} {trail : Trail} {exempt exempt' : ClauseKey → Prop}
    (guarded : s.Guarded trail exempt) (more : ∀ key, exempt key → exempt' key) :
    s.Guarded trail exempt' :=
  fun key c live counts => guarded key c live fun was => counts (more key was)

def addUnit (s : ClauseStore) (l : Literal) : ClauseOrigin → ClauseStore
  | .formula => { s with originalUnits := s.originalUnits.push l }
  | .resolution => { s with additionUnits := s.additionUnits.push l }

section AddUnit

variable (s : ClauseStore) (l m : Literal) (origin : ClauseOrigin)

theorem get_addUnit (key : ClauseKey) : (s.addUnit l origin).get key = s.get key := by
  cases origin <;> cases key <;> rfl

theorem mem_originalUnits_addUnit : m ∈ (s.addUnit l origin).originalUnits ↔
    m ∈ s.originalUnits ∨ m = l ∧ origin = .formula := by
  cases origin <;> simp [addUnit]

theorem mem_additionUnits_addUnit : m ∈ (s.addUnit l origin).additionUnits ↔
    m ∈ s.additionUnits ∨ m = l ∧ origin = .resolution := by
  cases origin <;> simp [addUnit]

theorem mem_originalClauses_addUnit {d : Clause} : d ∈ (s.addUnit l origin).originalClauses ↔
    d ∈ s.originalClauses ∨ d = [l] ∧ origin = .formula := by
  cases origin with
  | formula =>
    simp only [addUnit, originalClauses, Array.toList_push, List.map_append, List.mem_append,
      List.map_cons, List.map_nil, List.mem_singleton, and_true]
    rw [or_right_comm]
  | resolution => simp [addUnit, originalClauses]

end AddUnit

theorem Orderly.addUnit {s : ClauseStore} {proper : Literal → Prop} (orderly : s.Orderly proper)
    (l : Literal) (origin : ClauseOrigin) : (s.addUnit l origin).Orderly proper := by
  have shaped : ∀ key c, (s.addUnit l origin).get key = .ok c → c.WellFormed proper := by
    intro key c live
    exact orderly.wellFormed.shaped key c ((s.get_addUnit l origin key).symm.trans live)
  cases origin with
  | formula =>
    exact ⟨⟨orderly.wellFormed.keyed, orderly.wellFormed.slotted, shaped⟩,
      ⟨orderly.vacant.empty, orderly.vacant.distinct⟩, orderly.ranked⟩
  | resolution =>
    exact ⟨⟨orderly.wellFormed.keyed, orderly.wellFormed.slotted, shaped⟩,
      ⟨orderly.vacant.empty, orderly.vacant.distinct⟩, orderly.ranked⟩

end ClauseStore

theorem WatchedStore.insert_unit {s : WatchedStore} (room : s.store.totalCount < s.store.limit)
    (value : Atom → Option Bool) (level : Atom → Option Nat) (l : Literal) (origin : ClauseOrigin)
    (blockDistance : Option Nat) : s.insert value level [l] origin blockDistance =
      (.ok (unitKey l origin), { s with store := s.store.addUnit l origin }) := by
  unfold insert
  rw [if_neg (Nat.not_le.2 room)]
  cases origin <;> rfl

theorem WatchedStore.insert_stores {s : WatchedStore} {value : Atom → Option Bool}
    {level : Atom → Option Nat} {c : Clause} {origin : ClauseOrigin} (nonempty : c ≠ [])
    (takes : s.store.Takes c origin) (blockDistance : Option Nat) :
    ∃ key s', s.insert value level c origin blockDistance = (.ok key, s') := by
  match c with
  | [l] => exact ⟨_, _, insert_unit takes.room ..⟩
  | l :: m :: rest =>
    have left := takes.key (Nat.le_add_left 2 _)
    unfold insert
    rw [if_neg (Nat.not_le.2 takes.room)]
    cases origin with
    | formula => exact ⟨_, _, if_pos left⟩
    | resolution =>
      obtain ⟨key, vacated, fresh⟩ := ClauseStore.freshKey_of_hasKey left
      simp only [insertAddition, fresh]
      exact ⟨key, _, rfl⟩

namespace Solver

variable {s s' : Solver} {formula larger : List Clause} {c : Clause} {key : ClauseKey}

theorem Covers.grow (covered : s.Covers formula) (status : s'.status = s.status)
    (kept : ∀ d ∈ s.clauses.store.originalClauses,
      ∃ e ∈ s'.clauses.store.originalClauses, e ⊆ d)
    (parts : ∀ d ∈ larger, d ∈ formula ∨ ∃ e ∈ s'.clauses.store.originalClauses, e ⊆ d) :
    s'.Covers larger := by
  unfold Covers at covered ⊢
  rw [status]
  apply covered.imp_right
  intro before d member
  rcases parts d member with old | part
  · obtain ⟨e, stored, subset⟩ := before d old
    obtain ⟨e', stored', subset'⟩ := kept e stored
    exact ⟨e', stored', fun l inside => subset (subset' inside)⟩
  · exact part

def HasRoom (s : Solver) : Prop := s.clauses.store.totalCount < s.clauses.store.limit

/-- The clause is refused, and nothing but the journal and the free slots changes. -/
structure Refuses (s : Solver) (c : Clause) (origin : ClauseOrigin) (failure : Failure)
    (s' : Solver) : Prop where
  reason : s.clauses.store.Refuses c origin failure s'.clauses.store
  same : ∃ journal, s' = { s with
    clauses := { s.clauses with store := s'.clauses.store }, journal }

theorem insert_refused {origin : ClauseOrigin} (nonempty : c ≠ [])
    (refused : ¬s.clauses.store.Takes c origin) (blockDistance : Option Nat) :
    ∃ failure s', s.insert c origin blockDistance = (.error failure, s') ∧
      s.Refuses c origin failure s' := by
  obtain ⟨failure, store, reason, answer⟩ :=
    WatchedStore.insert_refused nonempty refused s.atoms.value s.atoms.level blockDistance
  obtain ⟨journal, noted⟩ :=
    noteFailure_eq { s with clauses := { s.clauses with store } } failure
  refine ⟨failure, { s with clauses := { s.clauses with store }, journal }, ?_, reason, journal, rfl⟩
  simp only [insert, answer, noted]

theorem takes_of_insert {origin : ClauseOrigin} {blockDistance : Option Nat} (nonempty : c ≠ [])
    (answer : s.insert c origin blockDistance = (.ok key, s')) :
    s.clauses.store.Takes c origin := by
  by_contra refused
  obtain ⟨_, _, ended, -⟩ := insert_refused nonempty refused blockDistance
  cases answer.symm.trans ended

theorem Refuses.resembles {origin : ClauseOrigin} {failure : Failure}
    (refuses : s.Refuses c origin failure s') : s.Resembles s' ∧ s'.buffer = s.buffer := by
  obtain ⟨reason, journal, same⟩ := refuses
  generalize s'.clauses.store = store at reason same
  subst same
  cases reason with
  | full full => exact ⟨.of_eq rfl rfl rfl rfl rfl, rfl⟩
  | originalKeys room long spent => exact ⟨.of_eq rfl rfl rfl rfl rfl, rfl⟩
  | additionKeys room long spent =>
    refine ⟨⟨.refl _, id, ⟨rfl, rfl, rfl, rfl⟩, fun proper orderly => ?_, rfl, rfl, rfl, rfl⟩, rfl⟩
    exact ⟨⟨orderly.wellFormed.keyed, orderly.wellFormed.slotted, orderly.wellFormed.shaped⟩,
      ⟨fun _ member => absurd member List.not_mem_nil, .nil⟩, orderly.ranked⟩

def collected (s : Solver) (c : Clause) : ClauseOrigin → Option (Array Clause)
  | .formula => s.learned
  | .resolution => s.learned.map (·.push c)

theorem insert_of_stored {clauses : WatchedStore} {origin : ClauseOrigin}
    {blockDistance : Option Nat}
    (stored : s.clauses.insert s.atoms.value s.atoms.level c origin blockDistance =
      (.ok key, clauses)) :
    ∃ journal, s.insert c origin blockDistance =
      (.ok key, { s with clauses, journal, learned := s.collected c origin }) := by
  obtain ⟨journal, noted⟩ := note_eq { s with clauses } .trace .clauses
    fun _ => key.text ++ ": " ++ c.text
  refine ⟨journal, ?_⟩
  simp only [insert, stored, noted]
  cases origin with
  | formula => rfl
  | resolution =>
    simp only [if_true, collect, collected]
    cases s.learned <;> rfl

theorem stored_of_insert {origin : ClauseOrigin} {blockDistance : Option Nat}
    (answer : s.insert c origin blockDistance = (.ok key, s')) :
    s.clauses.insert s.atoms.value s.atoms.level c origin blockDistance = (.ok key, s'.clauses) := by
  cases stored : s.clauses.insert s.atoms.value s.atoms.level c origin blockDistance with
  | mk result clauses =>
    cases result with
    | error failure =>
      simp only [insert, stored] at answer
      cases answer
    | ok key' =>
      obtain ⟨journal, inserted⟩ := insert_of_stored stored
      cases answer.symm.trans inserted
      rfl

theorem Entailed.collect (entailed : s.Entailed formula) (consequence : Entails formula c)
    (origin : ClauseOrigin) : ∀ collected, s.collected c origin = some collected →
      ∀ d ∈ collected, Entails formula d := by
  intro collected kept d member
  cases origin with
  | formula => exact entailed.learned collected kept d member
  | resolution =>
    obtain ⟨before, was, rfl⟩ := Option.map_eq_some_iff.1 kept
    rcases Array.mem_push.1 member with member | rfl
    · exact entailed.learned before was d member
    · exact consequence

theorem Invariant.insert_unit (invariant : s.Invariant formula fun _ => False) (room : s.HasRoom)
    {l : Literal} (origin : ClauseOrigin) (blockDistance : Option Nat)
    (included : formula ⊆ larger) (consequence : Entails larger [l])
    (parts : ∀ d ∈ larger, d ∈ formula ∨ origin = .formula ∧ l ∈ d) :
    ∃ s', s.insert [l] origin blockDistance = (.ok (unitKey l origin), s') ∧
      s'.Invariant larger (· = unitKey l origin) ∧ s'.atoms = s.atoms ∧ s'.trail = s.trail ∧
      s'.status = s.status := by
  obtain ⟨journal, answer⟩ := insert_of_stored
    (WatchedStore.insert_unit room s.atoms.value s.atoms.level l origin blockDistance)
  have same := s.clauses.store.get_addUnit l origin
  obtain ⟨coherent, mirrors, guarded, grounded, entailed, covered⟩ := invariant
  replace entailed := entailed.mono included
  refine ⟨_, answer, ⟨?_, ?_, ?_, ⟨?_, ?_⟩, ?_, ?_⟩, rfl, rfl, rfl⟩
  · exact { coherent with
      justified := coherent.justified.store fun key c live _ _ =>
        ⟨c, (same key).trans live, rfl, .refl _⟩
      orderly := coherent.orderly.addUnit l origin }
  · intro m
    exact (mirrors m).keep fun key => by simp only [ClauseStore.Watching, same]
  · intro key c live _
    exact guarded key c ((same key).symm.trans live) id
  · intro m member counts
    rcases (ClauseStore.mem_originalUnits_addUnit _ l m origin).1 member with before | ⟨rfl, rfl⟩
    · exact grounded.originalUnits m before id
    · exact absurd rfl counts
  · intro m member counts
    rcases (ClauseStore.mem_additionUnits_addUnit _ l m origin).1 member with before | ⟨rfl, rfl⟩
    · exact grounded.additionUnits m before id
    · exact absurd rfl counts
  · refine { entailed with
      long := fun key c live => entailed.long key c ((same key).symm.trans live)
      originalUnits := fun m member => ?_
      additionUnits := fun m member => ?_
      learned := entailed.collect consequence origin }
    · rcases (ClauseStore.mem_originalUnits_addUnit _ l m origin).1 member with before | ⟨rfl, -⟩
      · exact entailed.originalUnits m before
      · exact consequence
    · rcases (ClauseStore.mem_additionUnits_addUnit _ l m origin).1 member with before | ⟨rfl, -⟩
      · exact entailed.additionUnits m before
      · exact consequence
  · have stored {d : Clause} : d ∈ (s.clauses.store.addUnit l origin).originalClauses ↔
        d ∈ s.clauses.store.originalClauses ∨ d = [l] ∧ origin = .formula :=
      ClauseStore.mem_originalClauses_addUnit _ l origin
    refine covered.grow (by rfl) (fun d part => ?_) fun d member => ?_
    · exact ⟨d, stored.2 (.inl part), List.Subset.refl d⟩
    · rcases parts d member with before | ⟨isFormula, inside⟩
      · exact .inl before
      · exact .inr ⟨[l], stored.2 (.inr ⟨rfl, isFormula⟩), by simpa using inside⟩

theorem Invariant.insert_long {origin : ClauseOrigin}
    (invariant : s.Invariant formula fun _ => False) (takes : s.clauses.store.Takes c origin)
    (two_le : 2 ≤ c.length) (distinct : (c.map Int.natAbs).Nodup)
    (known : ∀ l ∈ c, l ≠ 0 ∧ l.natAbs < s.atoms.size) (blockDistance : Option Nat)
    (included : formula ⊆ larger) (consequence : Entails larger c)
    (parts : ∀ d ∈ larger, d ∈ formula ∨ origin = .formula ∧ c ⊆ d) :
    ∃ key s', s.insert c origin blockDistance = (.ok key, s') ∧ s'.Invariant larger (· = key) ∧
      s'.clauses.store.get key = .ok (.ofClause s.atoms.value key c) ∧ s'.atoms = s.atoms ∧
      s'.trail = s.trail ∧ s'.status = s.status := by
  obtain ⟨coherent, mirrors, guarded, grounded, entailed, covered⟩ := invariant
  obtain ⟨key, clauses, inserted, orderly, mirrors', stored, originalUnits, additionUnits,
    originals⟩ := WatchedStore.insert_long coherent.orderly mirrors takes two_le distinct known
      blockDistance
  obtain ⟨journal, answer⟩ := insert_of_stored inserted
  have perm := WatchedClause.ofClause_perm s.atoms.value key c
  replace entailed := entailed.mono included
  refine ⟨key, _, answer, ⟨?_, mirrors', ?_, ?_, ?_, ?_⟩, stored.live, rfl, rfl, rfl⟩
  · exact { coherent with
      justified := coherent.justified.store fun other d live _ _ =>
        ⟨d, stored.kept live, rfl, .refl _⟩
      orderly := orderly }
  · exact (guarded.mono fun _ => False.elim).stored stored fun other => absurd rfl other
  · refine ⟨fun m member _ => ?_, fun m member _ => ?_⟩
    · exact grounded.originalUnits m (originalUnits ▸ member) id
    · exact grounded.additionUnits m (additionUnits ▸ member) id
  · refine { entailed with
      long := fun other d live => ?_
      originalUnits := originalUnits ▸ entailed.originalUnits
      additionUnits := additionUnits ▸ entailed.additionUnits
      learned := entailed.collect consequence origin }
    rcases (stored.get_iff other d).1 live with ⟨rfl, rfl⟩ | live
    · exact consequence.subset perm.symm.subset
    · exact entailed.long other d live
  · refine covered.grow (by rfl) ?_ ?_
    · intro d part
      refine ⟨d, ?_, List.Subset.refl d⟩
      simp only [ClauseStore.originalClauses, List.mem_append, List.mem_map, originalUnits,
        originals] at part ⊢
      refine part.imp_right ?_
      rintro ⟨o, member, rfl⟩
      refine ⟨o, ?_, rfl⟩
      cases origin with
      | formula => simpa using .inl (by simpa using member)
      | resolution => exact member
    · intro d member
      refine (parts d member).imp_right ?_
      rintro ⟨rfl, subset⟩
      refine ⟨_, ?_, fun l inside => subset (perm.subset inside)⟩
      simp only [ClauseStore.originalClauses, List.mem_append, List.mem_map, originals]
      exact .inr ⟨_, by simp, rfl⟩

theorem get_unitKey (s : ClauseStore) (l : Literal) (origin : ClauseOrigin) (c : WatchedClause) :
    s.get (unitKey l origin) ≠ .ok c := by
  cases origin with
  | formula => exact ClauseStore.get_originalUnit
  | resolution => exact ClauseStore.get_additionUnit

theorem Invariant.enforce_unit {l : Literal} (origin : ClauseOrigin)
    (invariant : s.Invariant formula (· = unitKey l origin))
    (ground : ∃ i : Nat, s.trail.literals[i]? = some l ∧ s.trail.levelAt i = 0) :
    s.Invariant formula fun _ => False := by
  refine { invariant with
    guarded := fun key c live _ => invariant.guarded key c live ?_
    grounded := ⟨fun m member _ => ?_, fun m member _ => ?_⟩ }
  · rintro rfl
    exact get_unitKey _ l origin c live
  · by_cases last : .originalUnit m = unitKey l origin
    · cases origin <;> cases last
      exact ground
    · exact invariant.grounded.originalUnits m member last
  · by_cases last : .additionUnit m = unitKey l origin
    · cases origin <;> cases last
      exact ground
    · exact invariant.grounded.additionUnits m member last

theorem Invariant.enforce_long (invariant : s.Invariant formula (· = key)) {d : WatchedClause}
    (live : s.clauses.store.get key = .ok d) (guards : s.trail.GuardsClause s.trail.head d) :
    s.Invariant formula fun _ => False := by
  refine { invariant with
    guarded := fun other e live' _ => ?_
    grounded := ⟨fun l member _ => ?_, fun l member _ => ?_⟩ }
  · by_cases last : other = key
    · subst last
      obtain rfl := Except.ok.inj (live.symm.trans live')
      exact guards
    · exact invariant.guarded other e live' last
  · refine invariant.grounded.originalUnits l member ?_
    rintro rfl
    exact get_unitKey _ l .formula d live
  · refine invariant.grounded.additionUnits l member ?_
    rintro rfl
    exact get_unitKey _ l .resolution d live

theorem Invariant.assert_unit {l : Literal} (origin : ClauseOrigin)
    (invariant : s.Invariant formula (· = unitKey l origin)) (ground : s.trail.level = 0)
    (nonzero : l ≠ 0) (unvalued : s.atoms.Unvalued l.natAbs) (consequence : Entails formula [l]) :
    ∃ s', s.assign l (.unit (unitKey l origin)) = (.assigned, s') ∧
      s'.Invariant formula (fun _ => False) ∧ s'.status = s.status := by
  obtain ⟨s', answer, gains, trail⟩ :=
    assign_of_unvalued invariant.coherent (.unit (unitKey l origin)) unvalued
  have inner : s.trail.literals.size ∉ s'.trail.starts := by
    rw [trail]
    exact invariant.coherent.trail.size_not_mem_starts
  have last : s'.trail.levelAt s.trail.literals.size = 0 := by
    rw [gains.levelAt_last, trail]
    exact ground
  have gained :=
    invariant.gain gains nonzero unvalued.2 ⟨inner, last⟩ fun _ => consequence
  exact ⟨s', answer, gained.enforce_unit origin ⟨_, gains.last, last⟩, gains.status⟩

end Solver

end ClauseLearning
