import ClauseLearning.Proofs.Soundness

namespace ClauseLearning

namespace Solver

def OpensLevel (s : Solver) (i : Nat) : Prop :=
  ∃ l, s.trail.literals[i]? = some l ∧ ∀ j < i, ∀ m, s.trail.literals[j]? = some m →
    s.atoms.level m.natAbs ≠ s.atoms.level l.natAbs

/-- The literal in front of the clause is true, and the others are false before it, at its level or
below. -/
structure Forces (s : Solver) (c : WatchedClause) : Prop where
  front : s.literalValue c.first = some true
  others : ∀ m ∈ c.clause.tail, s.literalValue m = some false
  earlier : ∃ i : Nat, s.trail.literals[i]? = some c.first ∧
    ∀ m ∈ c.clause.tail, ∃ j < i, s.trail.literals[j]? = some (-m)
  highest : (c.clause.tail.filterMap fun m => s.atoms.level m.natAbs).max? =
    s.atoms.level c.first.natAbs

structure Accounted (s : Solver) : Prop where
  units : ∀ a key, s.atoms.source a = some (.unit key) → s.atoms.level a = some 0
  opened : ∀ n < s.level, ∃ (i : Nat) (l : Literal), s.trail.literals[i]? = some l ∧
    s.atoms.level l.natAbs = some (n + 1) ∧ s.OpensLevel i
  decided : ∀ (i : Nat) l n, s.trail.literals[i]? = some l →
    s.atoms.level l.natAbs = some (n + 1) → s.OpensLevel i →
      s.atoms.source l.natAbs = some .decision
  implied : ∀ (i : Nat) l n, s.trail.literals[i]? = some l →
    s.atoms.level l.natAbs = some (n + 1) → ¬s.OpensLevel i →
      ∃ key, s.atoms.source l.natAbs = some (.propagation key)
  reasons : ∀ a key, s.atoms.source a = some (.propagation key) →
    ∃ c, s.store.get key = .ok c ∧ c.first.natAbs = a ∧ s.Forces c

variable {s : Solver} {formula : List Clause} {exempt : ClauseKey → Prop} {settings : Settings}
  {config : Config}

/-- At any time of a run a watch list holds, once each, the keys of the live clauses that watch its
literal, and the two literals which a clause watches differ. -/
theorem reachable_watches (reachable : Reachable settings config) :
    (∀ l key, (config.solver.watches.watchers l).count key =
        if config.solver.store.Watching l key then 1 else 0) ∧
      (∀ key c, config.solver.store.get key = .ok c ↔
        c ∈ config.solver.store.longClauses ∧ c.key = key) ∧
      ∀ c ∈ config.solver.store.longClauses, 2 ≤ c.clause.length ∧ c.first ∈ c.clause ∧
        c.second ∈ c.clause ∧ c.first ≠ c.second := by
  obtain ⟨exempt, invariant⟩ := reachable.good.exists_invariant
  have wellFormed := invariant.coherent.orderly.wellFormed
  refine ⟨fun l key => ?_, fun key c => ⟨fun live => ?_, ?_⟩, fun c stored => ?_⟩
  · have lists := (invariant.mirrors l).count key
    rwa [Array.count_toList] at lists
  · have same := wellFormed.key_eq live
    exact ⟨wellFormed.mem_longClauses.2 (same ▸ live), same⟩
  · rintro ⟨stored, rfl⟩
    exact wellFormed.mem_longClauses.1 stored
  · have shaped := wellFormed.shaped c.key c (wellFormed.mem_longClauses.1 stored)
    exact ⟨shaped.two_le, shaped.first_mem, shaped.second_mem, shaped.first_ne_second⟩

theorem clashing_watches :
    Reachable cramped ⟨[[1, 2, 3], [-3, 1, 2]], .clash (.original 1), clashing⟩ ∧
      (clashing.watches.watchers 2).count (.original 1) = 1 ∧
      (clashing.watches.watchers 1).count (.original 1) = 0 := by
  have watching : clashing.store.Watching 2 (.original 1) := by
    rw [clashing, bothSigns_eq]
    decide +kernel
  have unwatched : ¬clashing.store.Watching 1 (.original 1) := by
    rw [clashing, bothSigns_eq]
    decide +kernel
  obtain ⟨counts, -⟩ := reachable_watches clashing_reachable
  exact ⟨clashing_reachable, (counts 2 (.original 1)).trans (if_pos watching),
    (counts 1 (.original 1)).trans (if_neg unwatched)⟩

theorem Coherent.opensLevel_of_mem_starts (coherent : s.Coherent) {i : Nat} {l : Literal}
    (found : s.trail.literals[i]? = some l) (start : i ∈ s.trail.starts) : s.OpensLevel i := by
  refine ⟨l, found, fun j before m located same => ?_⟩
  rw [coherent.agrees.level_of_getElem? found, coherent.agrees.level_of_getElem? located] at same
  have lower := Trail.levelAt_lt_of_mem_starts coherent.aligned.trail start before
  exact lower.ne (Option.some.inj same)

theorem Coherent.not_opensLevel (coherent : s.Coherent) {i : Nat} {l : Literal}
    {c : WatchedClause} (found : s.trail.literals[i]? = some l) (implies : s.trail.Implies i c l) :
    ¬s.OpensLevel i := by
  rintro ⟨l', found', first⟩
  obtain rfl := Option.some.inj (found.symm.trans found')
  obtain ⟨m, -, j, before, located, same⟩ := implies.latest
  apply first j before (-m) located
  rw [coherent.agrees.level_of_getElem? located, coherent.agrees.level_of_getElem? found, same]

theorem Coherent.forces (coherent : s.Coherent) {i : Nat} {l : Literal} {key : ClauseKey}
    {c : WatchedClause} (found : s.trail.literals[i]? = some l)
    (live : s.clauses.store.get key = .ok c) (implies : s.trail.Implies i c l) : s.Forces c := by
  have agrees := coherent.agrees
  have shaped := coherent.orderly.wellFormed.shaped key c live
  obtain rfl := implies.front
  -- No literal is twice in a clause, so the others are those after the first.
  have distinct := shaped.distinct
  rw [shaped.clause_eq, List.map_cons, List.nodup_cons] at distinct
  have earlier : ∀ m ∈ c.clause.tail, ∃ j < i, s.trail.literals[j]? = some (-m) := by
    intro m member
    apply implies.earlier m (List.mem_of_mem_tail member)
    rintro rfl
    exact distinct.1 (List.mem_map_of_mem member)
  refine ⟨agrees.literalValue_of_mem (Array.mem_of_getElem? found), fun m member => ?_,
    ⟨i, found, earlier⟩, ?_⟩
  · obtain ⟨j, -, located⟩ := earlier m member
    exact agrees.literalValue_of_neg_mem (Array.mem_of_getElem? located)
  · rw [agrees.level_of_getElem? found, List.max?_eq_some_iff]
    simp only [List.mem_filterMap]
    constructor
    · obtain ⟨m, member, j, before, located, same⟩ := implies.latest
      rw [shaped.clause_eq] at member
      rcases List.mem_cons.1 member with rfl | member
      · have opposite := Array.mem_of_getElem? located
        exact absurd opposite (agrees.not_neg_mem (Array.mem_of_getElem? found))
      · exact ⟨m, member, by rw [agrees.level_of_neg located, same]⟩
    · rintro n ⟨m, member, known⟩
      obtain ⟨j, before, located⟩ := earlier m member
      rw [agrees.level_of_neg located] at known
      rw [← Option.some.inj known]
      exact s.trail.levelAt_mono before.le

theorem Coherent.justifies (coherent : s.Coherent) {a : Nat} {source : Source}
    (known : s.atoms.source a = some source) :
    ∃ (i : Nat) (l : Literal), s.trail.literals[i]? = some l ∧ l.natAbs = a ∧
      source.Justifies s.trail s.clauses.store i l := by
  obtain ⟨i, l, found, rfl⟩ := coherent.agrees.exists_getElem? known
  obtain ⟨source', known', justifies⟩ := coherent.justified i l found
  obtain rfl := Option.some.inj (known.symm.trans known')
  exact ⟨i, l, found, rfl, justifies⟩

theorem Coherent.accounted (coherent : s.Coherent) : s.Accounted where
  units a key known := by
    obtain ⟨i, l, found, rfl, -, zero⟩ := coherent.justifies known
    rw [coherent.agrees.level_of_getElem? found, zero]
  opened n below := by
    obtain ⟨i, l, start, found, level⟩ := coherent.trail.exists_start below
    refine ⟨i, l, found, ?_, coherent.opensLevel_of_mem_starts found start⟩
    rw [coherent.agrees.level_of_getElem? found, level]
  decided i l n found level opens := by
    obtain ⟨source, known, justifies⟩ := coherent.justified i l found
    cases source with
    | decision => exact known
    | unit key =>
      rw [coherent.agrees.level_of_getElem? found, justifies.2] at level
      cases level
    | propagation key =>
      obtain ⟨-, c, -, implies⟩ := justifies
      exact absurd opens (coherent.not_opensLevel found implies)
  implied i l n found level inner := by
    obtain ⟨source, known, justifies⟩ := coherent.justified i l found
    cases source with
    | decision => exact absurd (coherent.opensLevel_of_mem_starts found justifies) inner
    | unit key =>
      rw [coherent.agrees.level_of_getElem? found, justifies.2] at level
      cases level
    | propagation key => exact ⟨key, known⟩
  reasons a key known := by
    obtain ⟨i, l, found, rfl, -, c, live, implies⟩ := coherent.justifies known
    exact ⟨c, live, congrArg Int.natAbs implies.front, coherent.forces found live implies⟩

theorem Accounted.isReason_iff (accounted : s.Accounted) (key : ClauseKey) :
    s.store.isReason s.atoms.source key = true ↔
      ∃ a, s.atoms.source a = some (.propagation key) := by
  unfold ClauseStore.isReason
  constructor
  · intro isReason
    split at isReason
    · exact ⟨_, of_decide_eq_true isReason⟩
    · cases isReason
  · rintro ⟨a, known⟩
    obtain ⟨c, live, rfl, -⟩ := accounted.reasons a key known
    simp [live, known]

theorem get_reduceBy (coherent : s.Coherent) (mirrors : s.clauses.Mirrors) (count : Nat)
    {key : ClauseKey} {c : WatchedClause} (live : s.store.get key = .ok c)
    (isReason : s.atoms.source c.first.natAbs = some (.propagation key)) :
    (s.reduceBy count).2.store.get key = .ok c := by
  obtain ⟨removed, clauses, answer, -, -, -, reasons, -⟩ :=
    WatchedStore.reduce_spec s.atoms.source coherent.orderly mirrors count
  obtain ⟨noted, -⟩ := noteRemovals_resembles { s with clauses } removed
  have summed := noted.trans (note_resembles (removed.foldl noteRemoval { s with clauses }) .info
    .reduction fun _ => "Removed " ++ toString removed.length ++ " additions")
  simp only [reduceBy, answer]
  exact (summed.clauses.get_eq key).trans (reasons key c live isReason)

theorem get_reduce (coherent : s.Coherent) (mirrors : s.clauses.Mirrors) {key : ClauseKey}
    {c : WatchedClause} (live : s.store.get key = .ok c)
    (isReason : s.atoms.source c.first.natAbs = some (.propagation key)) :
    s.reduce.2.store.get key = .ok c := by
  unfold reduce
  simp only
  have kept := get_reduceBy coherent mirrors
    (Float.ofNat s.clauses.store.additionCount * s.settings.reductionRatio).toUInt64.toNat live
    isReason
  split <;> rename_i answer <;> rw [answer] at kept <;> exact kept

/-- At any time of a run the source of each value accounts for it, a clause is found to be a reason
just when it is the source of some value, and reductions keep it then. -/
theorem reachable_accounted (reachable : Reachable settings config) :
    config.solver.Accounted ∧
      (∀ key, config.solver.store.isReason config.solver.atoms.source key = true ↔
        ∃ a, config.solver.atoms.source a = some (.propagation key)) ∧
      ∀ a key, config.solver.atoms.source a = some (.propagation key) →
        (∀ count, (config.solver.reduceBy count).2.store.get key = config.solver.store.get key) ∧
          config.solver.reduce.2.store.get key = config.solver.store.get key := by
  obtain ⟨exempt, invariant⟩ := reachable.good.exists_invariant
  have accounted := invariant.coherent.accounted
  refine ⟨accounted, accounted.isReason_iff, fun a key known => ?_⟩
  obtain ⟨c, live, rfl, -⟩ := accounted.reasons a key known
  rw [live]
  exact ⟨fun count => get_reduceBy invariant.coherent invariant.mirrors count live known,
    get_reduce invariant.coherent invariant.mirrors live known⟩

theorem clashing_accounted :
    Reachable cramped ⟨[[1, 2, 3], [-3, 1, 2]], .clash (.original 1), clashing⟩ ∧
      clashing.Accounted ∧ clashing.level = 2 ∧
      clashing.atoms.source 3 = some (.propagation (.original 0)) ∧
      clashing.store.isReason clashing.atoms.source (.original 0) = true ∧
      ∀ count, (clashing.reduceBy count).2.store.get (.original 0) =
        clashing.store.get (.original 0) := by
  have level : clashing.level = 2 := by
    rw [clashing, bothSigns_eq]
    decide +kernel
  have known : clashing.atoms.source 3 = some (.propagation (.original 0)) := by
    rw [clashing, bothSigns_eq]
    decide +kernel
  obtain ⟨accounted, isReason, kept⟩ := reachable_accounted clashing_reachable
  exact ⟨clashing_reachable, accounted, level, known, (isReason (.original 0)).2 ⟨3, known⟩,
    (kept 3 (.original 0) known).1⟩

end Solver

end ClauseLearning
