import ClauseLearning.Proofs.Run

namespace ClauseLearning.Solver

variable {s s' : Solver} {formula : List Clause}

/-- Unit propagation implies no literal along with its negation, and refutes no stored clause. -/
def Unconflicted (s : Solver) : Prop :=
  (∀ l, s.Implied l → ¬s.Implied (-l)) ∧
    ∀ c ∈ s.store.originalClauses ++ s.store.additionClauses, ∃ l ∈ c, ¬s.Implied (-l)

section Quiet

variable {key : ClauseKey} {c : WatchedClause} (watched : s.Watched)
  (quiet : s.trail.head = s.trail.literals.size) (live : s.clauses.store.get key = .ok c)
include watched quiet live

theorem Watched.mem_of_others_false {l : Literal}
    (others : ∀ m ∈ c.clause, m ≠ l → -m ∈ s.trail.literals) : l ∈ s.trail.literals := by
  have shaped := watched.coherent.orderly.wellFormed.shaped key c live
  have guards := watched.guarded key c live id
  rw [quiet] at guards
  by_cases front : c.first = l
  · have second := others c.second shaped.second_mem fun same =>
      shaped.first_ne_second (front.trans same.symm)
    rw [← front]
    exact guards.mem_of_neg_mem (.inr rfl) (.inl rfl) shaped.first_ne_second.symm second
  · have first := others c.first shaped.first_mem front
    have isTrue : c.second ∈ s.trail.literals :=
      guards.mem_of_neg_mem (.inl rfl) (.inr rfl) shaped.first_ne_second first
    by_cases behind : c.second = l
    · rwa [← behind]
    · have isFalse := others c.second shaped.second_mem behind
      exact absurd isFalse (watched.coherent.agrees.not_neg_mem isTrue)

theorem Watched.not_all_false : ∃ l ∈ c.clause, -l ∉ s.trail.literals := by
  have shaped := watched.coherent.orderly.wellFormed.shaped key c live
  by_contra allFalse
  have isFalse (m : Literal) (member : m ∈ c.clause) : -m ∈ s.trail.literals := by
    by_contra kept
    exact allFalse ⟨m, member, kept⟩
  have isTrue : c.first ∈ s.trail.literals :=
    watched.mem_of_others_false quiet live fun m member _ => isFalse m member
  exact watched.coherent.agrees.not_neg_mem isTrue (isFalse c.first shaped.first_mem)

end Quiet

theorem Draws.mem_iff_implied (draws : s.Draws s') (coherent : s.Coherent) (watched : s'.Watched)
    (quiet : s'.trail.head = s'.trail.literals.size) (l : Literal) :
    l ∈ s'.trail.literals ↔ s.Implied l := by
  constructor
  · intro member
    exact draws.implied l member
  · intro implied
    -- On how the literal is implied; the clause of the last step has moved on, but is watched.
    induction implied with
    | given member =>
      obtain ⟨i, found⟩ := Array.getElem?_of_mem (Array.mem_toList_iff.1 member)
      exact Array.mem_of_getElem? (draws.extends_trail.getElem?_eq_some found)
    | unit member literal others ih =>
      obtain ⟨d, stored, rfl⟩ := List.mem_map.1 member
      have before := coherent.orderly.wellFormed.mem_longClauses.1 stored
      obtain ⟨d', live, perm⟩ := draws.rearranged.forth d.key d before
      apply watched.mem_of_others_false quiet live
      intro m inside apart
      exact ih m (perm.mem_iff.1 inside) apart

theorem Grounded.unit_mem (grounded : s.Grounded fun _ => False) {l : Literal}
    (unit : l ∈ s.clauses.store.originalUnits ∨ l ∈ s.clauses.store.additionUnits) :
    l ∈ s.trail.literals := by
  cases unit with
  | inl original =>
    obtain ⟨i, found, -⟩ := grounded.originalUnits l original id
    exact Array.mem_of_getElem? found
  | inr addition =>
    obtain ⟨i, found, -⟩ := grounded.additionUnits l addition id
    exact Array.mem_of_getElem? found

theorem Draws.unconflicted (draws : s.Draws s') (invariant : s.Invariant formula fun _ => False)
    (watched : s'.Watched) (quiet : s'.trail.head = s'.trail.literals.size) : s.Unconflicted := by
  have agrees := watched.coherent.agrees
  have drawn := draws.mem_iff_implied invariant.coherent watched quiet
  constructor
  · intro l implied opposite
    exact agrees.not_neg_mem ((drawn l).2 implied) ((drawn (-l)).2 opposite)
  · intro c stored
    rcases invariant.coherent.orderly.wellFormed.mem_stored.1 stored with
      ⟨l, rfl, unit⟩ | ⟨key, d, before, rfl⟩
    · refine ⟨l, List.mem_cons_self, fun opposite => ?_⟩
      have isTrue := (invariant.grounded.draw draws).unit_mem (l := l)
        (draws.rearranged.originalUnits ▸ draws.rearranged.additionUnits ▸ unit)
      exact agrees.not_neg_mem isTrue ((drawn (-l)).2 opposite)
    · obtain ⟨d', live, perm⟩ := draws.rearranged.forth key d before
      obtain ⟨l, literal, kept⟩ := watched.not_all_false quiet live
      exact ⟨l, perm.mem_iff.1 literal, fun opposite => kept ((drawn (-l)).2 opposite)⟩

theorem Draws.conflicted (draws : s.Draws s') (coherent : s.Coherent) {key : ClauseKey}
    (conflicting : s'.Conflicting key) : ¬s.Unconflicted := by
  intro unconflicted
  obtain ⟨c', live, isFalse, -⟩ := conflicting
  obtain ⟨c, before, perm⟩ := draws.rearranged.back key c' live
  have stored := coherent.orderly.wellFormed.mem_stored.2 (.inr ⟨key, c, before, rfl⟩)
  obtain ⟨l, literal, kept⟩ := unconflicted.2 c.clause stored
  exact kept (draws.implied (-l) (isFalse l (perm.mem_iff.2 literal)))

/-- From `s` the answer is `result`, and the state `s'`, that unit propagation leads to. -/
structure UnitPropagates (s : Solver) (result : Except Failure Propagated) (s' : Solver) : Prop where
  complete_iff : result = .ok .complete ↔ s.Unconflicted
  closed : result = .ok .complete →
    s'.trail.literals.toList.Nodup ∧ ∀ l, l ∈ s'.trail.literals ↔ s.Implied l
  conflict : result ≠ .ok .complete → ∃ key c, result = .ok (.conflict key) ∧
    s'.store.get key = .ok c ∧ ∀ l ∈ c.clause, s'.literalValue l = some false
  level : s'.level = s.level
  starts : s'.trail.starts = s.trail.starts
  earlier : ∀ (i : Nat) l, s.trail.literals[i]? = some l →
    s'.trail.literals[i]? = some l ∧ s'.trail.levelAt i = s.trail.levelAt i

theorem Invariant.propagate (invariant : s.Invariant formula fun _ => False) :
    s.UnitPropagates s.propagate.1 s.propagate.2 := by
  obtain ⟨s', draws, watched, ended⟩ := propagate_spec invariant.watched
  have agrees := watched.coherent.agrees
  have earlier (i : Nat) (l : Literal) (found : s.trail.literals[i]? = some l) :
      s'.trail.literals[i]? = some l ∧ s'.trail.levelAt i = s.trail.levelAt i :=
    ⟨draws.extends_trail.getElem?_eq_some found, draws.extends_trail.levelAt_eq found⟩
  rcases ended with ⟨answer, quiet⟩ | ⟨key, answer, conflicting⟩
  · rw [answer]
    refine ⟨?_, ?_, ?_, draws.level, draws.starts, earlier⟩
    · exact iff_of_true rfl (draws.unconflicted invariant watched quiet)
    · intro _
      exact ⟨agrees.nodup, draws.mem_iff_implied invariant.coherent watched quiet⟩
    · intro incomplete
      exact (incomplete rfl).elim
  · rw [answer]
    have incomplete : (.ok (.conflict key) : Except Failure Propagated) ≠ .ok .complete := by
      intro complete
      cases complete
    refine ⟨?_, ?_, ?_, draws.level, draws.starts, earlier⟩
    · exact iff_of_false incomplete (draws.conflicted invariant.coherent conflicting)
    · intro complete
      exact (incomplete complete).elim
    · intro _
      obtain ⟨c, live, isFalse, -⟩ := conflicting
      exact ⟨key, c, rfl, live, fun l member => agrees.literalValue_of_neg_mem (isFalse l member)⟩

/-- Whenever a run draws consequences, what comes of it is what unit propagation leads to. -/
theorem propagate_unitPropagates {settings : Settings} {accepted : List Clause}
    (reachable : Reachable settings ⟨accepted, .drawing, s⟩) :
    s.UnitPropagates s.propagate.1 s.propagate.2 := by
  have searching : s.Searching accepted := reachable.good
  exact searching.invariant.propagate

theorem propagate_twoClauses :
    twoClauses.start.propagate.1 = .ok .complete ∧
      twoClauses.start.propagate.2.trail.literals = #[-1, 2] ∧
      ∀ l, l ∈ (#[-1, 2] : Array Literal) ↔ twoClauses.start.Implied l := by
  have complete : twoClauses.start.propagate.1 = .ok .complete := by
    rw [twoClauses, addClause_of_normal _ normalise_pair]
    decide +kernel
  have trail : twoClauses.start.propagate.2.trail.literals = #[-1, 2] := by
    rw [twoClauses, addClause_of_normal _ normalise_pair]
    decide +kernel
  have closed := ((propagate_unitPropagates twoClauses_start_reachable).closed complete).2
  rw [trail] at closed
  exact ⟨complete, trail, closed⟩

end ClauseLearning.Solver
