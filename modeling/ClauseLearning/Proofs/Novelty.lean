import ClauseLearning.Proofs.Soundness

/-!
What is learned is new. A clause below the level of a conflict has drawn its consequences, so one
whose literals are all false has both of its watches at that level, where a derived clause has a
single literal.
-/

namespace ClauseLearning

theorem Trail.WellFormed.lt_head {t : Trail} (wellFormed : t.WellFormed) {i : Nat}
    (below : t.levelAt i < t.level) : i < t.head := by
  by_contra outside
  have drawn : ∀ start ∈ t.starts, start ≤ i := fun start member =>
    (wellFormed.drawn start member).trans (Nat.le_of_not_lt outside)
  exact below.ne (Trail.levelAt_eq_level drawn)

/-- The literals of `d` are among those of `c`, but for those that are false at level zero. -/
def Solver.Subsumes (s : Solver) (d c : Clause) : Prop :=
  ∀ l ∈ d, l ∈ c ∨ s.literalValue l = some false ∧ s.atoms.level l.natAbs = some 0

namespace Derived

variable {s : Solver} {formula : List Clause} {exempt : ClauseKey → Prop} {l m : Literal}
  {rest d : Clause}

theorem false_of_mem (derived : Derived formula s.trail l rest) (member : m ∈ l :: rest) :
    ∃ i : Nat, s.trail.literals[i]? = some (-m) ∧ (s.trail.levelAt i < s.trail.level ∨ m = l) := by
  rcases List.mem_cons.1 member with rfl | inRest
  · obtain ⟨i, found, -⟩ := derived.current
    exact ⟨i, found, .inr rfl⟩
  · obtain ⟨i, found, -, below⟩ := derived.lower m inRest
    exact ⟨i, found, .inl below⟩

theorem false_of_subsumes (derived : Derived formula s.trail l rest) (agrees : s.atoms.Agrees s.trail)
    (subsumes : s.Subsumes d (l :: rest)) (member : m ∈ d) (nonzero : m ≠ 0) :
    ∃ i : Nat, s.trail.literals[i]? = some (-m) ∧ (s.trail.levelAt i < s.trail.level ∨ m = l) := by
  rcases subsumes m member with inside | ⟨isFalse, zero⟩
  · exact derived.false_of_mem inside
  · obtain ⟨i, found⟩ :=
      Array.getElem?_of_mem ((agrees.literalValue_eq_false_iff nonzero).1 isFalse)
    refine ⟨i, found, .inl ?_⟩
    rw [← Option.some.inj (zero.symm.trans (agrees.level_of_neg found))]
    exact derived.decided

theorem not_subsumes (derived : Derived formula s.trail l rest)
    (invariant : s.Invariant formula fun _ => False)
    (stored : d ∈ s.store.originalClauses ++ s.store.additionClauses) :
    ¬s.Subsumes d (l :: rest) := by
  intro subsumes
  have agrees := invariant.coherent.agrees
  rcases invariant.coherent.orderly.wellFormed.mem_stored.1 stored with
    ⟨u, rfl, unit⟩ | ⟨key, c, live, rfl⟩
  · have isTrue := invariant.grounded.unit_mem unit
    obtain ⟨i, found, -⟩ := derived.false_of_subsumes agrees subsumes List.mem_cons_self
      (agrees.nonzero isTrue)
    exact agrees.not_neg_mem isTrue (Array.mem_of_getElem? found)
  · have shaped := invariant.coherent.orderly.wellFormed.shaped key c live
    have isFalse {w : Literal} (watches : c.Watches w) :=
      derived.false_of_subsumes agrees subsumes (shaped.watches_mem watches)
        (shaped.known w (shaped.watches_mem watches)).1
    -- Were a watch false below the current level, the other would be true.
    have front {w o : Literal} (first : c.Watches w) (second : c.Watches o) (apart : w ≠ o) :
        w = l := by
      obtain ⟨i, found, below | front⟩ := isFalse first
      · obtain ⟨j, located, -⟩ := invariant.guarded key c live id w o first second apart i
          (invariant.coherent.trail.lt_head below) found
        obtain ⟨k, opposite, -⟩ := isFalse second
        exact absurd (Array.mem_of_getElem? opposite)
          (agrees.not_neg_mem (Array.mem_of_getElem? located))
      · exact front
    have apart := shaped.first_ne_second
    exact apart ((front (.inl rfl) (.inr rfl) apart).trans
      (front (.inr rfl) (.inl rfl) apart.symm).symm)

end Derived

namespace Solver

variable {s s' : Solver} {formula : List Clause} {key : ClauseKey} {c d : Clause} {n : Nat}

def Novel (s : Solver) (c : Clause) : Prop :=
  ∀ d ∈ s.store.originalClauses ++ s.store.additionClauses, ¬s.Subsumes d c

theorem Novel.of_assigned (novel : s.Novel c) (same : s.store.SameClauses s'.store)
    (kept : ∀ a assignment, s'.atoms.assignment? a = some assignment →
      s.atoms.assignment? a = some assignment) : s'.Novel c := by
  intro d stored subsumes
  have clauses : s'.store.originalClauses ++ s'.store.additionClauses =
      s.store.originalClauses ++ s.store.additionClauses := by
    simp only [ClauseStore.originalClauses, ClauseStore.additionClauses,
      ClauseStore.longAdditions, same.originalUnits, same.additionUnits, same.originals,
      same.additions]
  rw [clauses] at stored
  apply novel d stored
  intro l member
  refine (subsumes l member).imp_right ?_
  rintro ⟨isFalse, zero⟩
  simp only [literalValue, AtomTable.literalValue_eq, AtomTable.level_eq] at isFalse zero ⊢
  cases assigned : s'.atoms.assignment? l.natAbs with
  | none => simp [assigned] at zero
  | some assignment =>
    rw [kept _ _ assigned, ← assigned]
    exact ⟨isFalse, zero⟩

theorem Novel.congr (novel : s.Novel c) (same : s.Resembles s') : s'.Novel c :=
  novel.of_assigned same.clauses fun a _ assigned =>
    (same.assignments.assignment?_eq a).symm.trans assigned

theorem Novel.retreat (novel : s.Novel c) (retreats : s.Retreats s' n) : s'.Novel c := by
  apply novel.of_assigned
  · rw [store, store, retreats.clauses]
    exact .refl _
  · intro a assignment assigned
    rw [retreats.assigned] at assigned
    split at assigned
    · cases assigned
    · exact assigned

theorem Searching.derive_novel (searching : s.Searching formula)
    (conflicting : s.Conflicting key) (decided : s.trail.hasDecision = true) :
    ∃ c s', s.derive key = (.ok c, s') ∧ s.Resembles s' ∧ s.Novel c := by
  have invariant := searching.invariant
  obtain ⟨l, rest, s', answer, same, -, derived⟩ :=
    derive_spec conflicting invariant.coherent invariant.entailed (Trail.hasDecision_iff.1 decided)
  exact ⟨l :: rest, s', answer, same, fun d stored => derived.not_subsumes invariant stored⟩

def Config.Fresh (config : Config) : Prop :=
  match config.stage with
  | .derived c | .retreated c _ => config.solver.Novel c
  | _ => True

theorem Step.fresh {before after : Config} (step : Step before after)
    (good : before.solver.Good before.accepted before.stage) (fresh : Config.Fresh before) :
    Config.Fresh after := by
  cases step with
  | outside => exact fresh
  | listen => exact fresh
  | derive decided answer =>
    obtain ⟨c', s'', ended, same, novel⟩ := good.1.derive_novel good.2 decided
    cases answer.symm.trans ended
    exact novel.congr (same.trans (rewardAtoms_resembles ..).1)
  | retreatUnit s l =>
    exact Novel.retreat fresh (backjump_retreats good.1.invariant.coherent.aligned 0)
  | @retreat accepted s s' l m rest level answer =>
    obtain ⟨searching, l', rest', shape, derived⟩ := good
    cases shape
    obtain ⟨i, -, -, ended⟩ := searching.invariant.assertionLevel_eq derived
    cases answer.symm.trans ended
    exact Novel.retreat fresh (backjump_retreats searching.invariant.coherent.aligned _)
  | _ => trivial

theorem Reachable.fresh {settings : Settings} {config : Config}
    (reachable : Reachable settings config) : Config.Fresh config := by
  induction reachable with
  | refl => trivial
  | tail steps step ih => exact step.fresh (Reachable.good steps) ih

theorem Novel.not_subset (novel : s.Novel c)
    (stored : d ∈ s.store.originalClauses ++ s.store.additionClauses) : ¬d ⊆ c :=
  fun subset => novel d stored fun _ member => .inl (subset member)

/-- What is derived from a conflict, and what is learned from it, is subsumed by no clause that is
stored then. -/
theorem reachable_novel {settings : Settings} {config : Config}
    (reachable : Reachable settings config) :
    (∀ key, config.stage = .clash key → config.solver.trail.hasDecision = true →
        ∃ c s', config.solver.derive key = (.ok c, s') ∧ config.solver.Novel c) ∧
      ∀ c blockDistance, config.stage = .retreated c blockDistance →
        config.solver.Novel c ∧
          ∀ d ∈ config.solver.store.originalClauses ++ config.solver.store.additionClauses,
            ¬d ⊆ c := by
  obtain ⟨accepted, stage, s⟩ := config
  constructor
  · rintro key rfl decided
    have good : s.Good accepted (.clash key) := reachable.good
    obtain ⟨c, s', answer, -, novel⟩ := good.1.derive_novel good.2 decided
    exact ⟨c, s', answer, novel⟩
  · rintro c blockDistance rfl
    have novel : s.Novel c := reachable.fresh
    exact ⟨novel, fun d stored => novel.not_subset stored⟩

theorem clashing_novel :
    (clashing.derive (.original 1)).1 = .ok [2, 1] ∧ clashing.Novel [2, 1] ∧
      ∃ s blockDistance,
        Reachable cramped ⟨[[1, 2, 3], [-3, 1, 2]], .retreated [2, 1] blockDistance, s⟩ ∧
          s.Novel [2, 1] := by
  have derived : (clashing.derive (.original 1)).1 = .ok [2, 1] := by
    rw [clashing, bothSigns_eq]
    decide +kernel
  have decided : clashing.trail.hasDecision = true := by
    rw [clashing, bothSigns_eq]
    decide +kernel
  have level : (((clashing.derive (.original 1)).2.rewardAtoms [2, 1]).assertionLevel [2, 1]).1 =
      .ok 1 := by
    rw [clashing, bothSigns_eq]
    decide +kernel
  obtain ⟨c, s', answer, novel⟩ := (reachable_novel clashing_reachable).1 _ rfl decided
  obtain rfl := Except.ok.inj ((congrArg Prod.fst answer).symm.trans derived)
  have retreated := (clashing_reachable.tail (.derive decided (Prod.ext derived rfl))).tail
    (.retreat (Prod.ext level rfl))
  exact ⟨derived, novel, _, _, retreated, ((reachable_novel retreated).2 _ _ rfl).1⟩

end Solver

end ClauseLearning
