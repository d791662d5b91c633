import ClauseLearning.Proofs.Progress

/-!
The graph behind a conflict. Its vertices are the literals of the current level and the conflict,
and each edge goes from a literal to what it made a clause imply. A literal dominates the conflict
if every way from the decision to the conflict goes through it. Resolution ends with such a literal,
and with the last of them on the trail: the resolved literals can be reached through it alone, while
each of them was passed by some way, since there always was another literal to resolve with.
-/

namespace ClauseLearning

inductive Vertex where
  | literal (l : Literal)
  | conflict

def Vertex.At (t : Trail) (qualifies : Nat → Prop) : Vertex → Prop
  | .literal l => ∃ i, qualifies i ∧ t.literals[i]? = some l
  | .conflict => True

theorem Vertex.At.mono {t : Trail} {p q : Nat → Prop} {v : Vertex} (placed : v.At t p)
    (implies : ∀ i, p i → q i) : v.At t q := by
  cases v with
  | literal l =>
    obtain ⟨i, holds, found⟩ := placed
    exact ⟨i, implies i holds, found⟩
  | conflict => trivial

namespace Solver

variable {s t t' : Solver} {formula : List Clause} {key : ClauseKey} {l m u w : Literal}
  {i j k n : Nat} {c : WatchedClause}

def IsCurrent (s : Solver) (l : Literal) : Prop :=
  l ∈ s.trail.literals ∧ s.atoms.level l.natAbs = some s.level

structure IsDecision (s : Solver) (l : Literal) : Prop where
  current : s.IsCurrent l
  decided : s.atoms.source l.natAbs = some .decision

/-- A literal of the current level leads to another whose reason has its opposite, and to the
conflict if it makes a literal of that clause false. -/
inductive Leads (s : Solver) (key : ClauseKey) : Vertex → Vertex → Prop
  | implied {l m : Literal} {reason : ClauseKey} {c : WatchedClause} (current : s.IsCurrent l)
      (isImplied : s.IsCurrent m) (source : s.atoms.source m.natAbs = some (.propagation reason))
      (live : s.store.get reason = .ok c) (antecedent : -l ∈ c.clause) :
      Leads s key (.literal l) (.literal m)
  | falsified {l : Literal} {c : WatchedClause} (current : s.IsCurrent l)
      (live : s.store.get key = .ok c) (antecedent : -l ∈ c.clause) :
      Leads s key (.literal l) .conflict

structure Path (s : Solver) (key : ClauseKey) (l : Literal) (path : List Vertex) : Prop where
  chain : path.IsChain (s.Leads key)
  head : path.head? = some (.literal l)
  last : path.getLast? = some .conflict

/-- Every path from the decision to the conflict goes through the literal. -/
def Dominates (s : Solver) (key : ClauseKey) (u : Literal) : Prop :=
  ∀ d path, s.IsDecision d → s.Path key d path → .literal u ∈ path

theorem Coherent.isCurrent_iff (coherent : s.Coherent) : s.IsCurrent l ↔
    ∃ i : Nat, s.trail.literals[i]? = some l ∧ s.trail.levelAt i = s.trail.level := by
  constructor
  · rintro ⟨member, level⟩
    obtain ⟨i, found⟩ := Array.getElem?_of_mem member
    rw [coherent.agrees.level_of_getElem? found] at level
    exact ⟨i, found, Option.some.inj level⟩
  · rintro ⟨i, found, level⟩
    refine ⟨Array.mem_of_getElem? found, ?_⟩
    rw [coherent.agrees.level_of_getElem? found, level]
    rfl

abbrev Reaches (s : Solver) (key : ClauseKey) (via : Vertex → Prop) : Vertex → Vertex → Prop :=
  Relation.ReflTransGen fun v w => s.Leads key v w ∧ via w

theorem Reaches.mono {via via' : Vertex → Prop} {v w : Vertex} (reaches : s.Reaches key via v w)
    (more : ∀ x, via x → via' x) : s.Reaches key via' v w :=
  Relation.ReflTransGen.mono (fun _ _ edge => ⟨edge.1, more _ edge.2⟩) _ _ reaches

theorem Reaches.exists_path {via : Vertex → Prop}
    (reaches : s.Reaches key via (.literal l) .conflict) :
    ∃ rest, s.Path key l (.literal l :: rest) ∧ ∀ v ∈ rest, via v := by
  suffices ∀ v, s.Reaches key via v .conflict →
      ∃ rest, (v :: rest).IsChain (s.Leads key) ∧ (v :: rest).getLast? = some .conflict ∧
        ∀ w ∈ rest, via w by
    obtain ⟨rest, chain, last, inside⟩ := this _ reaches
    exact ⟨rest, ⟨chain, rfl, last⟩, inside⟩
  intro v reaches
  induction reaches using Relation.ReflTransGen.head_induction_on with
  | refl => exact ⟨[], .singleton _, rfl, fun _ member => nomatch member⟩
  | head edge _ ih =>
    obtain ⟨rest, chain, last, inside⟩ := ih
    exact ⟨_ :: rest, .cons_cons edge.1 chain, by rwa [List.getLast?_cons_cons],
      List.forall_mem_cons.2 ⟨edge.2, inside⟩⟩

theorem Coherent.follows (coherent : s.Coherent) (decided : 0 < s.trail.level) (key : ClauseKey)
    (found : s.trail.literals[i]? = some l) (current : s.trail.levelAt i = s.trail.level) :
    ∃ d, ∃ j ≤ i, s.trail.literals[j]? = some d ∧ s.IsDecision d ∧
      s.Reaches key (Vertex.At s.trail (· ≤ i)) (.literal d) (.literal l) := by
  induction i using Nat.strong_induction_on generalizing l with
  | _ i ih =>
    have isCurrent : s.IsCurrent l := coherent.isCurrent_iff.2 ⟨i, found, current⟩
    obtain ⟨source, known, justifies⟩ := coherent.justified i l found
    cases source with
    | decision => exact ⟨l, i, le_rfl, found, ⟨isCurrent, known⟩, .refl⟩
    | unit key => exact absurd (current.symm.trans justifies.2) decided.ne'
    | propagation reason =>
      obtain ⟨-, c, live, implies⟩ := justifies
      obtain ⟨m, inClause, j, before, located, level⟩ := implies.latest
      obtain ⟨d, k, le, atDecision, isDecision, follows⟩ :=
        ih j before located (level.trans current)
      refine ⟨d, k, le.trans before.le, atDecision, isDecision, .tail
        (Reaches.mono follows fun v placed => placed.mono fun _ le => le.trans before.le)
        ⟨.implied ?_ isCurrent known live ?_, i, le_rfl, found⟩⟩
      · exact coherent.isCurrent_iff.2 ⟨j, located, level.trans current⟩
      · rwa [Int.neg_neg]

theorem Coherent.ne_of_at (coherent : s.Coherent) {p : Nat → Prop} {v : Vertex}
    (placed : v.At s.trail p) (located : s.trail.literals[j]? = some w) (other : ¬p j) :
    v ≠ .literal w := by
  rintro rfl
  obtain ⟨i, holds, found⟩ := placed
  obtain rfl := coherent.agrees.distinct i j w w found located rfl
  exact other holds

/-- What leads to a resolved literal or to the conflict was merged, and no resolved literal is a
decision. -/
structure Cut (s : Solver) (key : ClauseKey) (b : ResolutionBuffer) (n : Nat) : Prop where
  merged : ∀ l v, s.Leads key (.literal l) v →
    v.At s.trail (fun i => n ≤ i ∧ b.isOpenAt s.trail i = true) → b.isMerged l.natAbs = true
  implied : ∀ i l, n ≤ i → s.trail.literals[i]? = some l → b.isOpenAt s.trail i = true →
    s.atoms.source l.natAbs ≠ some .decision

def Pends (s : Solver) (key : ClauseKey) (b : ResolutionBuffer) (n : Nat) : Prop :=
  ∀ i < n, ∀ l, s.trail.literals[i]? = some l → b.isOpenAt s.trail i = true →
    s.Reaches key (Vertex.At s.trail (n ≤ ·)) (.literal l) .conflict

theorem Leads.isCurrent {v : Vertex} (edge : s.Leads key (.literal l) v) : s.IsCurrent l := by
  cases edge <;> assumption

theorem Coherent.isMerged (coherent : s.Coherent) (decided : 0 < s.trail.level)
    {b b' : ResolutionBuffer} (merges : b.Merges b' s.trail c.clause) (current : s.IsCurrent l)
    (antecedent : -l ∈ c.clause) : b'.isMerged l.natAbs = true := by
  obtain ⟨i, found, level⟩ := coherent.isCurrent_iff.1 current
  rw [← Int.natAbs_neg]
  refine (merges.covered (-l) antecedent).resolve_right ?_
  rintro ⟨j, located, zero⟩
  rw [Int.neg_neg] at located
  obtain rfl := coherent.agrees.distinct i j l l found located rfl
  exact decided.ne' (level.symm.trans zero)

theorem Coherent.position_of_implies (coherent : s.Coherent)
    (found : s.trail.literals[n]? = some m) (implies : s.trail.Implies n c m)
    (located : s.trail.literals[i]? = some l) :
    (l ∈ c.clause → i = n) ∧ (-l ∈ c.clause → i < n) := by
  have agrees := coherent.agrees
  constructor
  · intro member
    by_cases same : l = m
    · exact agrees.distinct i n l m located found (congrArg Int.natAbs same)
    · obtain ⟨j, -, opposite⟩ := implies.earlier l member same
      exact absurd (Array.mem_of_getElem? opposite)
        (agrees.not_neg_mem (Array.mem_of_getElem? located))
  · intro member
    have other : -l ≠ m := by
      rintro rfl
      exact agrees.not_neg_mem (Array.mem_of_getElem? located) (Array.mem_of_getElem? found)
    obtain ⟨j, before, same⟩ := implies.earlier (-l) member other
    rw [Int.neg_neg] at same
    obtain rfl := agrees.distinct i j l l located same rfl
    exact before

section Merged

variable {b b' : ResolutionBuffer} {reason : ClauseKey}

theorem Cut.start (coherent : s.Coherent) (decided : 0 < s.trail.level)
    (live : s.store.get key = .ok c) (merges : b.Merges b' s.trail c.clause) :
    s.Cut key b' s.trail.literals.size where
  merged l v edge resolved := by
    cases edge with
    | implied _ _ _ _ _ =>
      obtain ⟨i, ⟨le, -⟩, found⟩ := resolved
      exact absurd (Array.getElem?_eq_some_iff.1 found).1 (Nat.not_lt.2 le)
    | falsified current live' antecedent =>
      obtain rfl := Except.ok.inj (live.symm.trans live')
      exact coherent.isMerged decided merges current antecedent
  implied i l le found := absurd (Array.getElem?_eq_some_iff.1 found).1 (Nat.not_lt.2 le)

theorem Cut.skip (cut : s.Cut key b (n + 1)) (closed : ¬b.isOpenAt s.trail n = true) :
    s.Cut key b n := by
  have passed {i : Nat} (le : n ≤ i) (isOpen : b.isOpenAt s.trail i = true) : n + 1 ≤ i :=
    le.lt_of_ne fun same => closed (same ▸ isOpen)
  exact ⟨fun l v edge resolved => cut.merged l v edge
    (resolved.mono fun i ⟨le, isOpen⟩ => ⟨passed le isOpen, isOpen⟩),
    fun i l le found isOpen => cut.implied i l (passed le isOpen) found isOpen⟩

theorem Cut.resolve (coherent : s.Coherent) (decided : 0 < s.trail.level)
    (cut : s.Cut key b (n + 1)) (found : s.trail.literals[n]? = some m)
    (known : s.atoms.source m.natAbs = some (.propagation reason))
    (live : s.store.get reason = .ok c) (implies : s.trail.Implies n c m)
    (merges : b.Merges b' s.trail c.clause) : s.Cut key b' n := by
  -- What is merged with a reason comes before the literal resolved on.
  have passed {i : Nat} {l : Literal} (located : s.trail.literals[i]? = some l) (le : n ≤ i)
      (other : n ≠ i) (isOpen : b'.isOpenAt s.trail i = true) :
      n + 1 ≤ i ∧ b.isOpenAt s.trail i = true := by
    obtain ⟨same, before⟩ := coherent.position_of_implies found implies located
    refine ⟨le.lt_of_ne other, (merges.isOpenAt_or located isOpen).resolve_right ?_⟩
    rintro (member | member)
    · exact other (same member).symm
    · exact absurd (before member) (Nat.not_lt.2 le)
  constructor
  · intro l v edge resolved
    cases v with
    | conflict => exact merges.kept _ (cut.merged l _ edge trivial)
    | literal o =>
      obtain ⟨i, ⟨le, isOpen⟩, located⟩ := resolved
      by_cases last : n = i
      · subst last
        obtain rfl := Option.some.inj (found.symm.trans located)
        cases edge with
        | implied current _ source live' antecedent =>
          cases known.symm.trans source
          cases live.symm.trans live'
          exact coherent.isMerged decided merges current antecedent
      · exact merges.kept _ (cut.merged l _ edge ⟨i, passed located le last isOpen, located⟩)
  · intro i l le located isOpen
    by_cases last : n = i
    · subst last
      obtain rfl := Option.some.inj (found.symm.trans located)
      rw [known]
      simp
    · obtain ⟨behind, before⟩ := passed located le last isOpen
      exact cut.implied i l behind located before

/-- Once no other literal is pending, a path which misses the last would be all of resolved
literals, and so would its start. -/
theorem Cut.dominates (coherent : s.Coherent) (cut : s.Cut key b (n + 1))
    (found : s.trail.literals[n]? = some u)
    (last : ∀ i < n, ¬b.isOpenAt s.trail i = true) : s.Dominates key u := by
  intro d path decision way
  by_contra absent
  have resolved := (List.IsChain.iff_mem.1 way.chain).backwards_induction
    (fun v => v.At s.trail fun i => n + 1 ≤ i ∧ b.isOpenAt s.trail i = true) path ?_ ?_
  · obtain ⟨i, ⟨le, isOpen⟩, located⟩ := resolved _ (List.mem_of_mem_head? way.head)
    exact cut.implied i d le located isOpen decision.decided
  · rintro v w ⟨member, -, edge⟩ placed
    cases v with
    | conflict => trivial
    | literal l =>
      obtain ⟨i, located, level⟩ := coherent.isCurrent_iff.1 edge.isCurrent
      have isOpen := (ResolutionBuffer.isOpenAt_iff located).2 ⟨level, cut.merged l w edge placed⟩
      refine ⟨i, ⟨?_, isOpen⟩, located⟩
      rcases Nat.lt_trichotomy i n with before | rfl | behind
      · exact absurd isOpen (last i before)
      · obtain rfl := Option.some.inj (found.symm.trans located)
        exact absurd member absent
      · exact behind
  · intro nonempty
    rw [(List.getLast_eq_iff_getLast?_eq_some nonempty).2 way.last]
    trivial

theorem Pends.start (coherent : s.Coherent) (live : s.store.get key = .ok c)
    (false : ∀ m ∈ c.clause, -m ∈ s.trail.literals)
    (fresh : ∀ i, ¬b.isOpenAt s.trail i = true) (merges : b.Merges b' s.trail c.clause) :
    s.Pends key b' s.trail.literals.size := by
  intro i _ l found isOpen
  have opposite : -l ∈ c.clause := by
    refine ((merges.isOpenAt_or found isOpen).resolve_left (fresh i)).resolve_left fun member => ?_
    exact coherent.agrees.not_neg_mem (Array.mem_of_getElem? found) (false l member)
  have level := ((ResolutionBuffer.isOpenAt_iff found).1 isOpen).1
  exact .single ⟨.falsified (coherent.isCurrent_iff.2 ⟨i, found, level⟩) live opposite, trivial⟩

theorem Pends.skip (pends : s.Pends key b (n + 1)) : s.Pends key b n :=
  fun i before l found isOpen => Reaches.mono (pends i (Nat.lt_succ_of_lt before) l found isOpen)
    fun _ placed => placed.mono fun _ => Nat.le_of_succ_le

theorem Pends.resolve (coherent : s.Coherent) (pends : s.Pends key b (n + 1))
    (found : s.trail.literals[n]? = some m) (isOpen : b.isOpenAt s.trail n = true)
    (known : s.atoms.source m.natAbs = some (.propagation reason))
    (live : s.store.get reason = .ok c) (implies : s.trail.Implies n c m)
    (merges : b.Merges b' s.trail c.clause) : s.Pends key b' n := by
  intro i before l located isOpen'
  rcases merges.isOpenAt_or located isOpen' with old | member | member
  · exact pends.skip i before l located old
  · exact absurd ((coherent.position_of_implies found implies located).1 member) before.ne
  · have current := ((ResolutionBuffer.isOpenAt_iff located).1 isOpen').1
    have current' := ((ResolutionBuffer.isOpenAt_iff found).1 isOpen).1
    have edge : s.Leads key (.literal l) (.literal m) :=
      .implied (coherent.isCurrent_iff.2 ⟨i, located, current⟩)
        (coherent.isCurrent_iff.2 ⟨n, found, current'⟩) known live member
    refine .head ⟨edge, n, le_rfl, found⟩ ?_
    exact Reaches.mono (pends n (Nat.lt_succ_self n) m found isOpen)
      fun _ placed => placed.mono fun _ => Nat.le_of_succ_le

end Merged

theorem Retraces.dominates (way : Retraces formula n t i u t') (same : s.Resembles t)
    (coherent : s.Coherent) (decided : 0 < s.trail.level) (cut : s.Cut key t.buffer n) :
    s.Dominates key u := by
  induction way with
  | finish resolving found isOpen last =>
    rw [same.trail] at found last
    exact cut.dominates coherent found last
  | skip resolving closed other rest ih =>
    rw [same.trail] at closed
    exact ih same (cut.skip closed)
  | resolve resolving found isOpen other known live implies same' merges rest ih =>
    rw [same.trail] at found implies merges
    rw [same.assignments.source] at known
    rw [same.clauses.get_eq] at live
    exact ih (same.trans same') (cut.resolve coherent decided found known live implies merges)

theorem Retraces.passes (way : Retraces formula n t i u t') (same : s.Resembles t)
    (pends : s.Pends key t.buffer n) (coherent : s.Coherent) (le : n ≤ s.trail.literals.size)
    (behind : i < j) (inside : j < n) :
    ∃ k < j, ∃ l, s.trail.literals[k]? = some l ∧ s.trail.levelAt k = s.trail.level ∧
      s.Reaches key (Vertex.At s.trail (j < ·)) (.literal l) .conflict := by
  have passed {b : ResolutionBuffer} {n : Nat} (pends : s.Pends key b (n + 1))
      (le : n ≤ s.trail.literals.size)
      (other : ∃ k < n, b.isOpenAt s.trail k = true) :
      ∃ k < n, ∃ l, s.trail.literals[k]? = some l ∧ s.trail.levelAt k = s.trail.level ∧
        s.Reaches key (Vertex.At s.trail (n < ·)) (.literal l) .conflict := by
    obtain ⟨k, before, isOpen⟩ := other
    have found := Array.getElem?_eq_getElem (before.trans_le le)
    exact ⟨k, before, _, found, ((ResolutionBuffer.isOpenAt_iff found).1 isOpen).1,
      pends k (Nat.lt_succ_of_lt before) _ found isOpen⟩
  induction way with
  | finish => omega
  | skip resolving closed other rest ih =>
    rw [same.trail] at other
    rcases Nat.lt_succ_iff_lt_or_eq.1 inside with earlier | rfl
    · exact ih same pends.skip (Nat.le_of_succ_le le) behind earlier
    · exact passed pends (Nat.le_of_succ_le le) other
  | resolve resolving found isOpen other known live implies same' merges rest ih =>
    rw [same.trail] at found isOpen other implies merges
    rw [same.assignments.source] at known
    rw [same.clauses.get_eq] at live
    rcases Nat.lt_succ_iff_lt_or_eq.1 inside with earlier | rfl
    · exact ih (same.trans same') (pends.resolve coherent found isOpen known live implies merges)
        (Nat.le_of_succ_le le) behind earlier
    · exact passed pends (Nat.le_of_succ_le le) other

theorem Coherent.not_dominates (coherent : s.Coherent) (decided : 0 < s.trail.level)
    (located : s.trail.literals[j]? = some w) (before : k < j)
    (found : s.trail.literals[k]? = some l) (level : s.trail.levelAt k = s.trail.level)
    (leads : s.Reaches key (Vertex.At s.trail (j < ·)) (.literal l) .conflict) :
    ¬s.Dominates key w := by
  intro dominates
  obtain ⟨d, i, le, atDecision, decision, follows⟩ := coherent.follows decided key found level
  have first : s.Reaches key (· ≠ .literal w) (.literal d) (.literal l) :=
    Reaches.mono follows fun v placed => coherent.ne_of_at placed located (Nat.not_le.2 before)
  have second : s.Reaches key (· ≠ .literal w) (.literal l) .conflict :=
    Reaches.mono leads fun v placed => coherent.ne_of_at placed located (Nat.lt_irrefl j)
  obtain ⟨rest, path, others⟩ := Reaches.exists_path (first.trans second)
  rcases List.mem_cons.1 (dominates d _ decision path) with same | member
  · cases same
    have := coherent.agrees.distinct i j w w atDecision located rfl
    omega
  · exact others _ member rfl

theorem Conflicting.exists_path (conflicting : s.Conflicting key) (coherent : s.Coherent)
    (decided : 0 < s.trail.level) : ∃ d path, s.IsDecision d ∧ s.Path key d path := by
  obtain ⟨c, live, -, m, member, i, found, level⟩ := conflicting
  obtain ⟨d, -, -, -, decision, follows⟩ := coherent.follows decided key found level
  have edge : s.Leads key (.literal (-m)) .conflict :=
    .falsified (coherent.isCurrent_iff.2 ⟨i, found, level⟩) live (by rwa [Int.neg_neg])
  obtain ⟨rest, path, -⟩ := Reaches.exists_path (follows.tail ⟨edge, trivial⟩)
  exact ⟨d, _, decision, path⟩

/-- What is derived from a conflict above level zero asserts the opposite of a literal that
dominates the conflict, while none behind it on the trail does. -/
theorem reachable_dominates {settings : Settings} {config : Config}
    (reachable : Reachable settings config) (clash : config.stage = .clash key)
    (decided : 0 < config.solver.level) :
    (∃ d path, config.solver.IsDecision d ∧ config.solver.Path key d path) ∧
      ∃ u rest, ∃ i : Nat, (config.solver.derive key).1 = .ok (-u :: rest) ∧
        config.solver.trail.literals[i]? = some u ∧ config.solver.IsCurrent u ∧
        config.solver.Dominates key u ∧
        ∀ (j : Nat) w, i < j → config.solver.trail.literals[j]? = some w →
          ¬config.solver.Dominates key w := by
  obtain ⟨accepted, stage, s⟩ := config
  obtain rfl : stage = .clash key := clash
  have good : s.Good accepted (.clash key) := reachable.good
  have coherent := good.1.invariant.coherent
  refine ⟨good.2.exists_path coherent decided, ?_⟩
  obtain ⟨s₁, merged, same, resolving, isOpen, c, live, false, merges⟩ :=
    good.2.resolving coherent good.1.invariant.entailed decided
  rw [← same.trail] at resolving
  obtain ⟨i, u, s₂, resolved, way⟩ :=
    resolving.retraces (Nat.le_refl _) isOpen (same.trail ▸ decided)
  obtain ⟨rest, derived, -⟩ := derive_of_resolved merged same.trail resolved
  obtain ⟨-, -, found, current, -⟩ := way.spec
  rw [same.trail] at way found current
  refine ⟨u, rest, i, congrArg Prod.fst derived, found,
    coherent.isCurrent_iff.2 ⟨i, found, current⟩,
    way.dominates same coherent decided (.start coherent decided live merges),
    fun j w behind located => ?_⟩
  have fresh (i : Nat) : ¬(s.buffer.refresh s.atoms.size).isOpenAt s.trail i = true := by
    simp [ResolutionBuffer.isOpenAt, ResolutionBuffer.isMerged_refresh coherent.marked]
  obtain ⟨k, before, l, atOther, level, leads⟩ :=
    way.passes same (.start coherent live false fresh merges) coherent (Nat.le_refl _) behind
      (Array.getElem?_eq_some_iff.1 located).1
  exact coherent.not_dominates decided located before atOther level leads

def fork : List Clause := [[1, 2], [-2, 3], [-2, 4], [-4, -3]]

def forked : Solver := ((new steady).ensureAtoms 4).2.addAllNormal fork

def forkedClash : Solver := (run 1 forked.start).2.propagate.2

theorem forkedClash_reachable :
    Reachable steady ⟨fork, .clash (.original 3), forkedClash⟩ := by
  have sorted : ∀ c ∈ fork, c.Pairwise (· < ·) := by decide
  have atoms : Reachable steady ⟨[], .between, ((new steady).ensureAtoms 4).2⟩ :=
    .single (.ensureAtoms (new steady) 4)
  have added : Reachable steady ⟨fork, .between, forked⟩ := atoms.addAllNormal
    (fun c member => Clause.normalise_of_sorted (sorted c member)) (by decide +kernel)
  have decided : (run 1 forked.start).1 = .ok false := by decide +kernel
  have conflict : (run 1 forked.start).2.propagate.1 = .ok (.conflict (.original 3)) := by
    decide +kernel
  have searched := run_steps fork 1 forked.start
  have drawn := propagate_steps fork (run 1 forked.start).2
  rw [decided] at searched
  rw [conflict] at drawn
  exact ((added.tail (.start (by decide +kernel))).trans searched).trans drawn

theorem forkedClash_dominates :
    (forkedClash.derive (.original 3)).1 = .ok [-2] ∧
      forkedClash.trail.literals = #[-1, 2, 3, 4] ∧ forkedClash.Dominates (.original 3) 2 ∧
      ¬forkedClash.Dominates (.original 3) 3 ∧ ¬forkedClash.Dominates (.original 3) 4 := by
  have derived : (forkedClash.derive (.original 3)).1 = .ok [-2] := by decide +kernel
  have literals : forkedClash.trail.literals = #[-1, 2, 3, 4] := by decide +kernel
  obtain ⟨-, u, rest, i, answer, found, -, dominates, last⟩ :=
    reachable_dominates forkedClash_reachable rfl (by decide +kernel)
  obtain ⟨same, -⟩ := List.cons.inj (Except.ok.inj (derived.symm.trans answer))
  obtain rfl : u = 2 := Int.neg_inj.1 same.symm
  -- The literal is at the second position, so the other two are behind it.
  have below : i < 2 := by
    rw [literals] at found
    by_contra above
    obtain rfl | rfl | far : i = 2 ∨ i = 3 ∨ 4 ≤ i := by omega
    · cases found
    · cases found
    · simp [far] at found
  exact ⟨derived, literals, dominates, last 2 3 below (by rw [literals]; rfl),
    last 3 4 (by omega) (by rw [literals]; rfl)⟩

end Solver

end ClauseLearning
