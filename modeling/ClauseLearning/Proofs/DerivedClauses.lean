import ClauseLearning.Proofs.Failures
import ClauseLearning.Proofs.Novelty
import ClauseLearning.Proofs.Progress

namespace ClauseLearning

namespace Clause

def levels (level : Atom → Option Nat) (c : Clause) : Finset Nat :=
  (c.filterMap fun l => level l.natAbs).toFinset

def highestLevel (level : Atom → Option Nat) (c : Clause) : Nat :=
  (c.filterMap fun l => level l.natAbs).max?.getD 0

variable {level : Atom → Option Nat} {c : Clause} {n : Nat}

theorem highestLevel_eq (reached : ∃ l ∈ c, level l.natAbs = some n)
    (greatest : ∀ l ∈ c, ∃ k ≤ n, level l.natAbs = some k) : c.highestLevel level = n := by
  have max : (c.filterMap fun l => level l.natAbs).max? = some n := by
    refine List.max?_eq_some_iff.2 ⟨List.mem_filterMap.2 reached, fun k member => ?_⟩
    obtain ⟨l, inClause, known⟩ := List.mem_filterMap.1 member
    obtain ⟨k', le, known'⟩ := greatest l inClause
    obtain rfl := Option.some.inj (known.symm.trans known')
    exact le
  rw [highestLevel, max, Option.getD_some]

theorem highestLevel_lt (pos : 0 < n) (below : ∀ l ∈ c, ∀ k, level l.natAbs = some k → k < n) :
    c.highestLevel level < n := by
  rw [highestLevel]
  cases max : (c.filterMap fun l => level l.natAbs).max? with
  | none => exact pos
  | some k =>
    obtain ⟨l, inClause, known⟩ := List.mem_filterMap.1 (List.max?_eq_some_iff.1 max).1
    exact below l inClause k known

end Clause

namespace WatchedStore

variable {s s' : WatchedStore} {proper : Literal → Prop} {value : Atom → Option Bool}
  {level : Atom → Option Nat} {l m : Literal} {rest : Clause} {key : ClauseKey}
  {blockDistance : Nat}

end WatchedStore

/-- The literals are false, of distinct atoms and above level zero. The first alone is of the
current level, and the second is of the highest level of those behind the first. -/
structure Solver.Pivots (s : Solver) (l : Literal) (rest : Clause) : Prop where
  isFalse : ∀ m ∈ l :: rest, s.literalValue m = some false
  distinct : (Clause.atoms (l :: rest)).Nodup
  current : s.atoms.level l.natAbs = some s.level
  lower : ∀ m ∈ rest, ∃ n, s.atoms.level m.natAbs = some n ∧ 0 < n ∧ n < s.level
  second : ∀ m, rest[0]? = some m →
    s.atoms.level m.natAbs = some (Clause.highestLevel s.atoms.level rest)

namespace Derived

variable {s : Solver} {formula : List Clause} {l m : Literal} {rest : Clause}

theorem highestLevel (derived : Derived formula s.trail l rest) (agrees : s.atoms.Agrees s.trail)
    (front : rest[0]? = some m) {i : Nat} (found : s.trail.literals[i]? = some (-m)) :
    Clause.highestLevel s.atoms.level rest = s.trail.levelAt i := by
  have member := List.mem_of_getElem? front
  refine Clause.highestLevel_eq ⟨m, member, agrees.level_of_neg found⟩ fun o inRest => ?_
  obtain ⟨j, located, -⟩ := derived.lower o inRest
  exact ⟨_, derived.highest m front o inRest j i located found, agrees.level_of_neg located⟩

theorem pivots (derived : Derived formula s.trail l rest) (agrees : s.atoms.Agrees s.trail) :
    s.Pivots l rest where
  isFalse o member := by
    obtain ⟨i, found, -⟩ := derived.false_of_mem member
    exact agrees.literalValue_of_neg_mem (Array.mem_of_getElem? found)
  distinct := derived.distinct
  current := by
    obtain ⟨i, found, current⟩ := derived.current
    rw [agrees.level_of_neg found, current]
    rfl
  lower o member := by
    obtain ⟨i, found, positive, below⟩ := derived.lower o member
    exact ⟨_, agrees.level_of_neg found, positive, below⟩
  second first front := by
    obtain ⟨i, found, -⟩ := derived.lower first (List.mem_of_getElem? front)
    rw [derived.highestLevel agrees front found, agrees.level_of_neg found]

end Derived

namespace Solver

variable {s s' : Solver} {formula : List Clause} {l m : Literal} {rest : Clause} {key : ClauseKey}
  {lesson : Lesson}

/-- Of a false clause with an only literal of the highest level, the values down to the next lower
one were taken back. -/
structure Poised (level : Atom → Option Nat) (s : Solver) (l : Literal) (rest : Clause) : Prop where
  level : s.level = Clause.highestLevel level rest
  unvalued : s.literalValue l = none
  isFalse : ∀ m ∈ rest, s.literalValue m = some false

theorem Poised.congr {level : Atom → Option Nat} (poised : s.Poised level l rest)
    (atoms : s'.atoms = s.atoms) (trail : s'.trail = s.trail) : s'.Poised level l rest where
  level := by
    rw [Solver.level, trail]
    exact poised.level
  unvalued := by
    rw [literalValue, atoms]
    exact poised.unvalued
  isFalse m member := by
    rw [literalValue, atoms]
    exact poised.isFalse m member

theorem Invariant.asserting (invariant : s.Invariant formula fun _ => False)
    (derived : Derived formula s.trail l rest) :
    Asserting formula (s.backjump (Clause.highestLevel s.atoms.level rest)) l rest := by
  cases rest with
  | nil => exact invariant.retreat_unit derived
  | cons m rest =>
    obtain ⟨i, found, below, -⟩ := invariant.assertionLevel_eq derived
    rw [derived.highestLevel invariant.coherent.agrees (m := m) rfl found]
    exact invariant.retreat_long derived found below

theorem Pivots.highestLevel_lt (pivots : s.Pivots l rest) (decided : 0 < s.level) :
    Clause.highestLevel s.atoms.level rest < s.level := by
  refine Clause.highestLevel_lt decided fun m inRest n known => ?_
  obtain ⟨n', known', -, below⟩ := pivots.lower m inRest
  obtain rfl := Option.some.inj (known.symm.trans known')
  exact below

theorem Invariant.poised (invariant : s.Invariant formula fun _ => False)
    (derived : Derived formula s.trail l rest) :
    (s.backjump (Clause.highestLevel s.atoms.level rest)).Poised s.atoms.level l rest := by
  have asserting := invariant.asserting derived
  have agrees := (invariant.backjump (Clause.highestLevel s.atoms.level rest)).coherent.agrees
  have retreats := backjump_retreats invariant.coherent.aligned
    (Clause.highestLevel s.atoms.level rest)
  have below := (derived.pivots invariant.coherent.agrees).highestLevel_lt derived.decided
  refine ⟨retreats.level.trans (min_eq_left below.le), ?_, fun m member =>
    agrees.literalValue_of_neg_mem (asserting.false m member)⟩
  rw [literalValue, agrees.literalValue_eq_none_iff asserting.nonzero,
    ← agrees.assignment?_eq_none_iff asserting.nonzero]
  exact asserting.unvalued.2

/-- The clause of a lesson is stored. One of two or more literals is watched at the first two, and
ranked by how many levels there were among its literals. -/
inductive Holds (level : Atom → Option Nat) (s : Solver) : Literal → Clause → Lesson → Prop
  | unit {l : Literal} (stored : l ∈ s.store.additionUnits) : Holds level s l [] (.unit l)
  | asserting {l m : Literal} {rest : Clause} {key : ClauseKey} {rank : ClauseRank}
      (stored : s.store.get key = .ok ⟨key, (l :: m :: rest).toArray, 1⟩)
      (watched : ∀ o, key ∈ s.watches.watchers o ↔ o = l ∨ o = m)
      (ranked : s.store.rank? key = some rank)
      (distance : rank.blockDistance = min (Clause.levels level (l :: m :: rest)).card 255) :
      Holds level s l (m :: rest) (.asserting l key)

end Solver

end ClauseLearning
