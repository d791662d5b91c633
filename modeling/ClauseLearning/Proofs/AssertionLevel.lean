import ClauseLearning.Proofs.Alignment

/-!
Where a clause asserts. Going back clears the levels above a target and no others, so a clause that
is false, with one literal of the current level, asserts that literal from the second highest of
its levels on and below the current one, and at no other level.
-/

namespace ClauseLearning

section Levels

variable {level : Atom → Option Nat} {c : Clause} {second top : Nat}

def Clause.levelList (level : Atom → Option Nat) (c : Clause) : List Nat :=
  c.map fun l => (level l.natAbs).getD 0

structure IsSecondHighest (best : Nat) (levels : List Nat) : Prop where
  above : levels.countP (best < ·) ≤ 1
  reached : 2 ≤ levels.countP (best ≤ ·)

theorem IsSecondHighest.skip {best low high top : Nat} {levels : List Nat}
    (highest : IsSecondHighest best (high :: top :: levels)) (low_le : low ≤ high)
    (le_top : low ≤ top) : IsSecondHighest best (low :: high :: top :: levels) := by
  obtain ⟨above, reached⟩ := highest
  -- If the number left out were above, both that were kept would be as well.
  have notAbove : ¬best < low := by
    intro lt
    simp [lt.trans_le low_le, lt.trans_le le_top] at above
  constructor
  · rwa [List.countP_cons_of_neg (by simpa using notAbove)]
  · exact reached.trans (List.Sublist.countP_le (List.sublist_cons_self ..))

theorem IsSecondHighest.perm {best : Nat} {levels levels' : List Nat}
    (highest : IsSecondHighest best levels) (perm : levels.Perm levels') :
    IsSecondHighest best levels' :=
  ⟨(perm.countP_eq _) ▸ highest.above, (perm.countP_eq _) ▸ highest.reached⟩

theorem IsSecondHighest.greatest {best highest : Nat} {rest : List Nat}
    (second : IsSecondHighest best (highest :: rest)) (lower : ∀ n ∈ rest, n < highest) :
    best < highest ∧ ∀ n, best ≤ n ↔ ∀ m ∈ rest, m ≤ n := by
  obtain ⟨above, reached⟩ := second
  have below : best < highest := by
    by_contra notBelow
    have noMore : rest.countP (best ≤ ·) = 0 := by
      refine List.countP_eq_zero.2 fun n member => ?_
      have := lower n member
      simpa using this.trans_le (Nat.le_of_not_lt notBelow)
    have := List.countP_le_length (p := fun n => decide (best ≤ n)) (l := [highest])
    rw [← List.singleton_append, List.countP_append, noMore] at reached
    simp only [List.length_singleton] at this
    omega
  rw [List.countP_cons_of_pos (by simpa using below)] at above
  rw [List.countP_cons_of_pos (by simpa using below.le)] at reached
  have le : ∀ m ∈ rest, m ≤ best := by
    simpa using List.countP_eq_zero.1 (Nat.le_zero.1 (Nat.le_of_succ_le_succ above))
  obtain ⟨m, member, ge⟩ := List.countP_pos_iff.1 (Nat.lt_of_succ_lt_succ reached)
  refine ⟨below, fun n => ⟨fun bound o inRest => (le o inRest).trans bound, fun all => ?_⟩⟩
  exact le_trans (of_decide_eq_true ge) (all m member)

theorem Clause.secondLevelFrom_spec (valued : ∀ l ∈ c, level l.natAbs ≠ none)
    (le : second ≤ top) :
    ∃ best, c.secondLevelFrom level second top = .ok best ∧
      IsSecondHighest best (second :: top :: c.levelList level) := by
  induction c generalizing second top with
  | nil =>
    refine ⟨second, rfl, ?_, ?_⟩
    · rw [List.countP_cons_of_neg (by simp)]
      exact List.countP_le_length
    · simp [levelList, le]
  | cons l rest ih =>
    have later : ∀ m ∈ rest, level m.natAbs ≠ none :=
      fun m member => valued m (List.mem_cons_of_mem l member)
    obtain ⟨n, known⟩ := Option.ne_none_iff_exists'.1 (valued l List.mem_cons_self)
    have levels_eq : levelList level (l :: rest) = n :: levelList level rest := by
      simp [levelList, known]
    rw [levels_eq, secondLevelFrom]
    simp only [known]
    split
    · rename_i higher
      obtain ⟨best, found, highest⟩ := ih later higher.le
      exact ⟨best, found, highest.skip le (le.trans higher.le)⟩
    · rename_i noHigher
      have below : n ≤ top := Nat.le_of_not_lt noHigher
      obtain ⟨best, found, highest⟩ := ih later (max_le le below)
      refine ⟨best, found, ?_⟩
      rcases Nat.le_total second n with lower | lower
      · rw [max_eq_right lower] at highest
        exact (highest.skip lower (lower.trans below)).perm ((List.Perm.swap ..).cons second)
      · rw [max_eq_left lower] at highest
        exact (highest.skip lower below).perm
          ((List.Perm.swap ..).trans ((List.Perm.swap ..).cons second))

theorem Clause.secondLevelFrom_unvalued (second top : Nat)
    (unvalued : ∃ l ∈ c, level l.natAbs = none) :
    ∃ l ∈ c, level l.natAbs = none ∧ c.secondLevelFrom level second top = .error (.backjump l) := by
  induction c generalizing second top with
  | nil =>
    obtain ⟨l, member, -⟩ := unvalued
    cases member
  | cons l rest ih =>
    rw [secondLevelFrom]
    cases known : level l.natAbs with
    | none => exact ⟨l, List.mem_cons_self, known, rfl⟩
    | some n =>
      have later : ∃ m ∈ rest, level m.natAbs = none := by
        obtain ⟨m, member, none⟩ := unvalued
        rcases List.mem_cons.1 member with rfl | member
        · cases known.symm.trans none
        · exact ⟨m, member, none⟩
      simp only
      split
      · obtain ⟨m, member, found⟩ := ih top n later
        exact ⟨m, List.mem_cons_of_mem l member, found⟩
      · obtain ⟨m, member, found⟩ := ih (max second n) top later
        exact ⟨m, List.mem_cons_of_mem l member, found⟩

end Levels

theorem Clause.asserted?_eq_some_iff {value : Atom → Option Bool} {c : Clause} {l : Literal}
    (nodup : c.Nodup) : c.asserted? value = some l ↔
      l ∈ c ∧ l.value value = none ∧ ∀ m ∈ c, m ≠ l → m.value value = some false := by
  constructor
  · intro asserted
    unfold asserted? at asserted
    split at asserted
    · rename_i o alone
      obtain ⟨none, same⟩ := (Option.ite_none_right_eq_some ..).1 asserted
      obtain rfl := Option.some.inj same
      have kept (m : Literal) : m ∈ c ∧ m.value value ≠ some false ↔ m = o := by
        rw [← List.mem_singleton, ← alone, List.mem_filter, bne_iff_ne]
      refine ⟨((kept o).2 rfl).1, Option.isNone_iff_eq_none.1 none, fun m member other => ?_⟩
      by_contra notFalse
      exact other ((kept m).1 ⟨member, notFalse⟩)
    · cases asserted
  · rintro ⟨member, none, others⟩
    have alone : c.filter (fun m => m.value value != some false) = [l] := by
      refine List.perm_singleton.1 ((List.perm_ext_iff_of_nodup (nodup.filter _)
        (List.nodup_singleton l)).2 fun m => ?_)
      rw [List.mem_filter, List.mem_singleton, bne_iff_ne]
      constructor
      · rintro ⟨member, notFalse⟩
        by_contra other
        exact notFalse (others m member other)
      · rintro rfl
        exact ⟨member, by simp [none]⟩
    unfold asserted?
    rw [alone]
    simp [none]

theorem AtomTable.Agrees.level_le {t : AtomTable} {trail : Trail} (agrees : t.Agrees trail)
    {a n : Nat} (level : t.level a = some n) : n ≤ trail.level := by
  rw [AtomTable.level_eq] at level
  obtain ⟨assignment, assigned, rfl⟩ := Option.map_eq_some_iff.1 level
  rcases Nat.eq_zero_or_pos a with rfl | positive
  · rw [agrees.top] at assigned
    obtain rfl := Option.some.inj assigned
    exact Nat.zero_le _
  · obtain ⟨l, member, rfl⟩ := agrees.located a assignment positive assigned
    obtain ⟨i, found⟩ := Array.getElem?_of_mem member
    obtain ⟨-, source, listed⟩ := agrees.listed i l found
    obtain rfl := Option.some.inj (assigned.symm.trans listed)
    exact trail.levelAt_le_level i

namespace Solver

variable {s : Solver} {l : Literal} {c : Clause} {best : Nat}

/-- The literals of a clause have different atoms and are all false, and `l` is the only one of
them that is of the current level. -/
structure FalseSince (s : Solver) (l : Literal) (c : Clause) : Prop where
  distinct : (c.map Int.natAbs).Nodup
  isFalse : ∀ m ∈ c, s.literalValue m = some false
  current : ∀ m, m ∈ c ∧ s.atoms.level m.natAbs = some s.trail.level ↔ m = l

namespace FalseSince

theorem mem (since : s.FalseSince l c) : l ∈ c := ((since.current l).2 rfl).1

theorem level (since : s.FalseSince l c) : s.atoms.level l.natAbs = some s.trail.level :=
  ((since.current l).2 rfl).2

theorem exists_level (since : s.FalseSince l c) (agrees : s.atoms.Agrees s.trail) {m : Literal}
    (member : m ∈ c) (other : m ≠ l) : ∃ n < s.trail.level, s.atoms.level m.natAbs = some n := by
  obtain ⟨n, level⟩ : ∃ n, s.atoms.level m.natAbs = some n := by
    have isFalse := since.isFalse m member
    rw [Solver.literalValue, AtomTable.literalValue_eq] at isFalse
    obtain ⟨assignment, assigned, -⟩ := Option.map_eq_some_iff.1 isFalse
    exact ⟨assignment.level, by rw [AtomTable.level_eq, assigned]; rfl⟩
  have ne : n ≠ s.trail.level := fun same => other ((since.current m).1 ⟨member, same ▸ level⟩)
  exact ⟨n, lt_of_le_of_ne (agrees.level_le level) ne, level⟩

theorem literalValue_backjump (since : s.FalseSince l c) (agrees : s.atoms.Agrees s.trail)
    (sorted : s.trail.Sorted) {m : Literal} (member : m ∈ c) {n : Nat}
    (level : s.atoms.level m.natAbs = some n) (target : Nat) :
    (s.backjump target).literalValue m = if n ≤ target then some false else none := by
  have clears := backjump_clears agrees sorted target
  split
  · rename_i le
    obtain ⟨value, -⟩ := clears.kept m.natAbs fun n' level' =>
      Option.some.inj (level.symm.trans level') ▸ le
    rw [← since.isFalse m member]
    simp only [Solver.value] at value
    simp only [Solver.literalValue, AtomTable.literalValue, Literal.value, value]
  · rename_i above
    obtain ⟨value, -⟩ := clears.cleared m.natAbs n level (Nat.lt_of_not_le above)
    simp only [Solver.value] at value
    simp only [Solver.literalValue, AtomTable.literalValue, Literal.value, value]

theorem asserted?_backjump (since : s.FalseSince l c) (agrees : s.atoms.Agrees s.trail)
    (sorted : s.trail.Sorted) (target : Nat) :
    c.asserted? (s.backjump target).value = some l ↔
      (∀ m ∈ c, m ≠ l → ∀ n, s.atoms.level m.natAbs = some n → n ≤ target) ∧
        target < s.trail.level := by
  rw [Clause.asserted?_eq_some_iff (List.Nodup.of_map _ since.distinct)]
  constructor
  · rintro ⟨-, none, others⟩
    refine ⟨fun m member other n level => ?_, ?_⟩
    · by_contra above
      have cleared := since.literalValue_backjump agrees sorted member level target
      rw [if_neg above] at cleared
      cases cleared.symm.trans (others m member other)
    · by_contra notBelow
      have kept := since.literalValue_backjump agrees sorted since.mem since.level target
      rw [if_pos (Nat.le_of_not_lt notBelow)] at kept
      cases kept.symm.trans none
  · rintro ⟨others, below⟩
    refine ⟨since.mem, ?_, fun m member other => ?_⟩
    · exact (since.literalValue_backjump agrees sorted since.mem since.level target).trans
        (if_neg (Nat.not_le.2 below))
    · obtain ⟨n, -, level⟩ := since.exists_level agrees member other
      exact (since.literalValue_backjump agrees sorted member level target).trans
        (if_pos (others m member other n level))

theorem assertionLevel_eq (since : s.FalseSince l c) (agrees : s.atoms.Agrees s.trail)
    (decided : 0 < s.trail.level) :
    ∃ best, c.assertionLevel s.atoms.level = .ok best ∧ best < s.trail.level ∧
      ∀ target, best ≤ target ↔
        ∀ m ∈ c, m ≠ l → ∀ n, s.atoms.level m.natAbs = some n → n ≤ target := by
  have nodup : c.Nodup := List.Nodup.of_map _ since.distinct
  have others (target : Nat) :
      (∀ n ∈ 0 :: 0 :: Clause.levelList s.atoms.level (c.erase l), n ≤ target) ↔
        ∀ m ∈ c, m ≠ l → ∀ n, s.atoms.level m.natAbs = some n → n ≤ target := by
    simp only [List.forall_mem_cons, Nat.zero_le, true_and, Clause.levelList, List.forall_mem_map,
      nodup.mem_erase_iff]
    constructor
    · intro all m member other n level
      simpa [level] using all m ⟨other, member⟩
    · rintro all m ⟨other, member⟩
      obtain ⟨n, -, level⟩ := since.exists_level agrees member other
      simpa [level] using all m member other n level
  unfold Clause.assertionLevel
  split
  · rename_i short
    obtain ⟨o, rfl⟩ := List.length_eq_one_iff.1
      (le_antisymm (Nat.le_of_lt_succ short) (List.length_pos_of_mem since.mem))
    obtain rfl := List.mem_singleton.1 since.mem
    exact ⟨0, rfl, decided, fun target => by simp⟩
  · have valued : ∀ m ∈ c, s.atoms.level m.natAbs ≠ none := by
      intro m member
      by_cases same : m = l
      · rw [same, since.level]
        exact Option.some_ne_none _
      · obtain ⟨n, -, level⟩ := since.exists_level agrees member same
        rw [level]
        exact Option.some_ne_none _
    obtain ⟨best, found, second⟩ := Clause.secondLevelFrom_spec valued (Nat.le_refl 0)
    -- The current level is above all others, so the second highest is the highest of those.
    have ahead : (0 :: 0 :: c.levelList s.atoms.level).Perm
        (s.trail.level :: 0 :: 0 :: Clause.levelList s.atoms.level (c.erase l)) := by
      have perm := (List.perm_cons_erase since.mem).map fun m => (s.atoms.level m.natAbs).getD 0
      rw [List.map_cons, since.level, Option.getD_some] at perm
      exact ((perm.cons 0).cons 0).trans (@List.perm_middle _ s.trail.level [0, 0] _)
    have lower : ∀ n ∈ 0 :: 0 :: Clause.levelList s.atoms.level (c.erase l), n < s.trail.level := by
      simp only [List.forall_mem_cons, decided, true_and, Clause.levelList, List.forall_mem_map,
        nodup.mem_erase_iff]
      rintro m ⟨other, member⟩
      obtain ⟨n, lower, level⟩ := since.exists_level agrees member other
      simpa [level] using lower
    obtain ⟨below, least⟩ := (second.perm ahead).greatest lower
    exact ⟨best, found, below, fun target => (least target).trans (others target)⟩

end FalseSince

/-- The level to go back to is the least where the clause asserts its literal, which it does from
there up to the level before the current one. For a clause with a literal that has no value there
is no such level, and that is all that is said. -/
theorem assertionLevel_delimits (s : Solver) (agrees : s.atoms.Agrees s.trail)
    (sorted : s.trail.Sorted) :
    (∀ l c, s.FalseSince l c → 0 < s.trail.level →
      ∃ best < s.trail.level, s.assertionLevel c = (.ok best, s) ∧
        ∀ target, c.asserted? (s.backjump target).value = some l ↔
          best ≤ target ∧ target < s.trail.level) ∧
      ∀ c : Clause, 2 ≤ c.length → (∃ m ∈ c, s.value m.natAbs = none) →
        ∃ m ∈ c, s.value m.natAbs = none ∧
          ∃ journal, s.assertionLevel c = (.error (.backjump m), { s with journal }) := by
  constructor
  · intro l c since decided
    obtain ⟨best, found, below, least⟩ := since.assertionLevel_eq agrees decided
    refine ⟨best, below, by simp only [assertionLevel, found, noteError], fun target => ?_⟩
    rw [since.asserted?_backjump agrees sorted, least]
  · intro c long unvalued
    have level_eq_none (m : Literal) :
        s.atoms.level m.natAbs = none ↔ s.value m.natAbs = none := by
      rw [Solver.value, AtomTable.level_eq, AtomTable.value_eq, Option.map_eq_none_iff,
        Option.map_eq_none_iff]
    simp only [← level_eq_none] at unvalued ⊢
    obtain ⟨m, member, none, failed⟩ := Clause.secondLevelFrom_unvalued 0 0 unvalued
    obtain ⟨journal, noted⟩ := s.noteFailure_eq (.backjump m)
    refine ⟨m, member, none, journal, ?_⟩
    simp only [assertionLevel, Clause.assertionLevel, if_neg (Nat.not_lt.2 long), failed, noteError,
      noted]

def leveled : Solver :=
  (new {}).performAll [.ensureAtoms 5, .pushLevel, .assign 1 .decision, .pushLevel,
    .assign (-2) .decision, .pushLevel, .assign 3 .decision, .pushLevel, .assign 4 .decision]

theorem leveled_assertionLevel :
    (leveled.FalseSince (-4) [-1, 2, -4] ∧ 0 < leveled.trail.level ∧
      ∃ best < leveled.trail.level, leveled.assertionLevel [-1, 2, -4] = (.ok best, leveled) ∧
        ∀ target, Clause.asserted? (leveled.backjump target).value [-1, 2, -4] = some (-4) ↔
          best ≤ target ∧ target < leveled.trail.level) ∧
      leveled.value 5 = none ∧
        ∃ m ∈ [-1, 5, -4], leveled.value m.natAbs = none ∧
          ∃ journal, leveled.assertionLevel [-1, 5, -4] =
            (.error (.backjump m), { leveled with journal }) := by
  have aligned : leveled.Aligned := (new_coherent {}).aligned.performAll _
  obtain ⟨delimited, unvalued⟩ := assertionLevel_delimits leveled aligned.agrees aligned.trail
  have decided : 0 < leveled.trail.level := by decide +kernel
  have since : leveled.FalseSince (-4) [-1, 2, -4] := by
    refine ⟨by decide, by decide +kernel, fun m => ⟨?_, ?_⟩⟩
    · have lower : ∀ m ∈ [(-1 : Literal), 2], leveled.atoms.level m.natAbs ≠
          some leveled.trail.level := by
        decide +kernel
      rintro ⟨member, level⟩
      have notLower := fun low => lower m low level
      simp only [List.mem_cons, List.not_mem_nil, or_false] at member notLower
      tauto
    · rintro rfl
      exact ⟨by decide, by decide +kernel⟩
  have none : leveled.value 5 = none := by decide +kernel
  exact ⟨⟨since, decided, delimited _ _ since decided⟩, none,
    unvalued [-1, 5, -4] (by decide) ⟨5, by decide, none⟩⟩

end Solver

end ClauseLearning
