import ClauseLearning.Proofs.Assignment
import ClauseLearning.Proofs.Backjump
import ClauseLearning.Proofs.Resolution
import ClauseLearning.Proofs.Storing
import ClauseLearning.Solver.Search

namespace ClauseLearning

theorem Clause.secondLevelFrom_of_le {level : Atom → Option Nat} {best : Nat} {c : Clause}
    (valued : ∀ m ∈ c, ∃ n ≤ best, level m.natAbs = some n) {second top : Nat}
    (second_le : second ≤ best) (best_le : best ≤ top)
    (reached : second = best ∨ ∃ m ∈ c, level m.natAbs = some best) :
    c.secondLevelFrom level second top = .ok best := by
  induction c generalizing second with
  | nil =>
    cases reached with
    | inl same => rw [same, secondLevelFrom]
    | inr impossible => simp at impossible
  | cons m rest ih =>
    obtain ⟨n, le, known⟩ := valued m List.mem_cons_self
    rw [secondLevelFrom]
    simp only [known, if_neg (Nat.not_lt.2 (le.trans best_le))]
    apply ih (fun o member => valued o (List.mem_cons_of_mem m member)) (max_le second_le le)
    rcases reached with rfl | ⟨o, member, deep⟩
    · exact .inl (max_eq_left le)
    · rcases List.mem_cons.1 member with rfl | later
      · obtain rfl := Option.some.inj (known.symm.trans deep)
        exact .inl (max_eq_right second_le)
      · exact .inr ⟨o, later, deep⟩

structure Asserting (formula : List Clause) (s : Solver) (l : Literal) (rest : Clause) : Prop where
  entailed : Entails formula (l :: rest)
  distinct : ((l :: rest).map Int.natAbs).Nodup
  nonzero : l ≠ 0
  unvalued : s.atoms.Unvalued l.natAbs
  false : ∀ m ∈ rest, -m ∈ s.trail.literals
  second : ∀ m, rest[0]? = some m →
    ∃ i : Nat, s.trail.literals[i]? = some (-m) ∧ s.trail.levelAt i = s.trail.level
  unit : rest = [] → s.trail.level = 0

namespace Derived

variable {s s' : Solver} {formula : List Clause} {l m : Literal} {rest : Clause} {n : Nat}

theorem assertionLevel (derived : Derived formula s.trail l rest)
    (agrees : s.atoms.Agrees s.trail) (front : rest[0]? = some m) :
    ∃ i : Nat, s.trail.literals[i]? = some (-m) ∧ s.trail.levelAt i < s.trail.level ∧
      Clause.assertionLevel s.atoms.level (l :: rest) = .ok (s.trail.levelAt i) := by
  have member := List.mem_of_getElem? front
  obtain ⟨i, found, positive, below⟩ := derived.lower m member
  obtain ⟨j, located, current⟩ := derived.current
  refine ⟨i, found, below, ?_⟩
  have longer : ¬(l :: rest).length < 2 := by
    have := List.length_pos_of_mem member
    rw [List.length_cons]
    omega
  rw [Clause.assertionLevel, if_neg longer, Clause.secondLevelFrom]
  simp only [agrees.level_of_neg located, current]
  rw [if_pos (by omega)]
  apply Clause.secondLevelFrom_of_le _ (Nat.zero_le _) below.le
    (.inr ⟨m, member, agrees.level_of_neg found⟩)
  intro o inRest
  obtain ⟨k, false, -, -⟩ := derived.lower o inRest
  exact ⟨_, derived.highest m front o inRest k i false found, agrees.level_of_neg false⟩

theorem retreat (derived : Derived formula s.trail l rest) (coherent : s.Coherent)
    (retreats : s.Retreats s' n) (below : n < s.trail.level) (unit : rest = [] → n = 0)
    (second : ∀ m, rest[0]? = some m →
      ∃ i : Nat, s.trail.literals[i]? = some (-m) ∧ s.trail.levelAt i = n) :
    Asserting formula s' l rest := by
  obtain ⟨j, located, current⟩ := derived.current
  have level : s'.trail.level = n := by
    rw [retreats.level]
    exact min_eq_left below.le
  refine ⟨derived.entailed, derived.distinct, ?_, ?_, ?_, ?_, ?_⟩
  · exact Int.neg_ne_zero.1 (coherent.agrees.nonzero (Array.mem_of_getElem? located))
  · rw [← Int.natAbs_neg l]
    exact retreats.unvalued coherent.aligned located (current ▸ below)
  · intro m member
    obtain ⟨i, found, -, -⟩ := derived.lower m member
    cases rest with
    | nil => cases member
    | cons first later =>
      obtain ⟨k, atFirst, depth⟩ := second first rfl
      have le := derived.highest first rfl m member i k found atFirst
      exact Array.mem_of_getElem? (retreats.kept coherent.aligned found (depth ▸ le)).1
  · intro m front
    obtain ⟨i, found, depth⟩ := second m front
    obtain ⟨found', level', -⟩ := retreats.kept coherent.aligned found depth.le
    exact ⟨i, found', level'.trans (depth.trans level.symm)⟩
  · intro alone
    rw [level, unit alone]

end Derived

def Lesson.assertion? : Lesson → Option (Literal × Source)
  | .fundamentalConflict => none
  | .unit l => some (l, .unit (.additionUnit l))
  | .asserting l key => some (l, .propagation key)

namespace Solver

variable {s s' : Solver} {formula : List Clause} {l : Literal} {rest : Clause} {lesson : Lesson}

def Taught (formula : List Clause) (s : Solver) : Lesson → Prop
  | .fundamentalConflict => False
  | .unit l => s.Invariant formula (· = .additionUnit l) ∧ Asserting formula s l []
  | .asserting l key => s.Invariant formula (· = key) ∧ ∃ m rest,
      s.clauses.store.get key = .ok ⟨key, (l :: m :: rest).toArray, 1⟩ ∧
        Asserting formula s l (m :: rest)

end Solver

namespace Asserting

variable {s s' : Solver} {formula : List Clause} {l m : Literal} {rest : Clause} {key : ClauseKey}

theorem congr (asserting : Asserting formula s l rest) (atoms : s'.atoms = s.atoms)
    (trail : s'.trail = s.trail) : Asserting formula s' l rest where
  entailed := asserting.entailed
  distinct := asserting.distinct
  nonzero := asserting.nonzero
  unvalued := atoms ▸ asserting.unvalued
  false := trail ▸ asserting.false
  second := trail ▸ asserting.second
  unit := trail ▸ asserting.unit

theorem unit_entailed (asserting : Asserting formula s l rest) (coherent : s.Coherent)
    (entailed : s.Entailed formula) (zero : s.trail.level = 0) : Entails formula [l] := by
  apply asserting.entailed.strip
  intro o member
  by_cases same : o = l
  · exact .inl (List.mem_singleton.2 same)
  · have isFalse := asserting.false o ((List.mem_cons.1 member).resolve_left same)
    obtain ⟨i, found⟩ := Array.getElem?_of_mem isFalse
    have le := (s.trail.levelAt_le_level i).trans zero.le
    exact .inr ⟨Int.neg_ne_zero.1 (coherent.agrees.nonzero isFalse),
      entailed.zero i (-o) found (Nat.le_zero.1 le)⟩

theorem implies (asserting : Asserting formula s l (m :: rest))
    (gains : s.Gains s' l (.propagation key)) (trail : s'.trail = s.trail.push l) :
    s'.trail.Implies s.trail.literals.size ⟨key, (l :: m :: rest).toArray, 1⟩ l := by
  refine ⟨rfl, fun o member other => ?_, ?_⟩
  · have isFalse := asserting.false o ((List.mem_cons.1 member).resolve_left other)
    obtain ⟨i, found⟩ := Array.getElem?_of_mem isFalse
    exact ⟨i, (Array.getElem?_eq_some_iff.1 found).1, gains.extends_trail.getElem?_eq_some found⟩
  · obtain ⟨i, found, current⟩ := asserting.second m rfl
    refine ⟨m, List.mem_cons_of_mem l List.mem_cons_self, i, (Array.getElem?_eq_some_iff.1 found).1,
      gains.extends_trail.getElem?_eq_some found, ?_⟩
    rw [gains.extends_trail.levelAt_eq found, current, gains.levelAt_last, trail]
    rfl

theorem guards (asserting : Asserting formula s l (m :: rest))
    (gains : s.Gains s' l (.propagation key)) (trail : s'.trail = s.trail.push l)
    (agrees : s'.atoms.Agrees s'.trail) (n : Nat) :
    s'.trail.GuardsClause n ⟨key, (l :: m :: rest).toArray, 1⟩ := by
  obtain ⟨k, found, current⟩ := asserting.second m rfl
  rintro w o (rfl | rfl) (rfl | rfl) apart
  · exact absurd rfl apart
  · exact .of_not_mem (agrees.not_neg_mem (Array.mem_of_getElem? gains.last))
  · intro i _ isFalse
    obtain rfl :=
      agrees.distinct i k _ _ isFalse (gains.extends_trail.getElem?_eq_some found) rfl
    refine ⟨_, gains.last, ?_⟩
    rw [gains.levelAt_last, gains.extends_trail.levelAt_eq found, current, trail]
    exact Nat.le_refl _
  · exact absurd rfl apart

end Asserting

namespace Solver

theorem insert_asserting_unit {s : Solver} {formula : List Clause} {l : Literal}
    (invariant : s.Invariant formula fun _ => False) (room : s.HasRoom)
    (asserting : Asserting formula s l []) (blockDistance : Option Nat) :
    ∃ s', s.insert [l] .resolution blockDistance = (.ok (.additionUnit l), s') ∧
      s'.Taught formula (.unit l) ∧ s'.status = s.status := by
  obtain ⟨s', answer, invariant', atoms, trail, status⟩ :=
    invariant.insert_unit room .resolution blockDistance (List.Subset.refl _) asserting.entailed
      fun _ => .inl
  exact ⟨s', answer, ⟨invariant', asserting.congr atoms trail⟩, status⟩

theorem insert_asserting {s : Solver} {formula : List Clause} {l m : Literal} {rest : Clause}
    (invariant : s.Invariant formula fun _ => False)
    (takes : s.clauses.store.Takes (l :: m :: rest) .resolution)
    (asserting : Asserting formula s l (m :: rest)) (blockDistance : Option Nat) :
    ∃ key s', s.insert (l :: m :: rest) .resolution blockDistance = (.ok key, s') ∧
      s'.Invariant formula (· = key) ∧
      s'.clauses.store.get key = .ok ⟨key, (l :: m :: rest).toArray, 1⟩ ∧
      s'.atoms = s.atoms ∧ s'.trail = s.trail ∧ s'.status = s.status := by
  have agrees := invariant.coherent.agrees
  have known : ∀ o ∈ l :: m :: rest, o ≠ 0 ∧ o.natAbs < s.atoms.size := by
    intro o member
    rcases List.mem_cons.1 member with rfl | member
    · exact ⟨asserting.nonzero, asserting.unvalued.1⟩
    · have false := asserting.false o member
      have inside := agrees.known false
      rw [Int.natAbs_neg] at inside
      exact ⟨Int.neg_ne_zero.1 (agrees.nonzero false), inside⟩
  obtain ⟨key, s', answer, invariant', live, kept⟩ :=
    invariant.insert_long takes (by simp) asserting.distinct known blockDistance
      (List.Subset.refl _) asserting.entailed fun _ => .inl
  refine ⟨key, s', answer, invariant', ?_, kept⟩
  rw [live, WatchedClause.ofClause_asserting key]
  · have none := (agrees.literalValue_eq_none_iff asserting.nonzero).2
      ((agrees.assignment?_eq_none_iff asserting.nonzero).1 asserting.unvalued.2)
    intro impossible
    rw [AtomTable.literalValue] at none
    cases none.symm.trans impossible
  · intro o member
    exact agrees.literalValue_of_neg_mem (asserting.false o member)

theorem insert_asserting_long {s : Solver} {formula : List Clause} {l m : Literal} {rest : Clause}
    (invariant : s.Invariant formula fun _ => False)
    (takes : s.clauses.store.Takes (l :: m :: rest) .resolution)
    (asserting : Asserting formula s l (m :: rest)) (blockDistance : Option Nat) :
    ∃ key s', s.insert (l :: m :: rest) .resolution blockDistance = (.ok key, s') ∧
      s'.Taught formula (.asserting l key) ∧ s'.status = s.status := by
  obtain ⟨key, s', answer, invariant', live, atoms, trail, status⟩ :=
    insert_asserting invariant takes asserting blockDistance
  exact ⟨key, s', answer, ⟨invariant', m, rest, live, asserting.congr atoms trail⟩, status⟩

theorem Taught.assert_unit {s : Solver} {formula : List Clause} {l : Literal}
    (taught : s.Taught formula (.unit l)) :
    ∃ s', s.assertLesson l (.unit (.additionUnit l)) = (.ok (), s') ∧
      s'.Invariant formula (fun _ => False) ∧ s'.status = s.status := by
  obtain ⟨invariant, asserting⟩ := taught
  obtain ⟨s', answer, after⟩ :=
    Invariant.assert_unit .resolution invariant (asserting.unit rfl) asserting.nonzero
      asserting.unvalued asserting.entailed
  rw [unitKey] at answer
  exact ⟨s', by simp only [assertLesson, answer], after⟩

theorem Taught.assert_long {s : Solver} {formula : List Clause} {l : Literal} {key : ClauseKey}
    (taught : s.Taught formula (.asserting l key)) :
    ∃ s', s.assertLesson l (.propagation key) = (.ok (), s') ∧
      s'.Invariant formula (fun _ => False) ∧ s'.status = s.status := by
  obtain ⟨invariant, m, rest, live, asserting⟩ := taught
  obtain ⟨s', answer, gains, trail⟩ :=
    assign_of_unvalued invariant.coherent (.propagation key) asserting.unvalued
  have outside : s.trail.literals.size ∉ s'.trail.starts := by
    rw [trail]
    exact invariant.coherent.trail.size_not_mem_starts
  have fact (zero : s'.trail.level = 0) : Entails formula [l] := by
    rw [trail] at zero
    exact asserting.unit_entailed invariant.coherent invariant.entailed zero
  have gained := invariant.gain gains asserting.nonzero asserting.unvalued.2
    ⟨outside, _, live, asserting.implies gains trail⟩ fact
  have guards := asserting.guards gains trail gained.coherent.agrees s'.trail.head
  refine ⟨s', by simp only [assertLesson, answer], gained.enforce_long ?_ guards, gains.status⟩
  rw [gains.clauses]
  exact live

theorem Taught.assertion {s : Solver} {formula : List Clause} {lesson : Lesson}
    (taught : s.Taught formula lesson) {l : Literal} {source : Source}
    (literal : lesson.assertion? = some (l, source)) :
    ∃ s', s.assertLesson l source = (.ok (), s') ∧ s'.Invariant formula (fun _ => False) ∧
      s'.status = s.status := by
  cases lesson with
  | fundamentalConflict => cases literal
  | unit l =>
    cases literal
    exact taught.assert_unit
  | asserting l key =>
    cases literal
    exact taught.assert_long

theorem assign_of_assertLesson {s s' : Solver} {l : Literal} {source : Source}
    (answer : s.assertLesson l source = (.ok (), s')) : s.assign l source = (.assigned, s') := by
  unfold assertLesson at answer
  split at answer
  · rename_i assigned
    cases answer
    exact assigned
  · cases answer

section Analysis

variable {s : Solver} {formula : List Clause} {key : ClauseKey} {l m : Literal} {rest : Clause}

theorem Invariant.derive (invariant : s.Invariant formula fun _ => False)
    (conflicting : s.Conflicting key) (decided : s.trail.hasDecision = true) :
    ∃ l rest s', s.derive key = (.ok (l :: rest), s') ∧ s.Resembles (s'.rewardAtoms (l :: rest)) ∧
      (s'.rewardAtoms (l :: rest)).Invariant formula (fun _ => False) ∧
      Derived formula s.trail l rest := by
  obtain ⟨l, rest, s', answer, same, marked, derived⟩ :=
    derive_spec conflicting invariant.coherent invariant.entailed (Trail.hasDecision_iff.1 decided)
  obtain ⟨rewarded, buffer⟩ := s'.rewardAtoms_resembles (l :: rest)
  have all := same.trans rewarded
  exact ⟨l, rest, s', answer, all, invariant.congr all (buffer ▸ marked), derived⟩

theorem Invariant.assertionLevel_eq (invariant : s.Invariant formula fun _ => False)
    (derived : Derived formula s.trail l (m :: rest)) :
    ∃ i : Nat, s.trail.literals[i]? = some (-m) ∧ s.trail.levelAt i < s.trail.level ∧
      s.assertionLevel (l :: m :: rest) = (.ok (s.trail.levelAt i), s) := by
  obtain ⟨i, found, below, level⟩ :=
    derived.assertionLevel invariant.coherent.agrees (m := m) rfl
  exact ⟨i, found, below, by simp only [Solver.assertionLevel, level, noteError]⟩

theorem Invariant.retreat_unit (invariant : s.Invariant formula fun _ => False)
    (derived : Derived formula s.trail l []) : Asserting formula (s.backjump 0) l [] := by
  have retreats := backjump_retreats invariant.coherent.aligned 0
  exact derived.retreat invariant.coherent retreats derived.decided (fun _ => rfl)
    fun m front => by cases front

theorem Invariant.retreat_long (invariant : s.Invariant formula fun _ => False)
    (derived : Derived formula s.trail l (m :: rest)) {i : Nat}
    (found : s.trail.literals[i]? = some (-m)) (below : s.trail.levelAt i < s.trail.level) :
    Asserting formula (s.backjump (s.trail.levelAt i)) l (m :: rest) := by
  have retreats := backjump_retreats invariant.coherent.aligned (s.trail.levelAt i)
  refine derived.retreat invariant.coherent retreats below (fun none => by cases none) ?_
  intro first front
  obtain rfl : m = first := Option.some.inj front
  exact ⟨i, found, rfl⟩

def Analysed (formula : List Clause) (s : Solver) : Except Failure Lesson → Prop
  | .ok (.unit l) => s.Taught formula (.unit l)
  | .ok (.asserting l key) => s.Taught formula (.asserting l key)
  | .ok .fundamentalConflict => s.Invariant formula fun _ => False
  | .error _ => s.Invariant formula fun _ => False

theorem Invariant.refused (invariant : s.Invariant formula fun _ => False) {c : Clause}
    {origin : ClauseOrigin} {failure : Failure} (refuses : s.Refuses c origin failure s') :
    s'.Invariant formula fun _ => False := by
  obtain ⟨same, buffer⟩ := refuses.resembles
  exact invariant.congr same (buffer ▸ invariant.coherent.marked)

theorem Invariant.learn (invariant : s.Invariant formula fun _ => False)
    (derived : Derived formula s.trail l rest) :
    (s.learn (l :: rest)).2.Analysed formula (s.learn (l :: rest)).1 ∧
      (s.learn (l :: rest)).2.status = s.status := by
  cases rest with
  | nil =>
    have retreated := invariant.backjump 0
    have status := (backjump_retreats invariant.coherent.aligned 0).status
    rw [Solver.learn]
    by_cases takes : (s.backjump 0).clauses.store.Takes [l] .resolution
    · obtain ⟨s', answer, taught, status'⟩ :=
        insert_asserting_unit retreated takes.room (invariant.retreat_unit derived) none
      simp only [answer]
      exact ⟨taught, status'.trans status⟩
    · obtain ⟨failure, s', answer, refuses⟩ := insert_refused (by simp) takes none
      simp only [answer]
      exact ⟨retreated.refused refuses, refuses.resembles.1.status.trans status⟩
  | cons m rest =>
    obtain ⟨i, found, below, level⟩ := invariant.assertionLevel_eq derived
    have retreated := invariant.backjump (s.trail.levelAt i)
    have status := (backjump_retreats invariant.coherent.aligned (s.trail.levelAt i)).status
    simp only [Solver.learn, level]
    by_cases takes : (s.backjump (s.trail.levelAt i)).clauses.store.Takes (l :: m :: rest)
      .resolution
    · obtain ⟨key, s', answer, taught, status'⟩ := insert_asserting_long retreated takes
        (invariant.retreat_long derived found below)
        (some (Clause.blockDistance s.atoms.level (l :: m :: rest)))
      simp only [answer]
      exact ⟨taught, status'.trans status⟩
    · obtain ⟨failure, s', answer, refuses⟩ := insert_refused (by simp) takes
        (some (Clause.blockDistance s.atoms.level (l :: m :: rest)))
      simp only [answer]
      exact ⟨retreated.refused refuses, refuses.resembles.1.status.trans status⟩

theorem Invariant.analyse_eq (invariant : s.Invariant formula fun _ => False)
    (conflicting : s.Conflicting key) (decided : s.trail.hasDecision = true) :
    ∃ before after l rest s', Solver.derive { s with journal := before } key =
        (.ok (l :: rest), s') ∧
      s.analyse key =
        Solver.learn { s'.rewardAtoms (l :: rest) with journal := after } (l :: rest) ∧
      s.Resembles { s'.rewardAtoms (l :: rest) with journal := after } ∧
      Invariant formula (fun _ => False) { s'.rewardAtoms (l :: rest) with journal := after } ∧
      Derived formula (s'.rewardAtoms (l :: rest)).trail l rest := by
  obtain ⟨before, noted⟩ := s.note_eq .trace .analysis fun _ =>
    "Analysis of " ++ key.text ++ " at level " ++ toString s.trail.level
  have opened : Invariant formula (fun _ => False) { s with journal := before } :=
    invariant.of_eq rfl rfl rfl rfl rfl rfl
  obtain ⟨l, rest, s', answer, same, rewarded, derived⟩ := opened.derive conflicting decided
  obtain ⟨after, noted'⟩ := (s'.rewardAtoms (l :: rest)).note_eq .trace .analysis fun _ =>
    "Learned " ++ Clause.text (l :: rest)
  refine ⟨before, after, l, rest, s', answer, ?_, ?_, rewarded.of_eq rfl rfl rfl rfl rfl rfl, ?_⟩
  · simp only [Solver.analyse, decided, if_true, noted, answer, noted']
  · have first : s.Resembles { s with journal := before } := .of_eq rfl rfl rfl rfl rfl
    exact (first.trans same).trans (.of_eq rfl rfl rfl rfl rfl)
  · rw [same.trail]
    exact derived

theorem Invariant.analyse (invariant : s.Invariant formula fun _ => False)
    (conflicting : s.Conflicting key) :
    (s.analyse key).2.Analysed formula (s.analyse key).1 ∧
      (s.analyse key).2.status = s.status := by
  cases decided : s.trail.hasDecision with
  | true =>
    obtain ⟨before, after, l, rest, s', -, analysed, same, rewarded, derived⟩ :=
      invariant.analyse_eq conflicting decided
    obtain ⟨learned, status⟩ := rewarded.learn derived
    rw [analysed]
    exact ⟨learned, status.trans same.status⟩
  | false =>
    obtain ⟨journal, noted⟩ := s.note_eq .info .analysis fun _ =>
      "Conflict on " ++ key.text ++ " without a decision"
    have analysed : s.analyse key = (.ok .fundamentalConflict, { s with journal }) := by
      simp [Solver.analyse, decided, noted]
    rw [analysed]
    exact ⟨invariant.of_eq rfl rfl rfl rfl rfl rfl, rfl⟩

end Analysis

end Solver

end ClauseLearning
