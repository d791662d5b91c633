import ClauseLearning.Proofs.Search
import ClauseLearning.Proofs.UnitPropagation
import ClauseLearning.Solver.Model

namespace ClauseLearning

theorem List.mapM_eq_some_map {α β : Type} {f : α → Option β} {g : α → β} {xs : List α}
    (total : ∀ x ∈ xs, f x = some (g x)) : xs.mapM f = some (xs.map g) := by
  induction xs with
  | nil => rfl
  | cons x rest ih =>
    rw [List.mapM_cons, total x List.mem_cons_self,
      ih fun y member => total y (List.mem_cons_of_mem x member)]
    rfl

namespace Solver

variable {s s' : Solver} {formula : List Clause}

/-- The model shown gives each atom in order one literal, and every clause has one of them. -/
def HasModel (formula : List Clause) (s : Solver) : Prop :=
  ∃ m, s.model? = some m ∧ m.map Int.natAbs = List.range' 1 s.atomCount ∧
    ∀ c ∈ formula, ∃ l ∈ c, l ∈ m

theorem HasModel.satisfiable (hasModel : s.HasModel formula) : ∃ v : World, v.Models formula := by
  obtain ⟨m, -, atoms, models⟩ := hasModel
  have distinct : (m.map Int.natAbs).Nodup := atoms ▸ List.nodup_range'
  refine ⟨fun a => decide ((a : Int) ∈ m), fun c member => ?_⟩
  obtain ⟨l, literal, isTrue⟩ := models c member
  have positive : 0 < l.natAbs := by
    have known : l.natAbs ∈ List.range' 1 s.atomCount := atoms ▸ List.mem_map_of_mem isTrue
    exact (List.mem_range'_1.1 known).1
  refine ⟨l, literal, ?_⟩
  rw [Literal.HoldsIn, Literal.polarity, decide_eq_decide]
  constructor
  · intro member
    have same := List.inj_on_of_nodup_map distinct member isTrue (Int.natAbs_natCast _)
    omega
  · intro isPositive
    rwa [Int.natAbs_of_nonneg isPositive.le]

theorem Invariant.true_of_quiet (invariant : s.Invariant formula fun _ => False)
    (quiet : s.trail.head = s.trail.literals.size) (valued : ∀ a, ¬s.atoms.Unvalued a) :
    ∀ d ∈ s.clauses.store.originalClauses, ∃ l ∈ d, l ∈ s.trail.literals := by
  intro d stored
  simp only [ClauseStore.originalClauses, List.mem_append, List.mem_map] at stored
  rcases stored with ⟨l, unit, rfl⟩ | ⟨c, stored, rfl⟩
  · obtain ⟨i, found, -⟩ := invariant.grounded.originalUnits l (Array.mem_toList_iff.1 unit) id
    exact ⟨l, List.mem_cons_self, Array.mem_of_getElem? found⟩
  · have wellFormed := invariant.coherent.orderly.wellFormed
    have live := wellFormed.mem_longClauses.1 (List.mem_append_left _ stored)
    have shaped := wellFormed.shaped c.key c live
    obtain ⟨nonzero, known⟩ := shaped.known c.first shaped.first_mem
    by_cases isTrue : c.first ∈ s.trail.literals
    · exact ⟨c.first, shaped.first_mem, isTrue⟩
    · cases assigned : s.atoms.assignment? c.first.natAbs with
      | none => exact absurd ⟨known, assigned⟩ (valued _)
      | some assignment =>
        have isFalse :=
          (invariant.coherent.agrees.mem_or_neg_mem nonzero assigned).resolve_left isTrue
        have guards := invariant.guarded c.key c live id
        rw [quiet] at guards
        exact ⟨c.second, shaped.second_mem,
          guards.mem_of_neg_mem (.inl rfl) (.inr rfl) shaped.first_ne_second isFalse⟩

theorem Settled.hasModel (settled : s.Settled formula) (satisfiable : s.status = .satisfiable) :
    s.HasModel formula := by
  obtain ⟨valued, quiet⟩ := settled.complete satisfiable
  obtain ⟨coherent, -, -, -, -, covered⟩ := settled.invariant
  have size : s.atoms.valuation.size = s.atoms.size := by
    simp [AtomTable.valuation, AtomTable.size]
  have bounds (a count : Nat) : 1 ≤ a ∧ a < 1 + (count - 1) ↔ 0 < a ∧ a < count := by omega
  have atoms (a : Atom) : a ∈ s.atoms.valuation.atoms ↔ 0 < a ∧ a < s.atoms.size := by
    rw [Valuation.atoms, size, List.mem_range'_1]
    exact bounds a s.atoms.size
  have max (a : Atom) (known : a < s.atoms.size) : a ≤ Atom.max :=
    Nat.le_of_lt_succ (known.trans_le coherent.bounded)
  let value (a : Atom) : Bool := (s.value a).getD false
  have total (a : Atom) (member : a ∈ s.atoms.valuation.atoms) :
      (s.value a).map (Literal.ofAtom a) = some (Literal.ofAtom a (value a)) := by
    simp only [value, Solver.value, AtomTable.value_eq]
    cases assigned : s.atoms.assignment? a with
    | none => exact absurd ⟨((atoms a).1 member).2, assigned⟩ (valued a)
    | some assignment => rfl
  refine ⟨s.atoms.valuation.atoms.map fun a => Literal.ofAtom a (value a), ?_, ?_, ?_⟩
  · rw [model?, if_pos satisfiable]
    exact List.mapM_eq_some_map total
  · rw [List.map_map, Valuation.atoms, size]
    refine (List.map_congr_left fun a member => ?_).trans (List.map_id _)
    rw [← size] at member
    exact Literal.natAbs_ofAtom (max a ((atoms a).1 member).2) (value a)
  -- Part of the clause is stored, and with every value given one of its literals is true.
  · intro c member
    have consistent : s.status ≠ .unsatisfiable := by simp [satisfiable]
    obtain ⟨d, stored, subset⟩ := covered.resolve_left consistent c member
    obtain ⟨l, inside, isTrue⟩ := settled.invariant.true_of_quiet quiet valued d stored
    refine ⟨l, subset inside, List.mem_map.2 ⟨l.natAbs, (atoms _).2 ?_, ?_⟩⟩
    · exact ⟨Literal.natAbs_pos.2 (coherent.agrees.nonzero isTrue), coherent.agrees.known isTrue⟩
    · obtain ⟨i, found⟩ := Array.getElem?_of_mem isTrue
      obtain ⟨-, source, assigned⟩ := coherent.agrees.listed i l found
      have polarity : value l.natAbs = Literal.polarity l := by
        simp only [value, Solver.value, AtomTable.value_eq, assigned, Option.map_some,
          Option.getD_some]
      rw [polarity]
      exact Literal.ofAtom_natAbs (max _ (coherent.agrees.known isTrue))

theorem report_eq_satisfiable_iff : s.report = .satisfiable ↔ s.status = .satisfiable := by
  unfold report
  cases s.status <;> simp [Report.ofStatus]

theorem report_eq_unsatisfiable_iff : s.report = .unsatisfiable ↔ s.status = .unsatisfiable := by
  unfold report
  cases s.status <;> simp [Report.ofStatus]

theorem isSettled_of_unsatisfiable (unsatisfiable : s.status = .unsatisfiable) :
    s.isSettled = true := by
  simp [isSettled, unsatisfiable]

section Answers

variable {settings : Settings} {accepted : List Clause} {passes : Nat}

theorem Reachable.solve (reachable : Reachable settings ⟨accepted, .between, s⟩) {report : Report}
    (answer : (s.solve passes).1 = .ok (some report)) :
    Reachable settings ⟨accepted, .between, (s.solve passes).2⟩ ∧
      (s.solve passes).2.report = report := by
  have steps := solve_steps accepted s passes
  rw [answer] at steps
  exact ⟨reachable.trans steps, solve_report (Prod.ext answer rfl)⟩

/-- A search that answers satisfiable leaves a model of all clauses that were accepted. -/
theorem solve_satisfiable (reachable : Reachable settings ⟨accepted, .between, s⟩)
    (answer : (s.solve passes).1 = .ok (some .satisfiable)) :
    (s.solve passes).2.HasModel accepted := by
  obtain ⟨reachable', reported⟩ := reachable.solve answer
  have settled : (s.solve passes).2.Settled accepted := reachable'.good
  exact settled.hasModel (report_eq_satisfiable_iff.1 reported)

theorem solve_twoClauses_satisfiable :
    (twoClauses.solve 1).1 = .ok (some .satisfiable) ∧
      (twoClauses.solve 1).2.HasModel [[1, 2], [-1]] := by
  have answer : (twoClauses.solve 1).1 = .ok (some .satisfiable) := by
    rw [twoClauses, addClause_of_normal _ normalise_pair]
    decide +kernel
  exact ⟨answer, solve_satisfiable twoClauses_reachable answer⟩

/-- There is no model, and this is the answer whatever is called before. -/
def Refuted (config : Config) : Prop :=
  ∀ later, Steps config later →
    later.stage = .between ∧ later.solver.status = .unsatisfiable ∧
      (∀ v : World, ¬v.Models later.accepted) ∧
      ∀ passes, later.solver.solve passes = (.ok (some .unsatisfiable), later.solver)

theorem Step.unsatisfiable {before after : Config} (step : Step before after)
    (good : before.solver.Good before.accepted before.stage) (between : before.stage = .between)
    (unsatisfiable : before.solver.status = .unsatisfiable) :
    after.stage = .between ∧ after.solver.status = .unsatisfiable := by
  cases step with
  | outside => exact ⟨between, unsatisfiable⟩
  | listen => exact ⟨between, unsatisfiable⟩
  | freshAtom s => exact ⟨rfl, (s.freshAtom_grows.builds _ good).2 unsatisfiable⟩
  | ensureAtoms s a => exact ⟨rfl, ((s.ensureAtoms_grows a).builds _ good).2 unsatisfiable⟩
  | addClause s c => exact ⟨rfl, ((s.addClause_grows c).builds _ good).2 unsatisfiable⟩
  | readDimacs s file => exact ⟨rfl, ((s.readDimacs_grows file).builds _ good).2 unsatisfiable⟩
  | start unsettled =>
    cases unsettled.symm.trans (isSettled_of_unsatisfiable unsatisfiable)
  | _ => cases between

theorem Reachable.refuted (reachable : Reachable settings ⟨accepted, .between, s⟩)
    (unsatisfiable : s.status = .unsatisfiable) : Refuted ⟨accepted, .between, s⟩ := by
  intro later steps
  -- No search begins once the formula is settled, so the run stays between calls.
  have stays : later.stage = .between ∧ later.solver.status = .unsatisfiable := by
    induction steps with
    | refl => exact ⟨rfl, unsatisfiable⟩
    | tail steps step ih => exact step.unsatisfiable (Steps.good steps reachable.good) ih.1 ih.2
  have good := Steps.good steps reachable.good
  rw [stays.1] at good
  refine ⟨stays.1, stays.2, (good.invariant.entailed.refuted stays.2).not_models_of_nil, ?_⟩
  intro passes
  rw [Solver.solve, if_pos (isSettled_of_unsatisfiable stays.2),
    report_eq_unsatisfiable_iff.2 stays.2]

/-- A formula that is said to have no model has none, and nothing changes that. -/
theorem solve_unsatisfiable (reachable : Reachable settings ⟨accepted, .between, s⟩) :
    (∀ passes, (s.solve passes).1 = .ok (some .unsatisfiable) →
        Refuted ⟨accepted, .between, (s.solve passes).2⟩) ∧
      (∀ c, (s.addClause c).2.status = .unsatisfiable →
        Refuted ⟨accepted ++ accepts c (s.addClause c).1, .between, (s.addClause c).2⟩) ∧
      (s.status = .unsatisfiable → Refuted ⟨accepted, .between, s⟩) := by
  refine ⟨fun passes answer => ?_, fun c unsatisfiable => ?_, reachable.refuted⟩
  · obtain ⟨reachable', reported⟩ := reachable.solve answer
    exact reachable'.refuted (report_eq_unsatisfiable_iff.1 reported)
  · have added : Reachable settings
        ⟨accepted ++ accepts c (s.addClause c).1, .between, (s.addClause c).2⟩ :=
      reachable.tail (.addClause s c)
    exact added.refuted unsatisfiable

theorem solve_twoClauses_unsatisfiable :
    ((twoClauses.addClause [-2]).2.solve 1).1 = .ok (some .unsatisfiable) ∧
      Refuted ⟨[[1, 2], [-1], [-2]], .between, ((twoClauses.addClause [-2]).2.solve 1).2⟩ ∧
      (twoClauses.addClause [1]).2.status = .unsatisfiable ∧
      Refuted ⟨[[1, 2], [-1], [1]], .between, (twoClauses.addClause [1]).2⟩ := by
  have added : (twoClauses.addClause [-2]).1 = .ok .added := by
    rw [twoClauses, addClause_of_normal _ normalise_pair]
    decide +kernel
  have answer : ((twoClauses.addClause [-2]).2.solve 1).1 = .ok (some .unsatisfiable) := by
    rw [twoClauses, addClause_of_normal _ normalise_pair]
    decide +kernel
  have opposite : (twoClauses.addClause [1]).1 = .ok .added := by
    rw [twoClauses, addClause_of_normal _ normalise_pair]
    decide +kernel
  have status : (twoClauses.addClause [1]).2.status = .unsatisfiable := by
    rw [twoClauses, addClause_of_normal _ normalise_pair]
    decide +kernel
  have refuted := (solve_unsatisfiable twoClauses_reachable).2.1 [1] status
  rw [opposite] at refuted
  exact ⟨answer, (solve_unsatisfiable (twoClauses_reachable.addClause added)).1 1 answer, status,
    refuted⟩

theorem Good.exists_invariant {stage : Stage} (good : s.Good formula stage) :
    ∃ exempt, s.Invariant formula exempt := by
  cases stage with
  | between => exact ⟨_, good.invariant⟩
  | drawing => exact ⟨_, good.invariant⟩
  | asserted => exact ⟨_, good.invariant⟩
  | rested => exact ⟨_, good.invariant⟩
  | quiet => exact ⟨_, good.1.invariant⟩
  | clash key => exact ⟨_, good.1.invariant⟩
  | derived c => exact ⟨_, good.1.invariant⟩
  | retreated c blockDistance => exact ⟨_, good.1.invariant⟩
  | taught lesson =>
    cases lesson with
    | fundamentalConflict => exact good.1.elim
    | unit l => exact ⟨_, good.1.1⟩
    | asserting l key => exact ⟨_, good.1.1⟩

theorem Entailed.stored (entailed : s.Entailed formula) (coherent : s.Coherent) {c : Clause}
    (stored : c ∈ s.store.originalClauses ++ s.store.additionClauses) : Entails formula c := by
  rcases coherent.orderly.wellFormed.mem_stored.1 stored with
    ⟨l, rfl, original | addition⟩ | ⟨key, d, live, rfl⟩
  · exact entailed.originalUnits l original
  · exact entailed.additionUnits l addition
  · exact entailed.long key d live

theorem Entailed.fixed (entailed : s.Entailed formula) (coherent : s.Coherent) {l : Literal}
    (isTrue : s.literalValue l = some true) (fixed : s.atoms.level l.natAbs = some 0) :
    Entails formula [l] := by
  have agrees := coherent.agrees
  have nonzero : l ≠ 0 := by
    rintro rfl
    simp [literalValue, AtomTable.literalValue_eq, agrees.top, Literal.polarity] at isTrue
  obtain ⟨i, found⟩ :=
    Array.getElem?_of_mem ((agrees.literalValue_eq_true_iff nonzero).1 isTrue)
  rw [agrees.level_of_getElem? found] at fixed
  exact entailed.zero i l found (Option.some.inj fixed)

/-- At any time of a run, what is stored, what was learned and what is true at level zero follows
from the clauses that were accepted. -/
theorem reachable_entailed {config : Config} (reachable : Reachable settings config) :
    (∀ c ∈ config.solver.store.originalClauses ++ config.solver.store.additionClauses,
        Entails config.accepted c) ∧
      (∀ collected, config.solver.learned = some collected →
        ∀ c ∈ collected, Entails config.accepted c) ∧
      ∀ l, config.solver.literalValue l = some true →
        config.solver.atoms.level l.natAbs = some 0 → Entails config.accepted [l] := by
  obtain ⟨exempt, invariant⟩ := reachable.good.exists_invariant
  have entailed := invariant.entailed
  refine ⟨fun c stored => ?_, entailed.learned, fun l isTrue fixed => ?_⟩
  · exact entailed.stored invariant.coherent stored
  · exact entailed.fixed invariant.coherent isTrue fixed

theorem twoClauses_entailed :
    Reachable {} ⟨[[1, 2], [-1]], .quiet, twoClauses.start.propagate.2⟩ ∧
      twoClauses.start.propagate.2.literalValue 2 = some true ∧
      twoClauses.start.propagate.2.atoms.level 2 = some 0 ∧ Entails [[1, 2], [-1]] [2] := by
  have complete : twoClauses.start.propagate.1 = .ok .complete := by
    rw [twoClauses, addClause_of_normal _ normalise_pair]
    decide +kernel
  have isTrue : twoClauses.start.propagate.2.literalValue 2 = some true := by
    rw [twoClauses, addClause_of_normal _ normalise_pair]
    decide +kernel
  have fixed : twoClauses.start.propagate.2.atoms.level 2 = some 0 := by
    rw [twoClauses, addClause_of_normal _ normalise_pair]
    decide +kernel
  have steps := propagate_steps [[1, 2], [-1]] twoClauses.start
  rw [complete] at steps
  have reachable : Reachable {} ⟨[[1, 2], [-1]], .quiet, twoClauses.start.propagate.2⟩ :=
    twoClauses_start_reachable.trans steps
  exact ⟨reachable, isTrue, fixed, (reachable_entailed reachable).2.2 2 isTrue fixed⟩

/-- Unless there is no model, the original clauses that are stored have the same models as the
clauses that were accepted, of which they are parts. -/
theorem reachable_models_iff {config : Config} (reachable : Reachable settings config)
    (consistent : config.solver.status ≠ .unsatisfiable) (v : World) :
    v.Models config.accepted ↔ v.Models config.solver.store.originalClauses := by
  obtain ⟨exempt, invariant⟩ := reachable.good.exists_invariant
  constructor
  · intro models c stored
    have entailed := invariant.entailed.stored invariant.coherent (List.mem_append_left _ stored)
    exact entailed v models
  · intro models c member
    obtain ⟨d, stored, part⟩ := invariant.covered.resolve_left consistent c member
    exact (models d stored).subset part

def thirdClause : Solver := (((twoClauses.solve 1).2.ensureAtoms 3).2.addClause [-2, 3]).2

theorem thirdClause_models_iff :
    Reachable {} ⟨[[1, 2], [-1], [-2, 3]], .between, thirdClause⟩ ∧
      thirdClause.status ≠ .unsatisfiable ∧
      thirdClause.store.originalClauses = [[-1], [3], [2, 1]] ∧
      ∀ v : World, v.Models [[1, 2], [-1], [-2, 3]] ↔ v.Models [[-1], [3], [2, 1]] := by
  have normal : Clause.normalise [-2, 3] = [-2, 3] := Clause.normalise_of_sorted (by decide)
  have answer : (twoClauses.solve 1).1 = .ok (some .satisfiable) := by
    rw [twoClauses, addClause_of_normal _ normalise_pair]
    decide +kernel
  have added : (((twoClauses.solve 1).2.ensureAtoms 3).2.addClause [-2, 3]).1 = .ok .added := by
    rw [addClause_of_normal _ normal, twoClauses, addClause_of_normal _ normalise_pair]
    decide +kernel
  have stored : thirdClause.store.originalClauses = [[-1], [3], [2, 1]] := by
    rw [thirdClause, addClause_of_normal _ normal, twoClauses, addClause_of_normal _ normalise_pair]
    decide +kernel
  have consistent : thirdClause.status ≠ .unsatisfiable := by
    rw [thirdClause, addClause_of_normal _ normal, twoClauses, addClause_of_normal _ normalise_pair]
    decide +kernel
  have atoms : Reachable {} ⟨[[1, 2], [-1]], .between, ((twoClauses.solve 1).2.ensureAtoms 3).2⟩ :=
    (twoClauses_reachable.solve answer).1.tail (.ensureAtoms _ 3)
  have reachable : Reachable {} ⟨[[1, 2], [-1], [-2, 3]], .between, thirdClause⟩ :=
    atoms.addClause added
  refine ⟨reachable, consistent, stored, fun v => ?_⟩
  rw [← stored]
  exact reachable_models_iff reachable consistent v

end Answers

end Solver

end ClauseLearning
