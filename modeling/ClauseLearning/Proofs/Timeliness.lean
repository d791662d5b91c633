import ClauseLearning.Proofs.Calls
import ClauseLearning.Proofs.Completeness

/-!
Decisions that wait. What is drawn belongs to the current level, so what is drawn late, after a
decision, is lost when the decision is taken back, and is not drawn again. Where each decision waits
until all consequences are drawn, propagation misses none of them, and every conflict that it finds
can be analysed.
-/

namespace ClauseLearning

def Call.WritesStatus : Call → Prop
  | .freshAtom => True
  | .ensureAtoms _ => True
  | .addClause _ => True
  | .readDimacs _ => True
  | .solve _ => True
  | _ => False

namespace Solver

variable {s s' : Solver} {formula : List Clause}

/-- Levels are opened by decisions only, these wait for what is still to be drawn, and a literal is
made true by hand only as the lesson of a conflict. -/
def Timely (s : Solver) : Call → Prop
  | .takeDecision => s.trail.next? = none
  | .propagateLiteral l => s.trail.next? = some l
  | .analyse _ => False
  | .pushLevel => False
  | .assign _ _ => False
  | _ => True

theorem acceptedBy_eq_nil {call : Call} (leaves : ¬call.WritesStatus) : s.acceptedBy call = [] := by
  cases call <;> first | rfl | exact absurd trivial leaves

def Upholds (formula : List Clause) (s s' : Solver) : Prop :=
  s'.Invariant formula (fun _ => False) ∧ s'.status = s.status

namespace Invariant

variable (invariant : s.Invariant formula fun _ => False)
include invariant

theorem upholds_of_resembles (same : s.Resembles s') (buffer : s'.buffer = s.buffer) :
    Upholds formula s s' :=
  ⟨invariant.congr same (buffer ▸ invariant.coherent.marked), same.status⟩

theorem upholds_propagate : Upholds formula s s.propagate.2 := by
  obtain ⟨s', draws, watched, ⟨answer, -⟩ | ⟨key, answer, -⟩⟩ :=
    propagate_spec invariant.watched <;>
  · rw [answer]
    exact ⟨invariant.draw draws watched, draws.status⟩

theorem upholds_propagateLiteral {l : Literal} (next : s.trail.next? = some l) :
    Upholds formula s (s.propagateLiteral l).2 := by
  obtain ⟨s', draws, watched, -, ⟨answer, -⟩ | ⟨key, answer, -⟩⟩ :=
    propagateLiteral_spec invariant.watched next <;>
  · rw [answer]
    exact ⟨invariant.draw draws watched, draws.status⟩

theorem upholds_takeDecision (last : s.trail.next? = none) :
    Upholds formula s s.takeDecision.2 := by
  have outside := Array.getElem?_eq_none_iff.1 last
  exact invariant.takeDecision (invariant.coherent.trail.head_le.antisymm outside)

theorem upholds_backjump (n : Nat) : Upholds formula s (s.backjump n) :=
  ⟨invariant.backjump n, (backjump_retreats invariant.coherent.aligned n).status⟩

theorem upholds_restart : Upholds formula s s.restart := by
  obtain ⟨counters, journal, restarted⟩ := s.restart_eq
  obtain ⟨cleared, status⟩ := invariant.upholds_backjump 0
  rw [restarted]
  exact ⟨cleared.of_eq rfl rfl rfl rfl rfl rfl, status⟩

theorem upholds_followConsequences : Upholds formula s s.followConsequences := by
  obtain ⟨s', draws, watched, ⟨answer, -⟩ | ⟨key, answer, conflicting⟩⟩ :=
    propagate_spec invariant.watched
  · simp only [Solver.followConsequences, applyConsequences, answer]
    exact ⟨invariant.draw draws watched, draws.status⟩
  · have counted : s'.countConflict.Invariant formula fun _ => False :=
      (invariant.draw draws watched).of_eq rfl rfl rfl rfl rfl rfl
    obtain ⟨analysed, status⟩ := counted.analyse conflicting
    replace status := status.trans draws.status
    have heeded {lesson : Lesson} {l : Literal} {source : Source} {t : Solver}
        (taught : t.Taught formula lesson) (literal : lesson.assertion? = some (l, source))
        (same : t.status = s.status) : Upholds formula s (t.assign l source).2 := by
      obtain ⟨t', asserted, invariant', status'⟩ := taught.assertion literal
      rw [assign_of_assertLesson asserted]
      exact ⟨invariant', status'.trans same⟩
    simp only [Solver.followConsequences, applyConsequences, answer]
    cases answered : s'.countConflict.analyse key with
    | mk result t =>
      rw [answered] at analysed status
      cases result with
      | error failure => exact ⟨analysed, status⟩
      | ok lesson =>
        cases lesson with
        | fundamentalConflict => exact ⟨analysed, status⟩
        | unit l =>
          have taught : t.Taught formula (.unit l) := analysed
          exact heeded taught rfl status
        | asserting l reason =>
          have taught : t.Taught formula (.asserting l reason) := analysed
          exact heeded taught rfl status

theorem upholds {call : Call} (timely : s.Timely call) (leaves : ¬call.WritesStatus) :
    Upholds formula s (s.perform call) := by
  cases call with
  | takeDecision => exact invariant.upholds_takeDecision timely
  | propagate => exact invariant.upholds_propagate
  | propagateLiteral l => exact invariant.upholds_propagateLiteral timely
  | applyConsequences => exact invariant.upholds_followConsequences
  | backjump n => exact invariant.upholds_backjump n
  | clearDecisions => exact invariant.upholds_backjump 0
  | restart => exact invariant.upholds_restart
  | raiseAtom a =>
    obtain ⟨raised, buffer⟩ := s.raiseAtoms_resembles [a]
    exact invariant.upholds_of_resembles raised buffer
  | decayAtoms =>
    have decayed := s.atoms_resembles _ s.atoms.decay_same AtomTable.Offering.decay
    exact invariant.upholds_of_resembles decayed rfl
  | configure settings => exact invariant.upholds_of_resembles (.of_eq rfl rfl rfl rfl rfl) rfl
  | outside => exact invariant.upholds_of_resembles (.of_eq rfl rfl rfl rfl rfl) rfl
  | analyse key => exact timely.elim
  | pushLevel => exact timely.elim
  | assign l source => exact timely.elim
  | _ => exact absurd trivial leaves

end Invariant

structure Standing (formula : List Clause) (s : Solver) : Prop where
  invariant : s.Invariant formula fun _ => False
  consistent : s.status = .satisfiable → ∃ v : World, v.Models formula

theorem Settled.standing (settled : s.Settled formula) : s.Standing formula :=
  ⟨settled.invariant, fun satisfiable => (settled.hasModel satisfiable).satisfiable⟩

theorem Settled.solve (settled : s.Settled formula) (passes : Nat) :
    (s.solve passes).2.Settled formula := by
  have searched := Steps.good (solve_steps formula s passes) settled
  cases answer : (s.solve passes).1 with
  | error failure =>
    rw [answer] at searched
    exact searched
  | ok report =>
    rw [answer] at searched
    cases report with
    | none => exact Searching.settled searched
    | some report => exact searched

namespace Standing

theorem grow (standing : s.Standing formula) {accepted : List Clause}
    (grows : s.Grows s' accepted) : s'.Standing (formula ++ accepted) := by
  obtain ⟨invariant, -, same⟩ := grows formula standing.invariant
  refine ⟨invariant, fun satisfiable => ?_⟩
  obtain ⟨rfl, resembles⟩ := same satisfiable
  rw [List.append_nil]
  exact standing.consistent (resembles.status.symm.trans satisfiable)

theorem settled (standing : s.Standing formula) (unsettled : s.isSettled = false) :
    s.Settled formula where
  invariant := standing.invariant
  complete satisfiable := by simp [isSettled, satisfiable] at unsettled

theorem solve (standing : s.Standing formula) (passes : Nat) :
    (s.solve passes).2.Standing formula := by
  cases settled : s.isSettled with
  | true =>
    rw [Solver.solve, if_pos settled]
    exact standing
  | false => exact ((standing.settled settled).solve passes).standing

theorem perform (standing : s.Standing formula) {call : Call} (timely : s.Timely call) :
    (s.perform call).Standing (formula ++ s.acceptedBy call) := by
  by_cases writes : call.WritesStatus
  · cases call with
    | freshAtom => exact standing.grow s.freshAtom_grows
    | ensureAtoms a => exact standing.grow (s.ensureAtoms_grows a)
    | addClause c => exact standing.grow (s.addClause_grows c)
    | readDimacs file => exact standing.grow (s.readDimacs_grows file)
    | solve passes => exact (List.append_nil formula).symm ▸ standing.solve passes
    | _ => exact writes.elim
  · obtain ⟨invariant, status⟩ := standing.invariant.upholds timely writes
    rw [acceptedBy_eq_nil writes, List.append_nil]
    exact ⟨invariant, fun satisfiable => standing.consistent (status.symm.trans satisfiable)⟩

theorem of_timely {settings : Settings} {calls : List Call}
    (timely : Allows Timely (new settings) calls) :
    ((new settings).performAll calls).Standing ((new settings).acceptedByAll calls) :=
  timely.keeps (fun _ _ _ allowed standing => standing.perform allowed)
    (new_settled settings).standing

end Standing

/-- Nothing is left to draw: no clause of two or more literals is false, and where all but one of
its literals are false that one is true. -/
structure Drained (s : Solver) : Prop where
  last : s.trail.next? = none
  open_or_true : ∀ c ∈ s.store.longClauses, ∃ l ∈ c.clause, s.literalValue l ≠ some false
  unit_true : ∀ c ∈ s.store.longClauses, ∀ l ∈ c.clause,
    (∀ m ∈ c.clause, m ≠ l → s.literalValue m = some false) → s.literalValue l = some true

theorem Watched.drained (watched : s.Watched) (quiet : s.trail.head = s.trail.literals.size) :
    s.Drained := by
  have agrees := watched.coherent.agrees
  have wellFormed := watched.coherent.orderly.wellFormed
  have false_iff {c : WatchedClause} (stored : c ∈ s.store.longClauses) {l : Literal}
      (member : l ∈ c.clause) : s.literalValue l = some false ↔ -l ∈ s.trail.literals :=
    agrees.literalValue_eq_false_iff
      ((wellFormed.shaped c.key c (wellFormed.mem_longClauses.1 stored)).known l member).1
  constructor
  · exact Array.getElem?_eq_none quiet.ge
  · intro c stored
    obtain ⟨l, member, kept⟩ :=
      watched.not_all_false quiet (wellFormed.mem_longClauses.1 stored)
    exact ⟨l, member, fun isFalse => kept ((false_iff stored member).1 isFalse)⟩
  · intro c stored l member others
    refine agrees.literalValue_of_mem ?_
    refine watched.mem_of_others_false quiet (wellFormed.mem_longClauses.1 stored) ?_
    exact fun m inside apart => (false_iff stored inside).1 (others m inside apart)

def Drains (s : Solver) : Prop :=
  (s.propagate.1 = .ok .complete ∧ s.propagate.2.Drained) ∨
    ∃ key c, s.propagate.1 = .ok (.conflict key) ∧ s.propagate.2.store.get key = .ok c ∧
      ∀ l ∈ c.clause, s.propagate.2.literalValue l = some false

theorem Invariant.drains (invariant : s.Invariant formula fun _ => False) : s.Drains := by
  obtain ⟨s', draws, watched, ⟨answer, quiet⟩ | ⟨key, answer, conflicting⟩⟩ :=
    propagate_spec invariant.watched
  · rw [Drains, answer]
    exact .inl ⟨rfl, watched.drained quiet⟩
  · obtain ⟨c, live, refuted, -⟩ := conflicting
    rw [Drains, answer]
    exact .inr ⟨key, c, rfl, live, fun l member =>
      watched.coherent.agrees.literalValue_of_neg_mem (refuted l member)⟩

/-- After timely calls propagation without a conflict leaves nothing to draw, however often the
search went back before. -/
theorem performAll_drains {settings : Settings} {calls : List Call}
    (timely : Allows Timely (new settings) calls) : ((new settings).performAll calls).Drains :=
  (Standing.of_timely timely).invariant.drains

def implyingCalls : List Call := [.ensureAtoms 3, .addClause [-1, 3], .addClause [1]]

def implying : Solver := ((((new {}).ensureAtoms 3).2.addNormal [-1, 3]).2.addNormal [1]).2

theorem performAll_implying (calls : List Call) :
    (new {}).performAll (implyingCalls ++ calls) = implying.performAll calls := by
  have normal : Clause.normalise [-1, 3] = [-1, 3] := Clause.normalise_of_sorted (by decide)
  simp only [performAll, implyingCalls, List.cons_append, List.nil_append, List.foldl_cons, perform,
    addClause_of_normal _ normal, addClause_of_normal _ (Clause.normalise_singleton 1), implying]

def patientCalls : List Call := implyingCalls ++ [.propagate, .takeDecision, .backjump 0]

theorem patientCalls_drain :
    Allows Timely (new {}) patientCalls ∧
      ((new {}).performAll patientCalls).propagate.1 = .ok .complete ∧
      ((new {}).performAll patientCalls).propagate.2.trail.literals = #[1, 3] ∧
      ((new {}).performAll patientCalls).Drains := by
  have drawn : ((new {}).performAll (implyingCalls ++ [.propagate])).trail.next? = none := by
    rw [performAll_implying]
    decide +kernel
  have timely : Allows Timely (new {}) patientCalls :=
    ⟨trivial, trivial, trivial, trivial, drawn, trivial, trivial⟩
  refine ⟨timely, ?_, ?_, performAll_drains timely⟩
  · rw [patientCalls, performAll_implying]
    decide +kernel
  · rw [patientCalls, performAll_implying]
    decide +kernel

def hurriedCalls : List Call := implyingCalls ++ [.takeDecision, .propagate, .backjump 0]

theorem hurriedCalls_not_drain :
    ((new {}).performAll hurriedCalls).propagate.1 = .ok .complete ∧
      ((new {}).performAll hurriedCalls).propagate.2.trail.literals = #[1] ∧
      ((new {}).performAll hurriedCalls).propagate.2.literalValue 3 = none ∧
      ¬((new {}).performAll hurriedCalls).propagate.2.Drained ∧
      ¬((new {}).performAll hurriedCalls).Drains := by
  rw [hurriedCalls, performAll_implying, Drains]
  have complete : (implying.performAll [.takeDecision, .propagate, .backjump 0]).propagate.1 =
      .ok .complete := by
    decide +kernel
  rw [complete]
  generalize after : (implying.performAll [.takeDecision, .propagate, .backjump 0]).propagate.2 = s
  have trail : s.trail.literals = #[1] := by
    subst after
    decide +kernel
  have unvalued : s.literalValue 3 = none := by
    subst after
    decide +kernel
  have refuted : s.literalValue (-1) = some false := by
    subst after
    decide +kernel
  have stored : s.store.longClauses.map WatchedClause.clause = [[3, -1]] := by
    subst after
    decide +kernel
  have lost : ¬s.Drained := by
    intro drained
    obtain ⟨c, live, literals⟩ := List.mem_map.1 (stored ▸ List.mem_cons_self)
    have isTrue := drained.unit_true c live 3 (by simp [literals]) fun m member apart => by
      obtain rfl : m = -1 := by simpa [literals, apart] using member
      exact refuted
    cases unvalued.symm.trans isTrue
  exact ⟨rfl, trail, unvalued, lost, by simp [lost]⟩

/-- Every conflict can be analysed while there is room and a key for what it teaches, and is
fundamental where its clause is false at level zero. A search fails only for want of these, so it
comes to say where there is no model. -/
structure Analysable (formula : List Clause) (s : Solver) : Prop where
  conflict : ∀ key, s.propagate.1 = .ok (.conflict key) → s.propagate.2.HasRoom →
    s.propagate.2.store.HasKey .resolution → ∃ c lesson, s.propagate.2.store.get key = .ok c ∧
      (∀ l ∈ c.clause, s.propagate.2.literalValue l = some false) ∧
      (s.propagate.2.analyse key).1 = .ok lesson ∧
      (lesson = .fundamentalConflict ↔
        ∀ l ∈ c.clause, s.propagate.2.atoms.level l.natAbs = some 0)
  fails : ∀ passes, FailsOnlyFull (s.solve passes)
  refutes : (∀ v : World, ¬v.Models formula) → s.Undisturbed →
    (s.settings.reductionInterval = 0 ∨
      s.schedule.Pauses ((s.atomCount + 1) ^ (s.atomCount + 1))) →
    (∀ passes, (s.solve passes).2.HasRoom) →
    (∀ passes, (s.solve passes).2.store.HasKey .resolution) →
      ∃ passes, (s.solve passes).1 = .ok (some .unsatisfiable)

theorem fundamentalConflict_iff (s : Solver) (key : ClauseKey) :
    (s.analyse key).1 = .ok .fundamentalConflict ↔ s.trail.level = 0 := by
  have undecided_iff : s.trail.hasDecision = false ↔ s.trail.level = 0 := by
    simp [Trail.hasDecision, Trail.level]
  rw [← undecided_iff]
  refine ⟨undecided_of_fundamentalConflict, fun undecided => ?_⟩
  simp [Solver.analyse, undecided]

theorem Conflicting.level_zero_iff {key : ClauseKey} {c : WatchedClause}
    (conflicting : s.Conflicting key) (live : s.clauses.store.get key = .ok c)
    (agrees : s.atoms.Agrees s.trail) :
    (∀ l ∈ c.clause, s.atoms.level l.natAbs = some 0) ↔ s.trail.level = 0 := by
  obtain ⟨d, live', refuted, m, member, i, found, current⟩ := conflicting
  obtain rfl : c = d := Except.ok.inj (live.symm.trans live')
  constructor
  · intro zero
    have level := Option.some.inj ((agrees.level_of_neg found).symm.trans (zero m member))
    exact current.symm.trans level
  · intro zero l inside
    obtain ⟨j, located⟩ := Array.getElem?_of_mem (refuted l inside)
    have le := (s.trail.levelAt_le_level j).trans zero.le
    rw [agrees.level_of_neg located, Nat.le_zero.1 le]

namespace Standing

theorem solve_fails (standing : s.Standing formula) (passes : Nat) :
    FailsOnlyFull (s.solve passes) := by
  cases settled : s.isSettled with
  | true =>
    rw [Solver.solve, if_pos settled]
    exact .ok _ _
  | false => exact solve_failsOnlyFull (standing.settled settled) passes

theorem not_satisfiable (standing : s.Standing formula) (none : ∀ v : World, ¬v.Models formula) :
    s.status ≠ .satisfiable := by
  intro satisfiable
  obtain ⟨v, models⟩ := standing.consistent satisfiable
  exact none v models

theorem solve_refutes (standing : s.Standing formula)
    (none : ∀ v : World, ¬v.Models formula) (undisturbed : s.Undisturbed)
    (lasting : s.settings.reductionInterval = 0 ∨
      s.schedule.Pauses ((s.atomCount + 1) ^ (s.atomCount + 1)))
    (room : ∀ passes, (s.solve passes).2.HasRoom)
    (keys : ∀ passes, (s.solve passes).2.store.HasKey .resolution) :
    ∃ passes, (s.solve passes).1 = .ok (some .unsatisfiable) := by
  cases settled : s.isSettled with
  | true =>
    have unsatisfiable : s.status = .unsatisfiable := by
      simpa [isSettled, standing.not_satisfiable none] using settled
    refine ⟨0, ?_⟩
    rw [Solver.solve, if_pos settled, report_eq_unsatisfiable_iff.2 unsatisfiable]
  | false =>
    have begun := standing.settled settled
    have undisturbed' : s.start.Undisturbed := undisturbed.congr rfl rfl
    obtain ⟨passes, ended⟩ := begun.solve_ends lasting
    rcases begun.solve_answers undisturbed' (room passes) (keys passes) ended with
      satisfiable | unsatisfiable
    · have reported := solve_report (Prod.ext satisfiable rfl)
      exact absurd (report_eq_satisfiable_iff.1 reported)
        ((standing.solve passes).not_satisfiable none)
    · exact ⟨passes, unsatisfiable⟩

theorem analysable (standing : s.Standing formula) : s.Analysable formula := by
  refine ⟨fun key conflict room left => ?_, standing.solve_fails, standing.solve_refutes⟩
  obtain ⟨s', draws, watched, ⟨answer, -⟩ | ⟨key', answer, conflicting⟩⟩ :=
    propagate_spec standing.invariant.watched
  · rw [answer] at conflict
    cases conflict
  · rw [answer] at conflict room left ⊢
    cases conflict
    have agrees := watched.coherent.agrees
    have drawn := standing.invariant.draw draws watched
    have ⟨c, live, refuted, _⟩ := conflicting
    cases analysed : (s'.analyse key).1 with
    | error failure =>
      exact absurd analysed ((drawn.analyse_fails conflicting).ok_of_hasRoom room left)
    | ok lesson =>
      refine ⟨c, lesson, live, fun l member => agrees.literalValue_of_neg_mem (refuted l member),
        rfl, ?_⟩
      rw [conflicting.level_zero_iff live agrees, ← fundamentalConflict_iff s' key, analysed,
        Except.ok.injEq]

end Standing

/-- After timely calls every conflict can be analysed, and where there is no model a search that is
left alone says so. -/
theorem performAll_analysable {settings : Settings} {calls : List Call}
    (timely : Allows Timely (new settings) calls) :
    ((new settings).performAll calls).Analysable ((new settings).acceptedByAll calls) :=
  (Standing.of_timely timely).analysable

def refutingCalls : List Call :=
  [.ensureAtoms 3, .addClause [-2, -1], .addClause [1], .addClause [2]]

def refuted : Solver :=
  (((((new {}).ensureAtoms 3).2.addNormal [-2, -1]).2.addNormal [1]).2.addNormal [2]).2

theorem performAll_refuted (calls : List Call) :
    (new {}).performAll (refutingCalls ++ calls) = refuted.performAll calls ∧
      (new {}).acceptedByAll (refutingCalls ++ calls) =
        [[-2, -1], [1], [2]] ++ refuted.acceptedByAll calls := by
  have normal : Clause.normalise [-2, -1] = [-2, -1] := Clause.normalise_of_sorted (by decide)
  simp only [performAll, acceptedByAll, refutingCalls, List.cons_append, List.nil_append,
    List.foldl_cons, perform, acceptedBy, addClause_of_normal _ normal,
    addClause_of_normal _ (Clause.normalise_singleton 1),
    addClause_of_normal _ (Clause.normalise_singleton 2), refuted, true_and]
  rw [← List.append_assoc, ← List.append_assoc]
  congr 1

theorem refutingCalls_analysable :
    Allows Timely (new {}) (refutingCalls ++ [.propagate]) ∧
      ((new {}).performAll (refutingCalls ++ [.propagate])).propagate.1 =
        .ok (.conflict (.original 0)) ∧
      (((new {}).performAll (refutingCalls ++ [.propagate])).propagate.2.analyse
        (.original 0)).1 = .ok .fundamentalConflict ∧
      (((new {}).performAll (refutingCalls ++ [.propagate])).solve 1).1 =
        .ok (some .unsatisfiable) ∧
      ((new {}).performAll (refutingCalls ++ [.propagate])).Analysable [[-2, -1], [1], [2]] := by
  have timely : Allows Timely (new {}) (refutingCalls ++ [.propagate]) :=
    ⟨trivial, trivial, trivial, trivial, trivial, trivial⟩
  obtain ⟨performed, accepted⟩ := performAll_refuted [.propagate]
  have analysable := performAll_analysable timely
  rw [accepted] at analysable
  rw [performed] at analysable ⊢
  exact ⟨timely, by decide +kernel, by decide +kernel, by decide +kernel, analysable⟩

/-- The units are not yet drawn when a level is opened, so no literal of the conflict is of the
current level, and none is there to be asserted. -/
theorem hastenedRefutation_not_analysable :
    ((new {}).performAll (refutingCalls ++ [.takeDecision])).propagate.1 =
        .ok (.conflict (.original 0)) ∧
      (((new {}).performAll (refutingCalls ++ [.takeDecision])).propagate.2.analyse
        (.original 0)).1 = .error .exhaustedTrail ∧
      (((new {}).performAll (refutingCalls ++ [.takeDecision])).solve 1).1 =
        .error .exhaustedTrail ∧
      (new {}).acceptedByAll (refutingCalls ++ [.takeDecision]) = [[-2, -1], [1], [2]] ∧
      (∀ v : World, ¬v.Models [[-2, -1], [1], [2]]) ∧
      ¬((new {}).performAll (refutingCalls ++ [.takeDecision])).Analysable
        [[-2, -1], [1], [2]] := by
  obtain ⟨performed, accepted⟩ := performAll_refuted [.takeDecision]
  rw [performed, accepted]
  have conflict : (refuted.performAll [.takeDecision]).propagate.1 =
      .ok (.conflict (.original 0)) := by
    decide +kernel
  have exhausted : ((refuted.performAll [.takeDecision]).propagate.2.analyse (.original 0)).1 =
      .error .exhaustedTrail := by
    decide +kernel
  have room : (refuted.performAll [.takeDecision]).propagate.2.HasRoom := by
    unfold HasRoom
    decide +kernel
  have left : (refuted.performAll [.takeDecision]).propagate.2.store.HasKey .resolution :=
    .inl (by decide +kernel)
  refine ⟨conflict, exhausted, by decide +kernel, rfl, fun v models => ?_, fun analysable => ?_⟩
  · have one := models [1] (by simp)
    have two := models [2] (by simp)
    have both := models [-2, -1] (by simp)
    simp [Clause.HoldsIn, Literal.HoldsIn, Literal.polarity] at one two both
    simp [one, two] at both
  · obtain ⟨c, lesson, -, -, taught, -⟩ := analysable.conflict _ conflict room left
    cases exhausted.symm.trans taught

end Solver

end ClauseLearning
