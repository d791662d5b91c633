import ClauseLearning.Proofs.Learning
import ClauseLearning.Proofs.Reading
import ClauseLearning.Proofs.Reduction
import Mathlib.Logic.Relation

/-!
Runs of a solver. Between calls a formula is built and a search begun; a search draws consequences,
decides, learns, restarts and reduces step by step, and the state after each step is a state of the
run. Time, chance, polls and the journal are left to whoever is outside, and may be anything.
-/

namespace ClauseLearning

inductive Stage where
  | between
  | drawing
  | quiet
  | clash (key : ClauseKey)
  | derived (c : Clause)
  | retreated (c : Clause) (blockDistance : Option Nat)
  | taught (lesson : Lesson)
  | asserted
  | rested

structure Config where
  accepted : List Clause
  stage : Stage
  solver : Solver

namespace Solver

inductive Step : Config → Config → Prop
  | outside {accepted stage} (s : Solver) (journal : Journal) (counters : Counters)
      (random : Generator) (terminate : Option (Nat → Bool)) (polls : Nat) :
      Step ⟨accepted, stage, s⟩
        ⟨accepted, stage, { s with journal, counters, random, terminate, polls }⟩
  | listen {accepted stage} (s : Solver) {learned : Option (Array Clause)}
      (empty : ∀ collected, learned = some collected → collected = #[]) :
      Step ⟨accepted, stage, s⟩ ⟨accepted, stage, { s with learned }⟩
  | freshAtom {accepted} (s : Solver) :
      Step ⟨accepted, .between, s⟩ ⟨accepted, .between, s.freshAtom.2⟩
  | ensureAtoms {accepted} (s : Solver) (a : Atom) :
      Step ⟨accepted, .between, s⟩ ⟨accepted, .between, (s.ensureAtoms a).2⟩
  | addClause {accepted} (s : Solver) (c : Clause) :
      Step ⟨accepted, .between, s⟩
        ⟨accepted ++ accepts c (s.addClause c).1, .between, (s.addClause c).2⟩
  | readDimacs {accepted} (s : Solver) (file : ByteArray) :
      Step ⟨accepted, .between, s⟩
        ⟨accepted ++ s.linesAccepted (Text.lines file), .between, (s.readDimacs file).2⟩
  | start {accepted s} (unsettled : s.isSettled = false) :
      Step ⟨accepted, .between, s⟩ ⟨accepted, .drawing, s.start⟩
  | draw {accepted s s' l} (next : s.trail.next? = some l)
      (answer : s.propagateLiteral l = (.ok .complete, s')) :
      Step ⟨accepted, .drawing, s⟩ ⟨accepted, .drawing, s'.pastHead⟩
  | clash {accepted s s' l key} (next : s.trail.next? = some l)
      (answer : s.propagateLiteral l = (.ok (.conflict key), s')) :
      Step ⟨accepted, .drawing, s⟩ ⟨accepted, .clash key, s'⟩
  | drawFailed {accepted s s' l failure} (next : s.trail.next? = some l)
      (answer : s.propagateLiteral l = (.error failure, s')) :
      Step ⟨accepted, .drawing, s⟩ ⟨accepted, .between, s'⟩
  | drawn {accepted s} (last : s.trail.next? = none) :
      Step ⟨accepted, .drawing, s⟩ ⟨accepted, .quiet, s⟩
  | stop {accepted s s'} (answer : s.shouldStop = (true, s')) :
      Step ⟨accepted, .quiet, s⟩ ⟨accepted, .between, s'⟩
  | decide {accepted s s' l} (answer : s.takeDecision = (some l, s')) :
      Step ⟨accepted, .quiet, s⟩ ⟨accepted, .drawing, s'⟩
  | satisfy {accepted s s'} (answer : s.takeDecision = (none, s')) :
      Step ⟨accepted, .quiet, s⟩ ⟨accepted, .between, { s' with status := .satisfiable }⟩
  | refute {accepted s key} (undecided : s.trail.hasDecision = false) :
      Step ⟨accepted, .clash key, s⟩ ⟨accepted, .between, { s with status := .unsatisfiable }⟩
  | derive {accepted s s' key c} (decided : s.trail.hasDecision = true)
      (answer : s.derive key = (.ok c, s')) :
      Step ⟨accepted, .clash key, s⟩ ⟨accepted, .derived c, s'.rewardAtoms c⟩
  | deriveFailed {accepted s s' key failure} (decided : s.trail.hasDecision = true)
      (answer : s.derive key = (.error failure, s')) :
      Step ⟨accepted, .clash key, s⟩ ⟨accepted, .between, s'⟩
  | retreatUnit {accepted} (s : Solver) (l : Literal) :
      Step ⟨accepted, .derived [l], s⟩ ⟨accepted, .retreated [l] none, s.backjump 0⟩
  | retreat {accepted s s' l m rest level}
      (answer : s.assertionLevel (l :: m :: rest) = (.ok level, s')) :
      Step ⟨accepted, .derived (l :: m :: rest), s⟩
        ⟨accepted, .retreated (l :: m :: rest)
          (some (Clause.blockDistance s'.atoms.level (l :: m :: rest))), s'.backjump level⟩
  | retreatFailed {accepted s s' c failure} (answer : s.assertionLevel c = (.error failure, s')) :
      Step ⟨accepted, .derived c, s⟩ ⟨accepted, .between, s'⟩
  | deriveNothing {accepted} (s : Solver) :
      Step ⟨accepted, .derived [], s⟩ ⟨accepted, .between, s.noteFailure .emptyClause⟩
  | storeUnit {accepted s s' l blockDistance key}
      (answer : s.insert [l] .resolution blockDistance = (.ok key, s')) :
      Step ⟨accepted, .retreated [l] blockDistance, s⟩ ⟨accepted, .taught (.unit l), s'⟩
  | store {accepted s s' l m rest blockDistance key}
      (answer : s.insert (l :: m :: rest) .resolution blockDistance = (.ok key, s')) :
      Step ⟨accepted, .retreated (l :: m :: rest) blockDistance, s⟩
        ⟨accepted, .taught (.asserting l key), s'⟩
  | storeFailed {accepted s s' c blockDistance failure}
      (answer : s.insert c .resolution blockDistance = (.error failure, s')) :
      Step ⟨accepted, .retreated c blockDistance, s⟩ ⟨accepted, .between, s'⟩
  | assertion {accepted s s' lesson l source} (taught : lesson.assertion? = some (l, source))
      (answer : s.assertLesson l source = (.ok (), s')) :
      Step ⟨accepted, .taught lesson, s⟩ ⟨accepted, .asserted, s'⟩
  | assertionFailed {accepted s s' lesson l source failure}
      (taught : lesson.assertion? = some (l, source))
      (answer : s.assertLesson l source = (.error failure, s')) :
      Step ⟨accepted, .taught lesson, s⟩ ⟨accepted, .between, s'⟩
  | restart {accepted} (s : Solver) :
      Step ⟨accepted, .asserted, s⟩ ⟨accepted, .rested, s.restartIfDue.2⟩
  | keep {accepted s} (early : s.reductionIsDue = false) :
      Step ⟨accepted, .rested, s⟩ ⟨accepted, .drawing, s⟩
  | reduce {accepted s s' removed} (due : s.reductionIsDue = true)
      (answer : s.reduce = (.ok removed, s')) :
      Step ⟨accepted, .rested, s⟩ ⟨accepted, .drawing, s'⟩
  | reduceFailed {accepted s s' failure} (due : s.reductionIsDue = true)
      (answer : s.reduce = (.error failure, s')) :
      Step ⟨accepted, .rested, s⟩ ⟨accepted, .between, s'⟩

abbrev Steps : Config → Config → Prop := Relation.ReflTransGen Step

/-- A state of a run that begins with a new solver. -/
def Reachable (settings : Settings) (config : Config) : Prop :=
  Steps ⟨[], .between, .new settings⟩ config

structure Searching (formula : List Clause) (s : Solver) : Prop where
  invariant : s.Invariant formula fun _ => False
  solving : s.status = .solving

def Good (formula : List Clause) (s : Solver) : Stage → Prop
  | .between => s.Settled formula
  | .drawing | .asserted | .rested => s.Searching formula
  | .quiet => s.Searching formula ∧ s.trail.head = s.trail.literals.size
  | .clash key => s.Searching formula ∧ s.Conflicting key
  | .derived c =>
    s.Searching formula ∧ ∃ l rest, c = l :: rest ∧ Derived formula s.trail l rest
  | .retreated c _ =>
    s.Searching formula ∧ ∃ l rest, c = l :: rest ∧ Asserting formula s l rest
  | .taught lesson => s.Taught formula lesson ∧ s.status = .solving

section Steps

variable {s s' : Solver} {formula : List Clause} {exempt : ClauseKey → Prop}

theorem Invariant.listen (invariant : s.Invariant formula exempt) {learned : Option (Array Clause)}
    (empty : ∀ collected, learned = some collected → collected = #[]) :
    ({ s with learned } : Solver).Invariant formula exempt where
  coherent := { invariant.coherent with }
  mirrors := invariant.mirrors
  guarded := invariant.guarded
  grounded := { invariant.grounded with }
  entailed := { invariant.entailed with
    learned := fun collected kept c member => by
      rw [empty collected kept] at member
      exact absurd member (Array.not_mem_empty c) }
  covered := invariant.covered

theorem Good.congr {stage : Stage} (good : s.Good formula stage)
    (keeps : ∀ exempt, s.Invariant formula exempt → s'.Invariant formula exempt)
    (atoms : s'.atoms = s.atoms) (clauses : s'.clauses = s.clauses) (trail : s'.trail = s.trail)
    (status : s'.status = s.status) : s'.Good formula stage := by
  have searching (before : s.Searching formula) : s'.Searching formula :=
    ⟨keeps _ before.invariant, status.trans before.solving⟩
  cases stage with
  | between =>
    refine ⟨keeps _ good.invariant, ?_⟩
    rw [status, atoms, trail]
    exact good.complete
  | drawing => exact searching good
  | asserted => exact searching good
  | rested => exact searching good
  | quiet => exact ⟨searching good.1, trail ▸ good.2⟩
  | clash key =>
    refine ⟨searching good.1, ?_⟩
    unfold Conflicting
    rw [clauses, trail]
    exact good.2
  | derived c => exact ⟨searching good.1, trail ▸ good.2⟩
  | retreated c blockDistance =>
    obtain ⟨l, rest, shape, asserting⟩ := good.2
    exact ⟨searching good.1, l, rest, shape, asserting.congr atoms trail⟩
  | taught lesson =>
    refine ⟨?_, status.trans good.2⟩
    cases lesson with
    | fundamentalConflict => exact good.1
    | unit l => exact ⟨keeps _ good.1.1, good.1.2.congr atoms trail⟩
    | asserting l key =>
      obtain ⟨invariant, m, rest, live, asserting⟩ := good.1
      exact ⟨keeps _ invariant, m, rest, clauses ▸ live, asserting.congr atoms trail⟩

theorem Searching.settled (searching : s.Searching formula) : s.Settled formula where
  invariant := searching.invariant
  complete satisfiable := by
    rw [searching.solving] at satisfiable
    cases satisfiable

theorem Searching.congr (searching : s.Searching formula) (same : s.Resembles s')
    (marked : s'.buffer.Marked) : s'.Searching formula :=
  ⟨searching.invariant.congr same marked, same.status.trans searching.solving⟩

theorem Searching.draw (searching : s.Searching formula) (draws : s.Draws s')
    (watched : s'.Watched) : s'.Searching formula :=
  ⟨searching.invariant.draw draws watched, draws.status.trans searching.solving⟩

theorem Settled.begin (settled : s.Settled formula) (unsettled : s.isSettled = false) :
    s.start.Searching formula := by
  refine ⟨settled.invariant.reset ?_ (by simp), rfl⟩
  intro unsatisfiable
  simp [isSettled, unsatisfiable] at unsettled

theorem Searching.draw_literal (searching : s.Searching formula) {l : Literal}
    (next : s.trail.next? = some l) (answer : s.propagateLiteral l = (.ok .complete, s')) :
    s'.pastHead.Searching formula := by
  obtain ⟨s'', draws, -, -, ⟨ended, past⟩ | ⟨key, ended, -⟩⟩ :=
    propagateLiteral_spec searching.invariant.watched next
  · cases answer.symm.trans ended
    have advanced : s.Draws s'.pastHead :=
      { draws with extends_trail := { draws.extends_trail with } }
    exact searching.draw advanced past
  · cases answer.symm.trans ended

theorem Searching.clash (searching : s.Searching formula) {l : Literal} {key : ClauseKey}
    (next : s.trail.next? = some l)
    (answer : s.propagateLiteral l = (.ok (.conflict key), s')) :
    s'.Searching formula ∧ s'.Conflicting key := by
  obtain ⟨s'', draws, watched, -, ⟨ended, -⟩ | ⟨key', ended, conflicting⟩⟩ :=
    propagateLiteral_spec searching.invariant.watched next
  · cases answer.symm.trans ended
  · cases answer.symm.trans ended
    exact ⟨searching.draw draws watched, conflicting⟩

theorem Searching.draw_ok (searching : s.Searching formula) {l : Literal} {failure : Failure}
    (next : s.trail.next? = some l) : s.propagateLiteral l ≠ (.error failure, s') := by
  intro answer
  obtain ⟨s'', -, -, -, ⟨ended, -⟩ | ⟨key, ended, -⟩⟩ :=
    propagateLiteral_spec searching.invariant.watched next
  · cases answer.symm.trans ended
  · cases answer.symm.trans ended

theorem shouldStop_eq (s : Solver) :
    ∃ journal polls, s.shouldStop.2 = { s with journal, polls } := by
  unfold shouldStop
  split
  · obtain ⟨journal, noted⟩ := s.note_eq .info .solve fun _ => "Time limit reached"
    exact ⟨journal, s.polls, noted⟩
  · split
    · obtain ⟨journal, noted⟩ := s.note_eq .info .solve fun _ => "Conflict limit reached"
      exact ⟨journal, s.polls, noted⟩
    · unfold poll
      split
      · exact ⟨s.journal, s.polls, rfl⟩
      · exact ⟨s.journal, s.polls + 1, rfl⟩

theorem Searching.stop (searching : s.Searching formula) (answer : s.shouldStop = (true, s')) :
    s'.Settled formula := by
  obtain ⟨journal, polls, same⟩ := s.shouldStop_eq
  rw [answer] at same
  obtain rfl : s' = { s with journal, polls } := same
  have resembles : s.Resembles { s with journal, polls } := .of_eq rfl rfl rfl rfl rfl
  exact (searching.congr resembles searching.invariant.coherent.marked).settled

theorem Invariant.takeDecision (invariant : s.Invariant formula fun _ => False)
    (quiet : s.trail.head = s.trail.literals.size) :
    s.takeDecision.2.Invariant formula (fun _ => False) ∧ s.takeDecision.2.status = s.status := by
  have coherent := invariant.coherent
  rcases takeDecision_spec coherent quiet with
    ⟨s', ended, -, same, buffer⟩ | ⟨l, s', ended, gains, nonzero, unvalued, trail⟩
  · rw [ended]
    exact ⟨invariant.congr same (buffer ▸ coherent.marked), same.status⟩
  · rw [ended]
    refine ⟨invariant.gain gains nonzero unvalued ?_ ?_, gains.status⟩
    · change s.trail.literals.size ∈ s'.trail.starts
      rw [trail]
      exact Array.mem_push_self
    · intro zero
      rw [trail, Trail.level_decide] at zero
      exact absurd zero (Nat.succ_ne_zero _)

theorem Searching.decide (searching : s.Searching formula)
    (quiet : s.trail.head = s.trail.literals.size) {answered : Option Literal}
    (answer : s.takeDecision = (answered, s')) : s'.Searching formula := by
  obtain ⟨invariant, status⟩ := searching.invariant.takeDecision quiet
  rw [answer] at invariant status
  exact ⟨invariant, status.trans searching.solving⟩

theorem Searching.satisfy (searching : s.Searching formula)
    (quiet : s.trail.head = s.trail.literals.size) (answer : s.takeDecision = (none, s')) :
    ({ s' with status := .satisfiable } : Solver).Settled formula := by
  have after := searching.decide quiet answer
  refine ⟨after.invariant.reset (by simp [after.solving]) (by simp), fun _ => ?_⟩
  rcases takeDecision_spec searching.invariant.coherent quiet with
    ⟨s'', ended, valued, same, -⟩ | ⟨l', s'', ended, -⟩
  · cases answer.symm.trans ended
    refine ⟨fun a unvalued => ?_, ?_⟩
    · exact valued a ⟨same.assignments.size_eq ▸ unvalued.1,
        (same.assignments.assignment?_eq a).symm.trans unvalued.2⟩
    · change s'.trail.head = s'.trail.literals.size
      rw [same.trail, quiet]
  · cases answer.symm.trans ended

theorem Searching.refute (searching : s.Searching formula) {key : ClauseKey}
    (conflicting : s.Conflicting key) (undecided : s.trail.hasDecision = false) :
    ({ s with status := .unsatisfiable } : Solver).Settled formula := by
  obtain ⟨c, live, false, -⟩ := conflicting
  have entailed := searching.invariant.entailed
  -- All literals of the clause are false at level zero, where falsity is entailed.
  have level : s.trail.level = 0 := by simpa [Trail.hasDecision, Trail.level] using undecided
  have refuted : Entails formula [] := by
    apply (entailed.long key c live).strip
    intro l member
    obtain ⟨i, found⟩ := Array.getElem?_of_mem (false l member)
    have le := (s.trail.levelAt_le_level i).trans level.le
    exact .inr ⟨Int.neg_ne_zero.1 (searching.invariant.coherent.agrees.nonzero (false l member)),
      entailed.zero i (-l) found (Nat.le_zero.1 le)⟩
  exact ⟨searching.invariant.refute (List.Subset.refl _) refuted, fun impossible => by
    cases impossible⟩

theorem Searching.derive (searching : s.Searching formula) {key : ClauseKey} {c : Clause}
    (conflicting : s.Conflicting key) (decided : s.trail.hasDecision = true)
    (answer : s.derive key = (.ok c, s')) : (s'.rewardAtoms c).Good formula (.derived c) := by
  obtain ⟨l, rest, s'', ended, same, invariant, derived⟩ :=
    searching.invariant.derive conflicting decided
  cases answer.symm.trans ended
  refine ⟨⟨invariant, same.status.trans searching.solving⟩, l, rest, rfl, ?_⟩
  rw [same.trail]
  exact derived

theorem Searching.derive_ok (searching : s.Searching formula) {key : ClauseKey}
    (conflicting : s.Conflicting key) (decided : s.trail.hasDecision = true) {failure : Failure} :
    s.derive key ≠ (.error failure, s') := by
  intro answer
  obtain ⟨l, rest, s'', ended, -⟩ := searching.invariant.derive conflicting decided
  cases answer.symm.trans ended

theorem Searching.retreat_unit (searching : s.Searching formula) {l : Literal}
    (derived : Derived formula s.trail l []) :
    (s.backjump 0).Good formula (.retreated [l] none) := by
  have retreats := backjump_retreats searching.invariant.coherent.aligned 0
  exact ⟨⟨searching.invariant.backjump 0, retreats.status.trans searching.solving⟩, l, [], rfl,
    searching.invariant.retreat_unit derived⟩

theorem Searching.retreat (searching : s.Searching formula) {l m : Literal} {rest : Clause}
    (derived : Derived formula s.trail l (m :: rest)) {level : Nat}
    (answer : s.assertionLevel (l :: m :: rest) = (.ok level, s'))
    (blockDistance : Option Nat) :
    (s'.backjump level).Good formula (.retreated (l :: m :: rest) blockDistance) := by
  obtain ⟨i, found, below, ended⟩ := searching.invariant.assertionLevel_eq derived
  cases answer.symm.trans ended
  have retreats := backjump_retreats searching.invariant.coherent.aligned (s.trail.levelAt i)
  exact ⟨⟨searching.invariant.backjump _, retreats.status.trans searching.solving⟩, l, m :: rest,
    rfl, searching.invariant.retreat_long derived found below⟩

theorem Searching.store_unit (searching : s.Searching formula) {l : Literal}
    (asserting : Asserting formula s l []) {blockDistance : Option Nat} {key : ClauseKey}
    (answer : s.insert [l] .resolution blockDistance = (.ok key, s')) :
    s'.Good formula (.taught (.unit l)) := by
  have takes := takes_of_insert (by simp) answer
  obtain ⟨s'', ended, taught, status⟩ :=
    insert_asserting_unit searching.invariant takes.room asserting blockDistance
  cases answer.symm.trans ended
  exact ⟨taught, status.trans searching.solving⟩

theorem Searching.store (searching : s.Searching formula) {l m : Literal} {rest : Clause}
    (asserting : Asserting formula s l (m :: rest)) {blockDistance : Option Nat} {key : ClauseKey}
    (answer : s.insert (l :: m :: rest) .resolution blockDistance = (.ok key, s')) :
    s'.Good formula (.taught (.asserting l key)) := by
  have takes := takes_of_insert (by simp) answer
  obtain ⟨key', s'', ended, taught, status⟩ :=
    insert_asserting_long searching.invariant takes asserting blockDistance
  cases answer.symm.trans ended
  exact ⟨taught, status.trans searching.solving⟩

theorem Searching.store_failed (searching : s.Searching formula) {l : Literal} {rest : Clause}
    (asserting : Asserting formula s l rest) {blockDistance : Option Nat} {failure : Failure}
    (answer : s.insert (l :: rest) .resolution blockDistance = (.error failure, s')) :
    s.Refuses (l :: rest) .resolution failure s' ∧ s'.Settled formula := by
  by_cases takes : s.clauses.store.Takes (l :: rest) .resolution
  · cases rest with
    | nil =>
      obtain ⟨s'', ended, -⟩ :=
        insert_asserting_unit searching.invariant takes.room asserting blockDistance
      cases answer.symm.trans ended
    | cons m rest =>
      obtain ⟨key, s'', ended, -⟩ :=
        insert_asserting_long searching.invariant takes asserting blockDistance
      cases answer.symm.trans ended
  · obtain ⟨failure, s'', ended, refuses⟩ :=
      insert_refused (List.cons_ne_nil l rest) takes blockDistance
    cases answer.symm.trans ended
    obtain ⟨same, buffer⟩ := refuses.resembles
    exact ⟨refuses, (searching.congr same (buffer ▸ searching.invariant.coherent.marked)).settled⟩

theorem Step.good {before after : Config} (step : Step before after)
    (good : before.solver.Good before.accepted before.stage) :
    after.solver.Good after.accepted after.stage := by
  -- What a stage promises rules every failure out, but for that of a full store.
  cases step with
  | outside s journal counters random terminate polls =>
    exact good.congr (fun _ invariant => invariant.of_eq rfl rfl rfl rfl rfl rfl) rfl rfl rfl rfl
  | listen s empty =>
    exact good.congr (fun _ invariant => invariant.listen empty) rfl rfl rfl rfl
  | freshAtom s =>
    have built := (s.freshAtom_grows.builds _ good).1
    rwa [List.append_nil] at built
  | ensureAtoms s a =>
    have built := ((s.ensureAtoms_grows a).builds _ good).1
    rwa [List.append_nil] at built
  | addClause s c => exact ((s.addClause_grows c).builds _ good).1
  | readDimacs s file => exact ((s.readDimacs_grows file).builds _ good).1
  | start unsettled => exact Settled.begin good unsettled
  | draw next answer => exact Searching.draw_literal good next answer
  | clash next answer => exact Searching.clash good next answer
  | drawFailed next answer => exact absurd answer (Searching.draw_ok good next)
  | @drawn accepted s last =>
    have outside := Array.getElem?_eq_none_iff.1 last
    exact ⟨good, good.invariant.coherent.trail.head_le.antisymm outside⟩
  | stop answer => exact good.1.stop answer
  | decide answer => exact good.1.decide good.2 answer
  | satisfy answer => exact good.1.satisfy good.2 answer
  | refute undecided => exact good.1.refute good.2 undecided
  | derive decided answer => exact good.1.derive good.2 decided answer
  | deriveFailed decided answer => exact absurd answer (good.1.derive_ok good.2 decided)
  | retreatUnit s l =>
    obtain ⟨searching, l', rest, shape, derived⟩ := good
    cases shape
    exact searching.retreat_unit derived
  | retreat answer =>
    obtain ⟨searching, l', rest', shape, derived⟩ := good
    cases shape
    exact searching.retreat derived answer _
  | @retreatFailed accepted s s' c failure answer =>
    obtain ⟨searching, l, rest, rfl, derived⟩ := good
    cases rest with
    | nil => cases answer
    | cons m rest =>
      obtain ⟨i, -, -, ended⟩ := searching.invariant.assertionLevel_eq derived
      cases answer.symm.trans ended
  -- A derived clause has a literal in front, so none is ever empty.
  | deriveNothing s =>
    obtain ⟨-, l, rest, shape, -⟩ := good
    cases shape
  | storeUnit answer =>
    obtain ⟨searching, l', rest, shape, asserting⟩ := good
    cases shape
    exact searching.store_unit asserting answer
  | store answer =>
    obtain ⟨searching, l', rest', shape, asserting⟩ := good
    cases shape
    exact searching.store asserting answer
  | storeFailed answer =>
    obtain ⟨searching, l, rest, rfl, asserting⟩ := good
    exact (searching.store_failed asserting answer).2
  | assertion literal answer =>
    obtain ⟨s'', ended, invariant, status⟩ := good.1.assertion literal
    cases answer.symm.trans ended
    exact ⟨invariant, status.trans good.2⟩
  | assertionFailed literal answer =>
    obtain ⟨s'', ended, -⟩ := good.1.assertion literal
    cases answer.symm.trans ended
  | restart s =>
    obtain ⟨invariant, status⟩ := restartIfDue_spec good.invariant
    exact ⟨invariant, status.trans good.solving⟩
  | keep early => exact good
  | reduce due answer =>
    obtain ⟨removed, s'', ended, invariant, status⟩ := reduce_spec good.invariant
    cases answer.symm.trans ended
    exact ⟨invariant, status.trans good.solving⟩
  | reduceFailed due answer =>
    obtain ⟨removed, s'', ended, -⟩ := reduce_spec good.invariant
    cases answer.symm.trans ended

theorem get_new (settings : Settings) (key : ClauseKey) (c : WatchedClause) :
    (new settings).clauses.store.get key ≠ .ok c := by
  cases key <;> simp [new, ClauseStore.get]

theorem new_coherent (settings : Settings) : (new settings).Coherent where
  agrees := by
    refine ⟨rfl, fun i l found => ?_, fun a assignment positive assigned => ?_,
      fun i j l m found => ?_⟩
    · simp [new] at found
    · have inside : a < 1 := AtomTable.lt_size_of_assignment? assigned
      exact absurd inside (Nat.not_lt.2 positive)
    · simp [new] at found
  trail := ⟨.nil, by simp [new], by simp [new], Nat.le_refl 0⟩
  justified i l found := by simp [new] at found
  orderly := by
    refine ⟨⟨?_, ?_, fun key c live => absurd live (get_new settings key c)⟩,
      ⟨?_, .nil⟩, ⟨⟨?_, rfl⟩, rfl, ?_⟩⟩
    · simp [new]
    · simp [new]
    · simp [new]
    · simp [new]
    · simp [new]
  offering := by
    refine (DecisionOrder.Offers.new _ _ _).mono fun a unvalued => ?_
    obtain ⟨inside, none⟩ := unvalued
    obtain rfl : a = 0 := Nat.lt_one_iff.1 inside
    cases none
  marked a isMarked := by simp [new, ResolutionBuffer.isMerged] at isMarked
  bounded := by
    change 1 ≤ Atom.max + 1
    decide

theorem new_settled (settings : Settings) : (new settings).Settled [] where
  invariant := {
    coherent := new_coherent settings
    mirrors := fun l => by
      refine ⟨by simp [new, WatchLists.watchers], fun key => ?_⟩
      have unwatched : ¬(new settings).clauses.store.Watching l key := by
        rintro ⟨c, live, -⟩
        exact get_new settings key c live
      simpa [new, WatchLists.watchers] using unwatched
    guarded := fun key c live => absurd live (get_new settings key c)
    grounded := ⟨by simp [new], by simp [new]⟩
    entailed := {
      long := fun key c live => absurd live (get_new settings key c)
      originalUnits := by simp [new]
      additionUnits := by simp [new]
      zero := by simp [new]
      learned := by simp [new]
      refuted := by simp [new] }
    covered := .inr (by simp) }
  complete := by simp [new]

theorem Steps.good {before after : Config} (steps : Steps before after)
    (good : before.solver.Good before.accepted before.stage) :
    after.solver.Good after.accepted after.stage := by
  induction steps with
  | refl => exact good
  | tail steps step ih => exact step.good ih

theorem Reachable.good {settings : Settings} {config : Config}
    (reachable : Reachable settings config) :
    config.solver.Good config.accepted config.stage :=
  Steps.good reachable (new_settled settings)

end Steps

theorem Reachable.addClause {settings : Settings} {accepted : List Clause} {s : Solver} {c : Clause}
    (reachable : Reachable settings ⟨accepted, .between, s⟩)
    (added : (s.addClause c).1 = .ok .added) :
    Reachable settings ⟨accepted ++ [c], .between, (s.addClause c).2⟩ := by
  have step : Step ⟨accepted, .between, s⟩
      ⟨accepted ++ accepts c (s.addClause c).1, .between, (s.addClause c).2⟩ := .addClause s c
  rw [added] at step
  exact reachable.tail step

def twoClauses : Solver := ((((new {}).ensureAtoms 2).2.addClause [1, 2]).2.addClause [-1]).2

theorem normalise_pair : Clause.normalise [1, 2] = [1, 2] :=
  Clause.normalise_of_sorted (by decide)

def addNormal (s : Solver) (c : Clause) : Except Failure AddStatus × Solver :=
  if c.isTautology then
    (.ok .tautology, s.note .trace .clauses fun _ => "Skipped tautology " ++ c.text)
  else
    match c.checkAtoms s.atoms.size with
    | .error failure => (.error failure, s.noteFailure failure)
    | .ok () =>
      let s := (s.seed c).prepare
      s.addReduced (c.filter fun l => s.atoms.literalValue l != some false)

theorem addClause_of_normal (s : Solver) {c d : Clause} (normal : c.normalise = d) :
    s.addClause c = s.addNormal d := by
  subst normal
  rfl

theorem Reachable.addNormal {settings : Settings} {accepted : List Clause} {s : Solver} {c : Clause}
    (reachable : Reachable settings ⟨accepted, .between, s⟩) (normal : c.normalise = c)
    (added : (s.addNormal c).1 = .ok .added) :
    Reachable settings ⟨accepted ++ [c], .between, (s.addNormal c).2⟩ := by
  rw [← addClause_of_normal s normal] at added ⊢
  exact reachable.addClause added

def addAllNormal : List Clause → Solver → Solver
  | [], s => s
  | c :: rest, s => addAllNormal rest (s.addNormal c).2

def addsAllNormal : List Clause → Solver → Bool
  | [], _ => true
  | c :: rest, s =>
    match s.addNormal c with
    | (.ok .added, s) => addsAllNormal rest s
    | _ => false

theorem Reachable.addAllNormal {settings : Settings} {accepted clauses : List Clause} {s : Solver}
    (reachable : Reachable settings ⟨accepted, .between, s⟩)
    (normal : ∀ c ∈ clauses, c.normalise = c) (added : s.addsAllNormal clauses = true) :
    Reachable settings ⟨accepted ++ clauses, .between, s.addAllNormal clauses⟩ := by
  induction clauses generalizing accepted s with
  | nil => rwa [List.append_nil]
  | cons c rest ih =>
    obtain ⟨first, later⟩ := List.forall_mem_cons.1 normal
    rw [addsAllNormal] at added
    split at added
    · rename_i s' answer
      have stepped := reachable.addNormal first (congrArg Prod.fst answer)
      rw [answer] at stepped
      rw [List.append_cons, Solver.addAllNormal, answer]
      exact ih stepped later added
    · cases added

theorem twoClauses_reachable : Reachable {} ⟨[[1, 2], [-1]], .between, twoClauses⟩ := by
  have atoms : Reachable {} ⟨[], .between, ((new {}).ensureAtoms 2).2⟩ :=
    .single (.ensureAtoms (new {}) 2)
  have first : (((new {}).ensureAtoms 2).2.addClause [1, 2]).1 = .ok .added := by
    rw [addClause_of_normal _ normalise_pair]
    decide +kernel
  have second : ((((new {}).ensureAtoms 2).2.addClause [1, 2]).2.addClause [-1]).1 = .ok .added := by
    rw [addClause_of_normal _ normalise_pair]
    decide +kernel
  exact (atoms.addClause first).addClause second

theorem twoClauses_start_reachable : Reachable {} ⟨[[1, 2], [-1]], .drawing, twoClauses.start⟩ := by
  have unsettled : twoClauses.isSettled = false := by
    rw [twoClauses, addClause_of_normal _ normalise_pair]
    decide +kernel
  exact twoClauses_reachable.tail (.start unsettled)

end Solver

end ClauseLearning
