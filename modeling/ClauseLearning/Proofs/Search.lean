import ClauseLearning.Proofs.Run

namespace ClauseLearning

namespace Stage

def ofPropagated : Except Failure Propagated → Stage
  | .ok .complete => .quiet
  | .ok (.conflict key) => .clash key
  | .error _ => .between

def ofLesson (key : ClauseKey) : Except Failure Lesson → Stage
  | .ok .fundamentalConflict => .clash key
  | .ok lesson => .taught lesson
  | .error _ => .between

def ofPass : Except Failure PassOutcome → Stage
  | .ok .ongoing => .drawing
  | .ok .finished => .between
  | .error _ => .between

def ofRun : Except Failure Bool → Stage
  | .ok false => .drawing
  | .ok true => .between
  | .error _ => .between

def ofSolve : Except Failure (Option Report) → Stage
  | .ok none => .drawing
  | .ok (some _) => .between
  | .error _ => .between

end Stage

namespace Solver

variable (accepted : List Clause)

theorem counters_steps (stage : Stage) (s : Solver) (counters : Counters) :
    Steps ⟨accepted, stage, s⟩ ⟨accepted, stage, { s with counters }⟩ :=
  .single (.outside s s.journal counters s.random s.terminate s.polls)

theorem Searching.countPass {formula : List Clause} {s : Solver}
    (searching : s.Searching formula) : s.countPass.Searching formula :=
  Steps.good (counters_steps formula .drawing s _) searching

theorem note_steps (stage : Stage) (s : Solver) (level : Level) (topic : Topic)
    (message : Unit → String) :
    Steps ⟨accepted, stage, s⟩ ⟨accepted, stage, s.note level topic message⟩ := by
  obtain ⟨journal, noted⟩ := s.note_eq level topic message
  rw [noted]
  exact .single (.outside s journal s.counters s.random s.terminate s.polls)

theorem propagate_steps (s : Solver) :
    Steps ⟨accepted, .drawing, s⟩ ⟨accepted, .ofPropagated s.propagate.1, s.propagate.2⟩ := by
  -- Each turn of the recursion is a step, and the last one says which stage follows.
  fun_induction propagate s with
  | case1 s none => exact .single (.drawn none)
  | case2 s l next after answer ih => exact .head (.draw next answer) ih
  | case3 s l next result after notComplete answer =>
    cases result with
    | error failure => exact .single (.drawFailed next answer)
    | ok propagated =>
      cases propagated with
      | complete => exact (notComplete rfl).elim
      | conflict key => exact .single (.clash next answer)

theorem learn_steps (s : Solver) (c : Clause) (key : ClauseKey) :
    Steps ⟨accepted, .derived c, s⟩ ⟨accepted, .ofLesson key (s.learn c).1, (s.learn c).2⟩ ∧
      (s.learn c).1 ≠ .ok .fundamentalConflict := by
  match c with
  | [] => exact ⟨.single (.deriveNothing s), fun impossible => by cases impossible⟩
  | [l] =>
    rw [learn]
    cases answer : (s.backjump 0).insert [l] .resolution none with
    | mk result s' =>
      have retreat : Steps ⟨accepted, .derived [l], s⟩ _ := .single (.retreatUnit s l)
      cases result with
      | error failure =>
        exact ⟨retreat.tail (.storeFailed answer), fun impossible => by cases impossible⟩
      | ok stored =>
        exact ⟨retreat.tail (.storeUnit answer), fun impossible => by cases impossible⟩
  | l :: m :: rest =>
    simp only [learn]
    cases answer : s.assertionLevel (l :: m :: rest) with
    | mk result s' =>
      cases result with
      | error failure =>
        exact ⟨.single (.retreatFailed answer), fun impossible => by cases impossible⟩
      | ok level =>
        have retreat : Steps ⟨accepted, .derived (l :: m :: rest), s⟩ _ := .single (.retreat answer)
        simp only
        cases stored : (s'.backjump level).insert (l :: m :: rest) .resolution
            (some (Clause.blockDistance s'.atoms.level (l :: m :: rest))) with
        | mk result s'' =>
          cases result with
          | error failure =>
            exact ⟨retreat.tail (.storeFailed stored), fun impossible => by cases impossible⟩
          | ok key =>
            exact ⟨retreat.tail (.store stored), fun impossible => by cases impossible⟩

theorem analyse_steps (s : Solver) (key : ClauseKey) :
    Steps ⟨accepted, .clash key, s⟩
        ⟨accepted, .ofLesson key (s.analyse key).1, (s.analyse key).2⟩ ∧
      ((s.analyse key).1 = .ok .fundamentalConflict →
        (s.analyse key).2.trail.hasDecision = false) := by
  unfold analyse
  split
  · rename_i decided
    have noted := note_steps accepted (.clash key) s .trace .analysis fun _ =>
      "Analysis of " ++ key.text ++ " at level " ++ toString s.trail.level
    have decided' : (s.note .trace .analysis fun _ =>
        "Analysis of " ++ key.text ++ " at level " ++ toString s.trail.level).trail.hasDecision =
          true := by
      rw [trail_note]
      exact decided
    simp only
    generalize s.note .trace .analysis _ = t at noted decided' ⊢
    cases answer : t.derive key with
    | mk result s' =>
      cases result with
      | error failure =>
        exact ⟨noted.tail (.deriveFailed decided' answer), fun impossible => by cases impossible⟩
      | ok c =>
        have derived := noted.tail (.derive decided' answer)
        have learned := note_steps accepted (.derived c) (s'.rewardAtoms c) .trace .analysis fun _ =>
          "Learned " ++ c.text
        simp only
        generalize (s'.rewardAtoms c).note .trace .analysis _ = u at learned ⊢
        obtain ⟨steps, other⟩ := learn_steps accepted u c key
        exact ⟨(derived.trans learned).trans steps, fun impossible => absurd impossible other⟩
  · rename_i undecided
    refine ⟨note_steps accepted (.clash key) s _ _ _, fun _ => ?_⟩
    rw [trail_note]
    exact Bool.eq_false_iff.2 undecided

theorem undecided_of_fundamentalConflict {s : Solver} {key : ClauseKey}
    (fundamental : (s.analyse key).1 = .ok .fundamentalConflict) : s.trail.hasDecision = false := by
  by_contra decided
  unfold analyse at fundamental
  rw [if_pos (Bool.of_not_eq_false decided)] at fundamental
  simp only at fundamental
  split at fundamental
  · cases fundamental
  · exact (learn_steps [] _ _ key).2 fundamental

theorem heed_steps (s : Solver) {lesson : Lesson} {l : Literal} {source : Source}
    (taught : lesson.assertion? = some (l, source)) :
    Steps ⟨accepted, .taught lesson, s⟩
      ⟨accepted, .ofPass (s.heed l source).1, (s.heed l source).2⟩ := by
  unfold heed
  cases answer : s.assertLesson l source with
  | mk result s' =>
    cases result with
    | error failure => exact .single (.assertionFailed taught answer)
    | ok =>
      have asserted : Steps ⟨accepted, .taught lesson, s⟩ ⟨accepted, .rested, s'.restartIfDue.2⟩ :=
        (Relation.ReflTransGen.single (.assertion taught answer)).tail (.restart s')
      simp only [maintain]
      cases due : s'.restartIfDue.2.reductionIsDue with
      | false => exact asserted.tail (.keep due)
      | true =>
        simp only [if_true]
        cases reduced : s'.restartIfDue.2.reduce with
        | mk result s'' =>
          cases result with
          | error failure => exact asserted.tail (.reduceFailed due reduced)
          | ok removed => exact asserted.tail (.reduce due reduced)

theorem advance_steps (s : Solver) :
    Steps ⟨accepted, .quiet, s⟩ ⟨accepted, .ofPass (.ok s.advance.1), s.advance.2⟩ := by
  unfold advance
  cases stopped : s.shouldStop with
  | mk answer s' =>
    cases answer with
    | true => exact .single (.stop stopped)
    | false =>
      obtain ⟨journal, polls, same⟩ := s.shouldStop_eq
      rw [stopped] at same
      obtain rfl : s' = { s with journal, polls } := same
      have polled : Steps ⟨accepted, .quiet, s⟩ ⟨accepted, .quiet, { s with journal, polls }⟩ :=
        .single (.outside s journal s.counters s.random s.terminate polls)
      simp only
      cases decided : takeDecision { s with journal, polls } with
      | mk answer s'' =>
        cases answer with
        | none => exact polled.tail (.satisfy decided)
        | some l => exact polled.tail (.decide decided)

theorem pass_steps (s : Solver) :
    Steps ⟨accepted, .drawing, s⟩ ⟨accepted, .ofPass s.pass.1, s.pass.2⟩ := by
  have counted := counters_steps accepted .drawing s
    { s.counters with iterations := s.counters.iterations + 1 }
  have drawn := counted.trans (propagate_steps accepted s.countPass)
  unfold pass applyConsequences
  cases answer : s.countPass.propagate with
  | mk result s' =>
    rw [answer] at drawn
    cases result with
    | error failure => exact drawn
    | ok propagated =>
      cases propagated with
      | complete => exact drawn.trans (advance_steps accepted s')
      | conflict key =>
        replace drawn :=
          drawn.trans (counters_steps accepted (.clash key) s' s'.countConflict.counters)
        obtain ⟨steps, undecided⟩ := analyse_steps accepted s'.countConflict key
        replace drawn := drawn.trans steps
        simp only
        cases analysed : s'.countConflict.analyse key with
        | mk result s'' =>
          rw [analysed] at drawn undecided
          cases result with
          | error failure => exact drawn
          | ok lesson =>
            cases lesson with
            | fundamentalConflict => exact drawn.tail (.refute (undecided rfl))
            | unit l => exact drawn.trans (heed_steps accepted s'' rfl)
            | asserting l key => exact drawn.trans (heed_steps accepted s'' rfl)

theorem run_steps (passes : Nat) (s : Solver) :
    Steps ⟨accepted, .drawing, s⟩ ⟨accepted, .ofRun (run passes s).1, (run passes s).2⟩ := by
  induction passes generalizing s with
  | zero => exact .refl
  | succ passes ih =>
    have passed := pass_steps accepted s
    rw [run]
    cases answer : s.pass with
    | mk result s' =>
      rw [answer] at passed
      cases result with
      | error failure => exact passed
      | ok outcome =>
        cases outcome with
        | finished => exact passed
        | ongoing => exact passed.trans (ih s')

theorem solve_steps (s : Solver) (passes : Nat) :
    Steps ⟨accepted, .between, s⟩
      ⟨accepted, .ofSolve (s.solve passes).1, (s.solve passes).2⟩ := by
  unfold solve
  split
  · exact .refl
  · rename_i unsettled
    have begun : Steps ⟨accepted, .between, s⟩ ⟨accepted, .drawing, s.start⟩ :=
      .single (.start (Bool.eq_false_iff.2 unsettled))
    have searched := begun.trans (run_steps accepted passes s.start)
    cases answer : run passes s.start with
    | mk result s' =>
      rw [answer] at searched
      cases result with
      | error failure => exact searched
      | ok finished =>
        cases finished with
        | false => exact searched
        | true => exact searched.trans (note_steps accepted .between s' _ _ _)

theorem solve_report {s s' : Solver} {passes : Nat} {report : Report}
    (answer : s.solve passes = (.ok (some report), s')) : s'.report = report := by
  unfold solve at answer
  split at answer
  · cases answer
    rfl
  · split at answer
    · cases answer
    · cases answer
    · cases answer
      rfl

theorem heed_ok_iff {s s' : Solver} {l : Literal} {source : Source} {outcome : PassOutcome} :
    s.heed l source = (.ok outcome, s') ↔
      outcome = .ongoing ∧ ∃ s₁, s.assertLesson l source = (.ok (), s₁) ∧
        s₁.maintain = (.ok (), s') := by
  unfold heed
  match s.assertLesson l source with
  | (.error failure, s₁) => simp
  | (.ok (), s₁) =>
    match maintained : s₁.maintain with
    | (.error failure, s₂) => simp [maintained]
    | (.ok (), s₂) => simp [maintained, eq_comm]

theorem pass_ok {s s' : Solver} {outcome : PassOutcome} (answer : s.pass = (.ok outcome, s')) :
    (∃ s₁, s.countPass.propagate = (.ok .complete, s₁) ∧ s₁.advance = (outcome, s')) ∨
      ∃ key s₁ lesson s₂, s.countPass.propagate = (.ok (.conflict key), s₁) ∧
        s₁.countConflict.analyse key = (.ok lesson, s₂) ∧
        ((lesson = .fundamentalConflict ∧ outcome = .finished ∧
            s' = { s₂ with status := .unsatisfiable }) ∨
          ∃ l source, lesson.assertion? = some (l, source) ∧
            s₂.heed l source = (.ok outcome, s')) := by
  unfold pass applyConsequences at answer
  match drawn : s.countPass.propagate with
  | (.error failure, s₁) =>
    rw [drawn] at answer
    cases answer
  | (.ok .complete, s₁) =>
    rw [drawn] at answer
    cases answer
    exact .inl ⟨s₁, rfl, rfl⟩
  | (.ok (.conflict key), s₁) =>
    simp only [drawn] at answer
    match analysed : s₁.countConflict.analyse key with
    | (.error failure, s₂) =>
      rw [analysed] at answer
      cases answer
    | (.ok .fundamentalConflict, s₂) =>
      rw [analysed] at answer
      cases answer
      exact .inr ⟨key, s₁, _, s₂, rfl, analysed, .inl ⟨rfl, rfl, rfl⟩⟩
    | (.ok (.unit l), s₂) =>
      rw [analysed] at answer
      exact .inr ⟨key, s₁, _, s₂, rfl, analysed, .inr ⟨l, _, rfl, answer⟩⟩
    | (.ok (.asserting l reason), s₂) =>
      rw [analysed] at answer
      exact .inr ⟨key, s₁, _, s₂, rfl, analysed, .inr ⟨l, _, rfl, answer⟩⟩

theorem advance_eq {s s' : Solver} {outcome : PassOutcome} (answer : s.advance = (outcome, s')) :
    (s.shouldStop = (true, s') ∧ outcome = .finished) ∨
      ∃ s₁, s.shouldStop = (false, s₁) ∧
        ((∃ l, s₁.takeDecision = (some l, s') ∧ outcome = .ongoing) ∨
          ∃ s₂, s₁.takeDecision = (none, s₂) ∧ outcome = .finished ∧
            s' = { s₂ with status := .satisfiable }) := by
  unfold advance at answer
  match asked : s.shouldStop with
  | (true, s₁) =>
    rw [asked] at answer
    cases answer
    exact .inl ⟨rfl, rfl⟩
  | (false, s₁) =>
    simp only [asked] at answer
    match decided : s₁.takeDecision with
    | (some l, s₂) =>
      rw [decided] at answer
      cases answer
      exact .inr ⟨s₁, rfl, .inl ⟨l, decided, rfl⟩⟩
    | (none, s₂) =>
      rw [decided] at answer
      cases answer
      exact .inr ⟨s₁, rfl, .inr ⟨s₂, decided, rfl, rfl⟩⟩

theorem run_add (j k : Nat) (s : Solver) (ongoing : (run j s).1 = .ok false) :
    run (j + k) s = run k (run j s).2 := by
  induction j generalizing s with
  | zero => rw [Nat.zero_add]; rfl
  | succ j ih =>
    rw [run] at ongoing
    rw [Nat.succ_add, run, run]
    match answer : s.pass with
    | (.error failure, s') =>
      rw [answer] at ongoing
      cases ongoing
    | (.ok .finished, s') =>
      rw [answer] at ongoing
      cases ongoing
    | (.ok .ongoing, s') =>
      rw [answer] at ongoing
      exact ih _ ongoing

theorem run_of_ended {j k : Nat} {s : Solver} (ended : (run j s).1 ≠ .ok false) (le : j ≤ k) :
    run k s = run j s := by
  induction j generalizing s k with
  | zero => exact (ended rfl).elim
  | succ j ih =>
    obtain ⟨k, rfl⟩ : ∃ k', k = k' + 1 := ⟨k - 1, by omega⟩
    rw [run] at ended
    rw [run, run]
    match answer : s.pass with
    | (.error failure, s') => rfl
    | (.ok .finished, s') => rfl
    | (.ok .ongoing, s') =>
      rw [answer] at ended
      exact ih ended (by omega)

theorem run_unique {j k : Nat} {s : Solver} (first : (run j s).1 ≠ .ok false)
    (second : (run k s).1 ≠ .ok false) : run j s = run k s := by
  rcases Nat.le_total j k with le | le
  · exact (run_of_ended first le).symm
  · exact run_of_ended second le

def answerOf : Except Failure Bool × Solver → Except Failure (Option Report) × Solver
  | (.error failure, s) => (.error failure, s)
  | (.ok false, s) => (.ok none, s)
  | (.ok true, s) => (.ok (some s.conclude.report), s.conclude)

theorem solve_of_unsettled {s : Solver} (unsettled : s.isSettled = false) (passes : Nat) :
    s.solve passes = answerOf (run passes s.start) := by
  unfold solve
  rw [unsettled]
  match run passes s.start with
  | (.error failure, s') => rfl
  | (.ok false, s') => rfl
  | (.ok true, s') => rfl

theorem answerOf_eq_none_iff {ended : Except Failure Bool × Solver} :
    (answerOf ended).1 = .ok none ↔ ended.1 = .ok false := by
  match ended with
  | (.error failure, s) => simp [answerOf]
  | (.ok false, s) => simp [answerOf]
  | (.ok true, s) => simp [answerOf]

theorem solve_of_ended {j k : Nat} {s : Solver} (ended : (s.solve j).1 ≠ .ok none) (le : j ≤ k) :
    s.solve k = s.solve j := by
  cases settled : s.isSettled with
  | true => simp only [solve, settled, if_true]
  | false =>
    rw [solve_of_unsettled settled, Ne, answerOf_eq_none_iff] at ended
    rw [solve_of_unsettled settled, solve_of_unsettled settled, run_of_ended ended le]

def cramped : Settings := { decisionHeuristic := .fixedOrder, clauseLimit := 2 }

def bothSigns : Solver :=
  ((((new cramped).ensureAtoms 3).2.addClause [1, 2, 3]).2.addClause [-3, 1, 2]).2

theorem normalise_positive : Clause.normalise [1, 2, 3] = [1, 2, 3] :=
  Clause.normalise_of_sorted (by decide)

theorem normalise_negative : Clause.normalise [-3, 1, 2] = [-3, 1, 2] :=
  Clause.normalise_of_sorted (by decide)

/-- Sorting does not evaluate, so runs from these clauses begin at what it leaves them. -/
theorem bothSigns_eq : bothSigns =
    ((((new cramped).ensureAtoms 3).2.addNormal [1, 2, 3]).2.addNormal [-3, 1, 2]).2 := by
  rw [bothSigns, addClause_of_normal _ normalise_negative, addClause_of_normal _ normalise_positive]

theorem bothSigns_reachable :
    Reachable cramped ⟨[[1, 2, 3], [-3, 1, 2]], .between, bothSigns⟩ := by
  have atoms : Reachable cramped ⟨[], .between, ((new cramped).ensureAtoms 3).2⟩ :=
    .single (.ensureAtoms (new cramped) 3)
  rw [bothSigns_eq]
  exact (atoms.addNormal normalise_positive (by decide +kernel)).addNormal normalise_negative
    (by decide +kernel)

def clashing : Solver := (run 2 bothSigns.start).2.propagate.2

theorem clashing_reachable :
    Reachable cramped ⟨[[1, 2, 3], [-3, 1, 2]], .clash (.original 1), clashing⟩ := by
  have unsettled : bothSigns.isSettled = false := by
    rw [bothSigns_eq]
    decide +kernel
  have decided : (run 2 bothSigns.start).1 = .ok false := by
    rw [bothSigns_eq]
    decide +kernel
  have conflict : (run 2 bothSigns.start).2.propagate.1 = .ok (.conflict (.original 1)) := by
    rw [bothSigns_eq]
    decide +kernel
  have searched := run_steps [[1, 2, 3], [-3, 1, 2]] 2 bothSigns.start
  have drawn := propagate_steps [[1, 2, 3], [-3, 1, 2]] (run 2 bothSigns.start).2
  rw [decided] at searched
  rw [conflict] at drawn
  exact ((bothSigns_reachable.tail (.start unsettled)).trans searched).trans drawn

end Solver

end ClauseLearning
