import ClauseLearning.Proofs.Failures
import ClauseLearning.Proofs.Surroundings

/-!
Interruptions. A search that is stopped at a poll and begun again goes on where it stopped: what it
had drawn it need not draw again, and the decision it was stopped before is the one it makes next.
So it ends like a search which nothing stopped.
-/

namespace ClauseLearning.Solver

/-- The searches differ at most in how they are stopped, what they noted and how often and how long
they ran. -/
def SameSearch (s t : Solver) : Prop :=
  ∃ terminate polls journal iterations elapsed,
    t = { s with terminate, polls, journal, counters := { s.counters with iterations, elapsed } }

def SameAnswer {α : Type} (call call' : α × Solver) : Prop :=
  call.1 = call'.1 ∧ call.2.SameSearch call'.2

/-- Searches again after each interruption, at most `calls` times in all. -/
def solveAgain (passes : Nat) : (calls : Nat) → Solver → Except Failure (Option Report) × Solver
  | 0, s => (.ok none, s)
  | calls + 1, s =>
    match s.solve passes with
    | (.ok (some .unknown), s) => solveAgain passes calls s
    | ended => ended

section SameSearch

variable {s t u : Solver}

theorem sameSearch_iff : s.SameSearch t ↔ ∃ o, t = s.within o ∧ o.status = s.status ∧
    o.schedule = s.schedule ∧ o.restarts = s.counters.restarts := by
  constructor
  · rintro ⟨terminate, polls, journal, iterations, elapsed, rfl⟩
    exact ⟨{ s.surroundings with terminate, polls, journal, iterations, elapsed }, rfl, rfl, rfl, rfl⟩
  · rintro ⟨⟨status, schedule, terminate, polls, journal, iterations, restarts, elapsed⟩, rfl,
      rfl, rfl, rfl⟩
    exact ⟨terminate, polls, journal, iterations, elapsed, rfl⟩

namespace SameSearch

theorem symm (same : s.SameSearch t) : t.SameSearch s := by
  obtain ⟨terminate, polls, journal, iterations, elapsed, rfl⟩ := same
  exact ⟨s.terminate, s.polls, s.journal, s.counters.iterations, s.counters.elapsed, rfl⟩

theorem trans (first : s.SameSearch t) (second : t.SameSearch u) : s.SameSearch u := by
  obtain ⟨terminate, polls, journal, iterations, elapsed, rfl⟩ := first
  obtain ⟨terminate, polls, journal, iterations, elapsed, rfl⟩ := second
  exact ⟨terminate, polls, journal, iterations, elapsed, rfl⟩

theorem settings (same : s.SameSearch t) : t.settings = s.settings := by
  obtain ⟨_, _, _, _, _, rfl⟩ := same
  rfl

theorem status (same : s.SameSearch t) : t.status = s.status := by
  obtain ⟨_, _, _, _, _, rfl⟩ := same
  rfl

theorem trail (same : s.SameSearch t) : t.trail = s.trail := by
  obtain ⟨_, _, _, _, _, rfl⟩ := same
  rfl

theorem reductionIsDue (same : s.SameSearch t) : t.reductionIsDue = s.reductionIsDue := by
  obtain ⟨_, _, _, _, _, rfl⟩ := same
  rfl

theorem withStatus (same : s.SameSearch t) (status : SolverStatus) :
    ({ s with status } : Solver).SameSearch { t with status } := by
  obtain ⟨terminate, polls, journal, iterations, elapsed, rfl⟩ := same
  exact ⟨terminate, polls, journal, iterations, elapsed, rfl⟩

theorem note (s : Solver) (level : Level) (topic : Topic) (message : Unit → String) :
    s.SameSearch (s.note level topic message) := by
  obtain ⟨journal, noted⟩ := s.note_eq level topic message
  rw [noted]
  exact ⟨s.terminate, s.polls, journal, s.counters.iterations, s.counters.elapsed, rfl⟩

theorem countConflict (same : s.SameSearch t) : s.countConflict.SameSearch t.countConflict := by
  obtain ⟨terminate, polls, journal, iterations, elapsed, rfl⟩ := same
  exact ⟨terminate, polls, journal, iterations, elapsed, rfl⟩

theorem polls (s : Solver) (polls : Nat) : s.SameSearch { s with polls } :=
  ⟨s.terminate, polls, s.journal, s.counters.iterations, s.counters.elapsed, rfl⟩

theorem countPass (s : Solver) : s.SameSearch s.countPass :=
  ⟨s.terminate, s.polls, s.journal, s.counters.iterations + 1, s.counters.elapsed, rfl⟩

end SameSearch

namespace SameAnswer

variable {α : Type} {call call' call'' : α × Solver}

theorem symm (same : SameAnswer call call') : SameAnswer call' call :=
  ⟨same.1.symm, same.2.symm⟩

theorem trans (first : SameAnswer call call') (second : SameAnswer call' call'') :
    SameAnswer call call'' :=
  ⟨first.1.trans second.1, first.2.trans second.2⟩

theorem exists_eq (same : SameAnswer call call') :
    ∃ a s t, call = (a, s) ∧ call' = (a, t) ∧ s.SameSearch t :=
  ⟨call.1, call.2, call'.2, rfl, Prod.ext same.1.symm rfl, same.2⟩

end SameAnswer

theorem Unaware.sameAnswer {α : Type} {call : Solver → α × Solver} (unaware : Unaware call)
    (same : s.SameSearch t) : SameAnswer (call s) (call t) := by
  obtain ⟨o, rfl, status, schedule, restarts⟩ := sameSearch_iff.1 same
  obtain ⟨journal, answered⟩ := unaware s o
  obtain ⟨journal', kept⟩ := unaware.change.surroundings s
  rw [answered]
  refine ⟨rfl, sameSearch_iff.2 ⟨{ o with journal }, rfl, ?_, ?_, ?_⟩⟩
  · exact status.trans (congrArg Surroundings.status kept).symm
  · exact schedule.trans (congrArg Surroundings.schedule kept).symm
  · exact restarts.trans (congrArg Surroundings.restarts kept).symm

theorem SameSearch.restartIfDue (same : s.SameSearch t) :
    SameAnswer s.restartIfDue t.restartIfDue := by
  obtain ⟨o, rfl, status, schedule, restarts⟩ := sameSearch_iff.1 same
  obtain ⟨journal, told⟩ := restartIfDue_within s o schedule
  obtain ⟨journal', kept⟩ := restartIfDue_within s s.surroundings rfl
  replace kept := congrArg (·.2.surroundings) kept
  rw [told]
  refine ⟨rfl, sameSearch_iff.2 ⟨_, rfl, ?_, ?_, ?_⟩⟩
  · exact status.trans (congrArg Surroundings.status kept).symm
  · exact (congrArg Surroundings.schedule kept).symm
  · exact (congrArg (· + _) restarts).trans (congrArg Surroundings.restarts kept).symm

theorem SameSearch.heed (same : s.SameSearch t) (l : Literal) (source : Source) :
    SameAnswer (s.heed l source) (t.heed l source) := by
  obtain ⟨result, s₁, t₁, answer, answer', same₁⟩ :=
    ((assertLesson_unaware l source).sameAnswer same).exists_eq
  obtain ⟨due, s₂, t₂, told, told', same₂⟩ := same₁.restartIfDue.exists_eq
  obtain ⟨reduced, s₃, t₃, taken, taken', same₃⟩ := (reduce_unaware.sameAnswer same₂).exists_eq
  unfold Solver.heed
  simp only [answer, answer']
  cases result with
  | error failure => exact ⟨rfl, same₁⟩
  | ok =>
    simp only [maintain, told, told', same₂.reductionIsDue]
    cases s₂.reductionIsDue with
    | false => exact ⟨rfl, same₂⟩
    | true =>
      simp only [taken, taken', if_true]
      cases reduced <;> exact ⟨rfl, same₃⟩

end SameSearch

structure Undisturbed (s : Solver) : Prop where
  conflictLimit : s.settings.conflictLimit = 0
  timeLimit : s.settings.timeLimit = 0
  polled : ∀ stop, s.terminate = some stop → ∀ poll, stop poll = false

/-- Searches that draw the same consequences next, whether or not they were drawn before. -/
def Resumes (s t : Solver) : Prop := SameAnswer s.propagate t.propagate

section Passes

variable {s t : Solver}

theorem Undisturbed.congr (undisturbed : s.Undisturbed) (settings : t.settings = s.settings)
    (terminate : t.terminate = s.terminate) : t.Undisturbed where
  conflictLimit := settings ▸ undisturbed.conflictLimit
  timeLimit := settings ▸ undisturbed.timeLimit
  polled := terminate ▸ undisturbed.polled

theorem shouldStop_cases (conflictLimit : s.settings.conflictLimit = 0)
    (timeLimit : s.settings.timeLimit = 0) :
    (∃ polls, s.shouldStop = (false, { s with polls })) ∨
      s.shouldStop = (true, { s with polls := s.polls + 1 }) ∧
        ∃ stop, s.terminate = some stop ∧ stop (s.polls + 1) = true := by
  have polled : s.shouldStop = s.poll := by
    simp [shouldStop, timeIsUp, conflictsAreUp, conflictLimit, timeLimit]
  rw [polled, poll]
  split
  · exact .inl ⟨s.polls, rfl⟩
  · rename_i stop terminate
    cases stopped : stop (s.polls + 1) with
    | false => exact .inl ⟨s.polls + 1, by simp only [stopped]⟩
    | true => exact .inr ⟨by simp only [stopped], stop, terminate, stopped⟩

theorem Undisturbed.shouldStop (undisturbed : s.Undisturbed) :
    ∃ polls, s.shouldStop = (false, { s with polls }) := by
  refine (shouldStop_cases undisturbed.conflictLimit undisturbed.timeLimit).resolve_right ?_
  rintro ⟨-, stop, terminate, stopped⟩
  cases stopped.symm.trans (undisturbed.polled stop terminate _)

theorem SameSearch.resumes (same : s.SameSearch t) : s.Resumes t :=
  propagate_unaware.sameAnswer same

theorem next?_propagate (complete : s.propagate.1 = .ok .complete) :
    s.propagate.2.trail.next? = none := by
  fun_induction propagate s with
  | case1 s none => exact none
  | case2 s l next after answer ih => exact ih complete
  | case3 s l next result after notComplete answer => exact (notComplete complete).elim

theorem Resumes.of_drawn (complete : s.propagate.1 = .ok .complete)
    (same : s.propagate.2.SameSearch t) : s.Resumes t := by
  have drawn : t.propagate = (.ok .complete, t) := by
    rw [propagate_eq, same.trail, next?_propagate complete]
  rw [Resumes, drawn]
  exact ⟨complete, same⟩

/-- A pass of `t` was stopped by a poll, and `s` is where it is to go on. -/
structure Interrupted (s t : Solver) : Prop where
  finished : t.pass.1 = .ok .finished
  resumes : s.Resumes t.pass.2
  status : t.pass.2.status = t.status
  terminate : t.pass.2.terminate = t.terminate
  polls : t.pass.2.polls = t.polls + 1
  polled : ∃ stop, t.terminate = some stop ∧ stop (t.polls + 1) = true

theorem propagate_keeps (s : Solver) : s.propagate.2.settings = s.settings ∧
    ∃ journal, s.propagate.2.surroundings = { s.surroundings with journal } :=
  ⟨(Steps.sameSetup (propagate_steps [] s)).1, propagate_unaware.change.surroundings s⟩

theorem SameSearch.decide (same : s.SameSearch t) (status : SolverStatus) :
    SameAnswer
      (match s.takeDecision with
        | (some _, s) => (PassOutcome.ongoing, s)
        | (none, s) => (.finished, { s with status }))
      (match t.takeDecision with
        | (some _, t) => (.ongoing, t)
        | (none, t) => (.finished, { t with status })) := by
  obtain ⟨l, s', t', decided, decided', same'⟩ := (takeDecision_unaware.sameAnswer same).exists_eq
  rw [decided, decided']
  cases l with
  | none => exact ⟨rfl, same'.withStatus status⟩
  | some l => exact ⟨rfl, same'⟩

theorem SameSearch.advance (same : s.SameSearch t) (undisturbed : s.Undisturbed) :
    SameAnswer s.advance t.advance ∨
      t.advance = (.finished, { t with polls := t.polls + 1 }) ∧
        ∃ stop, t.terminate = some stop ∧ stop (t.polls + 1) = true := by
  obtain ⟨polls, going⟩ := undisturbed.shouldStop
  rcases shouldStop_cases (s := t) (same.settings ▸ undisturbed.conflictLimit)
    (same.settings ▸ undisturbed.timeLimit) with ⟨polls', going'⟩ | ⟨stopped, polled⟩
  · left
    have asked : ({ s with polls } : Solver).SameSearch { t with polls := polls' } :=
      ((SameSearch.polls s polls).symm.trans same).trans (.polls t polls')
    simp only [Solver.advance, going, going']
    exact asked.decide .satisfiable
  · right
    exact ⟨by simp only [Solver.advance, stopped], polled⟩

theorem Resumes.pass (resumes : s.Resumes t) (undisturbed : s.Undisturbed) :
    SameAnswer s.pass t.pass ∨ s.Interrupted t := by
  have before := propagate_unaware.sameAnswer (.countPass s)
  have after := propagate_unaware.sameAnswer (.countPass t)
  obtain ⟨result, s₁, t₁, drawn, drawn', same⟩ :=
    ((before.symm.trans resumes).trans after).exists_eq
  -- The two can part only once all consequences are drawn, where the second may be stopped.
  match result with
  | .error failure =>
    left
    simp only [Solver.pass, applyConsequences, drawn, drawn']
    exact ⟨rfl, same⟩
  | .ok (.conflict key) =>
    left
    obtain ⟨lesson, s₂, t₂, taught, taught', same'⟩ :=
      ((analyse_unaware key).sameAnswer same.countConflict).exists_eq
    simp only [Solver.pass, applyConsequences, drawn, drawn', taught, taught']
    match lesson with
    | .error failure => exact ⟨rfl, same'⟩
    | .ok .fundamentalConflict => exact ⟨rfl, same'.withStatus _⟩
    | .ok (.unit l) => exact same'.heed l _
    | .ok (.asserting l key) => exact same'.heed l _
  | .ok .complete =>
    have kept := propagate_keeps s.countPass
    have kept' := propagate_keeps t.countPass
    rw [drawn] at kept
    rw [drawn'] at kept'
    obtain ⟨settings, journal, kept⟩ := kept
    obtain ⟨-, journal', kept'⟩ := kept'
    have undisturbed' : s₁.Undisturbed :=
      undisturbed.congr settings (congrArg Surroundings.terminate kept)
    have terminate : t₁.terminate = t.terminate := congrArg Surroundings.terminate kept'
    have polls : t₁.polls = t.polls := congrArg Surroundings.polls kept'
    have complete : s.propagate.1 = .ok .complete := before.1.trans (congrArg Prod.fst drawn)
    have reached : s.propagate.2.SameSearch t₁ := before.2.trans (drawn ▸ same)
    rcases same.advance undisturbed' with advanced | ⟨stopped, polled⟩
    · left
      simp only [Solver.pass, applyConsequences, drawn, drawn']
      exact ⟨congrArg Except.ok advanced.1, advanced.2⟩
    · right
      rw [terminate, polls] at polled
      have passed : t.pass = (.ok .finished, { t₁ with polls := t₁.polls + 1 }) := by
        simp only [Solver.pass, applyConsequences, drawn', stopped]
      refine ⟨?_, ?_, ?_, ?_, ?_, polled⟩
      all_goals rw [passed]
      · exact .of_drawn complete (reached.trans (.polls t₁ _))
      · exact congrArg Surroundings.status kept'
      · exact terminate
      · exact congrArg (· + 1) polls

theorem Undisturbed.propagate (undisturbed : s.Undisturbed) {result : Except Failure Propagated}
    (drawn : s.countPass.propagate = (result, t)) : t.Undisturbed := by
  obtain ⟨settings, journal, kept⟩ := propagate_keeps s.countPass
  rw [drawn] at settings kept
  exact undisturbed.congr settings (congrArg Surroundings.terminate kept)

theorem Undisturbed.pass_finished (undisturbed : s.Undisturbed)
    (finished : s.pass = (.ok .finished, t)) :
    t.status = .satisfiable ∨ t.status = .unsatisfiable ∧
      ∃ key s₁, s.countPass.propagate = (.ok (.conflict key), s₁) ∧
        s₁.trail.hasDecision = false := by
  rcases pass_ok finished with ⟨s₁, drawn, advanced⟩ |
    ⟨key, s₁, lesson, s₂, drawn, analysed, learned⟩
  · obtain ⟨polls, going⟩ := (undisturbed.propagate drawn).shouldStop
    rcases advance_eq advanced with ⟨stopped, -⟩ | ⟨s₂, -, ⟨l, -, impossible⟩ | ⟨s₃, -, -, rfl⟩⟩
    · cases going.symm.trans stopped
    · cases impossible
    · exact .inl rfl
  · rcases learned with ⟨rfl, -, rfl⟩ | ⟨l, source, -, heeded⟩
    · have undecided : s₁.countConflict.trail.hasDecision = false :=
        undecided_of_fundamentalConflict (congrArg Prod.fst analysed)
      exact .inr ⟨rfl, key, s₁, drawn, undecided⟩
    · cases (heed_ok_iff.1 heeded).1

theorem Undisturbed.settled_of_finished (undisturbed : s.Undisturbed)
    (finished : s.pass = (.ok .finished, t)) : t.isSettled = true := by
  rcases undisturbed.pass_finished finished with satisfiable | ⟨unsatisfiable, -⟩
  · simp [isSettled, satisfiable]
  · simp [isSettled, unsatisfiable]

theorem Undisturbed.pass (undisturbed : s.Undisturbed) (ongoing : s.pass = (.ok .ongoing, t)) :
    t.Undisturbed := by
  have settings := (Steps.sameSetup (pass_steps [] s)).1
  rw [ongoing] at settings
  refine undisturbed.congr settings ?_
  rcases pass_surroundings ongoing with ⟨polls, journal, kept⟩ | ⟨journal, kept⟩
  · exact congrArg Surroundings.terminate kept
  · exact congrArg Surroundings.terminate kept

theorem status_pass (ongoing : s.pass = (.ok .ongoing, t)) : t.status = s.status := by
  rcases pass_surroundings ongoing with ⟨polls, journal, kept⟩ | ⟨journal, kept⟩
  · exact congrArg Surroundings.status kept
  · exact congrArg Surroundings.status kept

theorem terminate_pass (ongoing : s.pass = (.ok .ongoing, t)) : t.terminate = s.terminate := by
  rcases pass_surroundings ongoing with ⟨polls, journal, kept⟩ | ⟨journal, kept⟩
  · exact congrArg Surroundings.terminate kept
  · exact congrArg Surroundings.terminate kept

end Passes

section Runs

variable {s t : Solver}

theorem Interrupted.run (interrupted : s.Interrupted t) (passes : Nat) :
    Solver.run (passes + 1) t = (.ok true, t.pass.2) := by
  have finished : t.pass = (.ok .finished, t.pass.2) := Prod.ext interrupted.finished rfl
  rw [Solver.run, finished]

theorem Resumes.run (resumes : s.Resumes t) (undisturbed : s.Undisturbed) (passes : Nat) :
    ((Solver.run passes s).1 = (Solver.run passes t).1 ∧
        ((Solver.run passes t).1 ≠ .ok false →
          (Solver.run passes s).2.SameSearch (Solver.run passes t).2)) ∨
      (Solver.run passes t).1 = .ok true ∧ (Solver.run passes t).2.status = t.status ∧
        ∃ k s', Solver.run k s = (.ok false, s') ∧ s'.Undisturbed ∧
          s'.Resumes (Solver.run passes t).2 := by
  induction passes generalizing s t with
  | zero => exact .inl ⟨rfl, fun ended => (ended rfl).elim⟩
  | succ passes ih =>
    rcases resumes.pass undisturbed with agree | interrupted
    · obtain ⟨result, s', t', answer, answer', same⟩ := agree.exists_eq
      match result with
      | .error failure =>
        rw [Solver.run, Solver.run, answer, answer']
        exact .inl ⟨rfl, fun _ => same⟩
      | .ok .finished =>
        rw [Solver.run, Solver.run, answer, answer']
        exact .inl ⟨rfl, fun _ => same⟩
      | .ok .ongoing =>
        rw [Solver.run, Solver.run, answer, answer']
        rcases ih same.resumes (undisturbed.pass answer) with ended |
          ⟨stopped, status, k, s'', later⟩
        · exact .inl ended
        · refine .inr ⟨stopped, status.trans (status_pass answer'), k + 1, s'', ?_⟩
          rw [Solver.run, answer]
          exact later
    · right
      rw [interrupted.run passes]
      exact ⟨rfl, interrupted.status, 0, s, rfl, undisturbed, interrupted.resumes⟩

theorem Undisturbed.settled_of_ended (undisturbed : s.Undisturbed) {passes : Nat}
    (ended : run passes s = (.ok true, t)) : t.isSettled = true := by
  induction passes generalizing s with
  | zero => cases ended
  | succ passes ih =>
    rw [run] at ended
    split at ended <;> rename_i answer
    · cases ended
    · cases ended
      exact undisturbed.settled_of_finished answer
    · exact ih (undisturbed.pass answer) ended

theorem start_of_solving (solving : s.status = .solving) : s.start = s := by
  rw [start, ← solving]

theorem isSettled_of_solving (solving : s.status = .solving) : s.isSettled = false := by
  simp [isSettled, solving]

theorem report_of_solving (solving : s.status = .solving) : s.report = .unknown := by
  rw [Solver.report, solving, Report.ofStatus]

theorem report_ne_unknown (settled : s.isSettled = true) : s.report ≠ .unknown := by
  cases status : s.status <;> simp_all [isSettled, Solver.report, Report.ofStatus]

theorem Undisturbed.answerOf_ne_unknown (undisturbed : s.Undisturbed) (passes : Nat) :
    (answerOf (run passes s)).1 ≠ .ok (some .unknown) := by
  match answer : run passes s with
  | (.error failure, s') => simp [answerOf]
  | (.ok false, s') => simp [answerOf]
  | (.ok true, s') =>
    have settled := undisturbed.settled_of_ended answer
    have concluded : s'.conclude.isSettled = true := by
      simpa [isSettled, Solver.conclude] using settled
    simp [answerOf, report_ne_unknown concluded]

theorem SameSearch.conclude (same : s.SameSearch t) : s.conclude.SameSearch t.conclude :=
  ((SameSearch.note s ..).symm.trans same).trans (.note t ..)

theorem SameSearch.report (same : s.SameSearch t) : t.report = s.report := by
  unfold Solver.report
  rw [same.status]

theorem SameAnswer.answerOf {ended ended' : Except Failure Bool × Solver}
    (same : SameAnswer ended ended') : SameAnswer (answerOf ended) (answerOf ended') := by
  obtain ⟨result, s, t, rfl, rfl, search⟩ := same.exists_eq
  match result with
  | .error failure => exact ⟨rfl, search⟩
  | .ok false => exact ⟨rfl, search⟩
  | .ok true => exact ⟨by simp only [Solver.answerOf, search.conclude.report], search.conclude⟩

end Runs

section Calls

variable {s t : Solver} {passes calls : Nat}

theorem solveAgain_of_ended {s : Solver} (ended : (s.solve passes).1 ≠ .ok (some .unknown)) :
    solveAgain passes (calls + 1) s = s.solve passes := by
  rw [solveAgain]
  match answer : s.solve passes with
  | (.error failure, s') => rfl
  | (.ok none, s') => rfl
  | (.ok (some .satisfiable), s') => rfl
  | (.ok (some .unsatisfiable), s') => rfl
  | (.ok (some .unknown), s') =>
    rw [answer] at ended
    exact (ended rfl).elim

theorem solveAgain_of_stopped (unsettled : s.isSettled = false)
    (stopped : run passes s.start = (.ok true, t)) (solving : t.status = .solving) :
    s.solveAgain passes (calls + 1) = t.conclude.solveAgain passes calls := by
  have concluded : t.conclude.status = .solving := (t.status_note ..).trans solving
  have unknown : s.solve passes = (.ok (some .unknown), t.conclude) := by
    rw [solve_of_unsettled unsettled, stopped, answerOf, report_of_solving concluded]
  rw [solveAgain, unknown]

theorem Resumes.conclude (resumes : s.Resumes t) (solving : t.status = .solving) :
    s.Resumes t.conclude.start ∧ t.conclude.isSettled = false := by
  have concluded : t.conclude.status = .solving := (t.status_note ..).trans solving
  rw [start_of_solving concluded]
  exact ⟨resumes.trans (SameSearch.note t ..).resumes, isSettled_of_solving concluded⟩

theorem Resumes.solveAgain (resumes : s.Resumes t.start) (undisturbed : s.Undisturbed)
    (unsettled : t.isSettled = false) (ended : (t.solveAgain passes calls).1 ≠ .ok none) :
    ∃ k, (Solver.run k s).1 ≠ .ok false ∧
      SameAnswer (answerOf (Solver.run k s)) (t.solveAgain passes calls) := by
  induction calls generalizing s t with
  | zero => exact (ended rfl).elim
  | succ calls ih =>
    rcases resumes.run undisturbed passes with
      ⟨agree, same⟩ | ⟨stopped, status, k, s', reached, undisturbed', resumes'⟩
    · have answer := solve_of_unsettled unsettled passes
      have notOut : (Solver.run passes t.start).1 ≠ .ok false := by
        intro out
        have none : (t.solve passes).1 = .ok none := answer ▸ answerOf_eq_none_iff.2 out
        rw [solveAgain_of_ended (by rw [none]; simp)] at ended
        exact ended none
      have same : SameAnswer (Solver.run passes s) (Solver.run passes t.start) := ⟨agree, same notOut⟩
      have known : (t.solve passes).1 ≠ .ok (some .unknown) := by
        rw [answer, ← same.answerOf.1]
        exact undisturbed.answerOf_ne_unknown passes
      rw [solveAgain_of_ended known, answer]
      exact ⟨passes, agree ▸ notOut, same.answerOf⟩
    · rw [solveAgain_of_stopped unsettled (Prod.ext stopped rfl) status] at ended ⊢
      obtain ⟨again, unsettled'⟩ := resumes'.conclude status
      obtain ⟨k', finished, same⟩ := ih again undisturbed' unsettled' ended
      have further : Solver.run (k + k') s = Solver.run k' s' := by
        rw [run_add k k' s (by rw [reached]), reached]
      exact ⟨k + k', further ▸ finished, further ▸ same⟩

theorem Resumes.run_ended (resumes : s.Resumes t) (undisturbed : s.Undisturbed)
    (ended : (Solver.run passes s).1 ≠ .ok false) : (Solver.run passes t).1 ≠ .ok false := by
  rcases resumes.run undisturbed passes with ⟨agree, -⟩ | ⟨stopped, -⟩
  · exact agree ▸ ended
  · simp [stopped]

theorem solveAgain_of_ongoing (unsettled : s.isSettled = false)
    (ongoing : s.start.pass = (.ok .ongoing, t)) (solving : t.status = .solving)
    (ended : (run passes t).1 ≠ .ok false) :
    s.solveAgain (passes + 1) (calls + 1) = t.solveAgain (passes + 1) (calls + 1) := by
  have same : s.solve (passes + 1) = t.solve (passes + 1) := by
    rw [solve_of_unsettled unsettled, solve_of_unsettled (isSettled_of_solving solving),
      start_of_solving solving, run_of_ended ended (Nat.le_succ passes), run, ongoing]
  rw [solveAgain, solveAgain, same]

theorem Undisturbed.solveAgain_once (undisturbed : s.Undisturbed) (unsettled : t.isSettled = false)
    (ended : (run passes s).1 ≠ .ok false)
    (agree : SameAnswer (run passes s) (run passes t.start)) :
    (t.solveAgain passes 1).1 ≠ .ok none := by
  have known := undisturbed.answerOf_ne_unknown passes
  rw [agree.answerOf.1, ← solve_of_unsettled unsettled] at known
  rw [solveAgain_of_ended known, solve_of_unsettled unsettled, Ne, answerOf_eq_none_iff, ← agree.1]
  exact ended

theorem Interrupted.conclude {stop : Nat → Bool} (interrupted : s.Interrupted t.start)
    (polled : t.terminate = some stop) :
    stop (t.polls + 1) = true ∧ t.start.pass.2.conclude.polls = t.polls + 1 ∧
      t.start.pass.2.conclude.terminate = some stop := by
  obtain ⟨stop', terminate, stopped⟩ := interrupted.polled
  obtain rfl : stop' = stop := Option.some.inj (terminate.symm.trans polled)
  obtain ⟨journal, concluded⟩ := (note_unheeding .info .solve _).surroundings t.start.pass.2
  exact ⟨stopped, (congrArg Surroundings.polls concluded).trans interrupted.polls,
    (congrArg Surroundings.terminate concluded).trans (interrupted.terminate.trans polled)⟩

theorem Resumes.solveAgain_ends {stop : Nat → Bool} (resumes : s.Resumes t.start)
    (undisturbed : s.Undisturbed) (unsettled : t.isSettled = false)
    (polled : t.terminate = some stop) (again : ∀ n, ∃ poll ≥ n, stop poll = false)
    (ended : (Solver.run passes s).1 ≠ .ok false) {k : Nat} (le : passes ≤ k) :
    ∃ calls, (t.solveAgain k calls).1 ≠ .ok none := by
  induction passes generalizing s t with
  | zero => exact (ended rfl).elim
  | succ passes ih =>
    obtain ⟨k, rfl⟩ : ∃ k', k = k' + 1 := ⟨k - 1, by omega⟩
    obtain ⟨poll, later, going⟩ := again (t.polls + 1)
    obtain ⟨d, rfl⟩ := Nat.exists_eq_add_of_le later
    have longer : (Solver.run (k + 1) s).1 ≠ .ok false := run_of_ended ended le ▸ ended
    -- Each pass that is stopped brings the poll nearer that lets the search go on.
    induction d using Nat.strongRecOn generalizing t with
    | ind d nearer =>
      rcases resumes.pass undisturbed with agree | interrupted
      · obtain ⟨result, s', t', answer, answer', same⟩ := agree.exists_eq
        match result with
        | .error failure =>
          refine ⟨1, undisturbed.solveAgain_once unsettled longer ?_⟩
          rw [Solver.run, Solver.run, answer, answer']
          exact ⟨rfl, same⟩
        | .ok .finished =>
          refine ⟨1, undisturbed.solveAgain_once unsettled longer ?_⟩
          rw [Solver.run, Solver.run, answer, answer']
          exact ⟨rfl, same⟩
        | .ok .ongoing =>
          rw [Solver.run, answer] at ended longer
          have solving : t'.status = .solving := status_pass answer'
          have resumes' : s'.Resumes t'.start := start_of_solving solving ▸ same.resumes
          have undisturbed' := undisturbed.pass answer
          obtain ⟨calls, ended'⟩ := ih resumes' undisturbed' (isSettled_of_solving solving)
            ((terminate_pass answer').trans polled) ended (by omega)
          cases calls with
          | zero => exact (ended' rfl).elim
          | succ calls =>
            refine ⟨calls + 1, ?_⟩
            rw [solveAgain_of_ongoing unsettled answer' solving
              (same.resumes.run_ended undisturbed' longer)]
            exact ended'
      · obtain ⟨stopped, polls, polled'⟩ := interrupted.conclude polled
        obtain ⟨d, rfl⟩ : ∃ d', d = d' + 1 := by
          cases d with
          | zero => cases stopped.symm.trans going
          | succ d => exact ⟨d, rfl⟩
        obtain ⟨resumes', unsettled'⟩ := interrupted.resumes.conclude interrupted.status
        obtain ⟨calls, ended'⟩ := nearer d (Nat.lt_succ_self d) resumes' unsettled' polled'
          (Nat.le_add_right _ _) (by rw [polls]; convert going using 2; omega)
        refine ⟨calls + 1, ?_⟩
        rw [solveAgain_of_stopped unsettled (interrupted.run k) interrupted.status]
        exact ended'

end Calls

/-- A search that is stopped at any polls, and begun again each time, ends as it does where nothing
stops it; and it does end, unless from some poll on it is stopped at each. -/
theorem solveAgain_sameAnswer {s : Solver} {passes : Nat}
    (conflictLimit : s.settings.conflictLimit = 0) (timeLimit : s.settings.timeLimit = 0)
    (unstopped : ∀ stop, s.terminate = some stop → ∀ poll, stop poll = false)
    (ended : (s.solve passes).1 ≠ .ok none) (stop : Nat → Bool) (polls : Nat) :
    (∀ k calls, (solveAgain k calls { s with terminate := some stop, polls }).1 ≠ .ok none →
        SameAnswer (s.solve passes) (solveAgain k calls { s with terminate := some stop, polls })) ∧
      ((∃ calls, (solveAgain passes calls { s with terminate := some stop, polls }).1 ≠ .ok none) ∨
        ∃ n, ∀ poll ≥ n, stop poll = true) := by
  have same : s.SameSearch { s with terminate := some stop, polls } :=
    ⟨some stop, polls, s.journal, s.counters.iterations, s.counters.elapsed, rfl⟩
  generalize polled : ({ s with terminate := some stop, polls } : Solver) = t at same ⊢
  have terminate : t.terminate = some stop := polled ▸ rfl
  have isSettled : t.isSettled = s.isSettled := by
    rw [Solver.isSettled, same.status, Solver.isSettled]
  -- What is settled is answered at once, and all else starts a search.
  cases settled : s.isSettled with
  | true =>
    have answer (k : Nat) : t.solve k = (.ok (some s.report), t) := by
      rw [solve, isSettled, settled, if_pos rfl, same.report]
    have once (k calls : Nat) : t.solveAgain k (calls + 1) = (.ok (some s.report), t) := by
      rw [solveAgain_of_ended (by rw [answer]; simpa using report_ne_unknown settled), answer]
    refine ⟨fun k calls ended' => ?_, .inl ⟨1, by simp [once]⟩⟩
    cases calls with
    | zero => exact (ended' rfl).elim
    | succ calls =>
      rw [once, solve, settled, if_pos rfl]
      exact ⟨rfl, same⟩
  | false =>
    have unsettled : t.isSettled = false := isSettled.trans settled
    have undisturbed : s.start.Undisturbed := ⟨conflictLimit, timeLimit, unstopped⟩
    have resumes : s.start.Resumes t.start := (same.withStatus .solving).resumes
    have answer := solve_of_unsettled settled passes
    have ended' : (run passes s.start).1 ≠ .ok false := by
      rwa [answer, Ne, answerOf_eq_none_iff] at ended
    constructor
    · intro k calls ended''
      obtain ⟨k', finished, agree⟩ := resumes.solveAgain undisturbed unsettled ended''
      rw [answer, run_unique ended' finished]
      exact agree
    · by_cases again : ∀ n, ∃ poll ≥ n, stop poll = false
      · exact .inl (resumes.solveAgain_ends undisturbed unsettled terminate again ended'
          (Nat.le_refl passes))
      · right
        simpa using again

theorem bothSigns_solveAgain :
    (solve { bothSigns with terminate := some fun poll => poll % 2 == 1 } 3).1 =
        .ok (some .unknown) ∧
      (solveAgain 3 3 { bothSigns with terminate := some fun poll => poll % 2 == 1 }).1 =
        .error (.clauseLimit 2) ∧
      SameAnswer (bothSigns.solve 3)
        (solveAgain 3 3 { bothSigns with terminate := some fun poll => poll % 2 == 1 }) := by
  have unlimited : bothSigns.settings.conflictLimit = 0 ∧ bothSigns.settings.timeLimit = 0 ∧
      bothSigns.polls = 0 := by
    rw [bothSigns_eq]
    decide +kernel
  have unpolled : bothSigns.terminate.isNone = true := by
    rw [bothSigns_eq]
    decide +kernel
  have failed : (bothSigns.solve 3).1 = .error (.clauseLimit 2) := by
    rw [bothSigns_eq]
    decide +kernel
  have stopped : (solve { bothSigns with terminate := some fun poll => poll % 2 == 1 } 3).1 =
      .ok (some .unknown) := by
    rw [bothSigns_eq]
    decide +kernel
  have again : (solveAgain 3 3 { bothSigns with terminate := some fun poll => poll % 2 == 1 }).1 =
      .error (.clauseLimit 2) := by
    rw [bothSigns_eq]
    decide +kernel
  obtain ⟨conflictLimit, timeLimit, polls⟩ := unlimited
  have finished : (bothSigns.solve 3).1 ≠ .ok none := by
    rw [failed]
    simp
  have ended := (solveAgain_sameAnswer conflictLimit timeLimit
    (fun stop terminate => by simp [terminate] at unpolled) finished
    (fun poll => poll % 2 == 1) bothSigns.polls).1 3 3
  exact ⟨stopped, again, ended (by rw [again]; simp)⟩

end ClauseLearning.Solver
