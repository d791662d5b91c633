import ClauseLearning.Proofs.Failures
import ClauseLearning.Proofs.Surroundings

namespace ClauseLearning.Solver

variable {s s' : Solver} {formula : List Clause}

def SameTrail (s s' : Solver) : Prop := s'.trail = s.trail ∧ s'.atoms.size = s.atoms.size

namespace SameTrail

variable {s'' : Solver}

theorem of_eq (trail : s'.trail = s.trail) (size : s'.atoms.size = s.atoms.size) : s.SameTrail s' :=
  ⟨trail, size⟩

theorem trans (first : s.SameTrail s') (second : s'.SameTrail s'') : s.SameTrail s'' :=
  ⟨second.1.trans first.1, second.2.trans first.2⟩

theorem answered {α : Type} {call : α × Solver} {a : α} (kept : s.SameTrail call.2)
    (answer : call = (a, s')) : s.SameTrail s' := by
  rwa [answer] at kept

end SameTrail

theorem sameTrail_insert (s : Solver) (c : Clause) (origin : ClauseOrigin)
    (blockDistance : Option Nat) : s.SameTrail (s.insert c origin blockDistance).2 := by
  obtain ⟨journal, learned, inserted⟩ := s.insert_eq c origin blockDistance
  rw [inserted]
  exact .of_eq rfl rfl

theorem sameTrail_reduce (s : Solver) : s.SameTrail s.reduce.2 := by
  obtain ⟨count, journal, counters, reduced⟩ := s.reduce_eq
  rw [reduced]
  exact .of_eq rfl rfl

theorem restartIfDue_eq (early : s.schedule.conflict.1 = false) :
    s.restartIfDue.2 = { s with schedule := s.schedule.conflict.2 } := by
  unfold restartIfDue
  simp only [early]
  rfl

theorem restartIfDue_retreats (coherent : s.Coherent) (due : s.schedule.conflict.1 = true) :
    s.Retreats s.restartIfDue.2 0 := by
  have told : Coherent { s with schedule := s.schedule.conflict.2 } := { coherent with }
  have retreats := backjump_retreats told.aligned 0
  unfold restartIfDue
  simp only [due, if_true]
  obtain ⟨counters, journal, restarted⟩ := restart_eq { s with schedule := s.schedule.conflict.2 }
  rw [restarted]
  exact { retreats with }

theorem sameTrail_maintain (s : Solver) (early : s.schedule.conflict.1 = false) :
    s.SameTrail s.maintain.2 := by
  have told : s.SameTrail s.restartIfDue.2 := by
    rw [restartIfDue_eq early]
    exact .of_eq rfl rfl
  unfold maintain
  simp only
  split
  · have reduced := told.trans (sameTrail_reduce s.restartIfDue.2)
    split <;> rename_i answer <;> exact reduced.answered answer
  · exact told

theorem Coherent.restartIfDue_keeps (coherent : s.Coherent) :
    s.restartIfDue.2.clauses = s.clauses ∧ s.restartIfDue.2.atoms.size = s.atoms.size := by
  cases due : s.schedule.conflict.1 with
  | false =>
    rw [restartIfDue_eq due]
    exact ⟨rfl, rfl⟩
  | true =>
    have retreats := restartIfDue_retreats coherent due
    exact ⟨retreats.clauses, retreats.size⟩

theorem Coherent.size_maintain (coherent : s.Coherent) :
    s.maintain.2.atoms.size = s.atoms.size := by
  obtain ⟨-, size⟩ := coherent.restartIfDue_keeps
  unfold maintain
  simp only
  split
  · have reduced := (sameTrail_reduce s.restartIfDue.2).2.trans size
    split <;> rename_i answer <;> rwa [answer] at reduced
  · exact size

theorem assertLesson_ok {l : Literal} {source : Source}
    (answer : s.assertLesson l source = (.ok (), s')) :
    s'.trail = s.trail.push l ∧ s'.atoms.size = s.atoms.size ∧ s'.clauses = s.clauses := by
  have assigned := assign_of_assertLesson answer
  unfold assign at assigned
  simp only at assigned
  split at assigned
  · rename_i atoms given
    cases assigned
    have size := s.atoms.size_assign l s.trail.level source
    rw [given] at size
    rw [trail_note, atoms_note, clauses_note]
    exact ⟨rfl, size, rfl⟩
  · rename_i status atoms notAssigned given
    cases assigned
    exact (notAssigned rfl).elim

/-- A clause was derived from a conflict, and stored at the level to which the search went back. -/
structure Learns (formula : List Clause) (s : Solver) (l : Literal) (rest : Clause) (level : Nat)
    (s' : Solver) : Prop where
  derived : Derived formula s.trail l rest
  resolved : ∃ key t t', s.Resembles t ∧ t.Searching formula ∧ t.Conflicting key ∧
    t.derive key = (.ok (l :: rest), t')
  below : level < s.trail.level
  positive : rest ≠ [] → 0 < level
  stored : ∃ t key blockDistance, s.Resembles t ∧ s.SameFrame t ∧ t.Searching formula ∧
    (rest ≠ [] → blockDistance = some (Clause.blockDistance t.atoms.level (l :: rest))) ∧
      (t.backjump level).insert (l :: rest) .resolution blockDistance = (.ok key, s')

theorem learn_ok {rest : Clause} {lesson : Lesson} {l : Literal} (searching : s.Searching formula)
    (derived : Derived formula s.trail l rest) (answer : s.learn (l :: rest) = (.ok lesson, s')) :
    ∃ source level key blockDistance, lesson.assertion? = some (l, source) ∧
      level < s.trail.level ∧ (rest ≠ [] → 0 < level) ∧
      (rest ≠ [] → blockDistance = some (Clause.blockDistance s.atoms.level (l :: rest))) ∧
      (s.backjump level).insert (l :: rest) .resolution blockDistance = (.ok key, s') := by
  cases rest with
  | nil =>
    rw [learn] at answer
    split at answer <;> rename_i inserted <;> cases answer
    exact ⟨_, 0, _, none, rfl, derived.decided, fun long => (long rfl).elim,
      fun long => (long rfl).elim, inserted⟩
  | cons m rest =>
    obtain ⟨i, found, below, level⟩ := searching.invariant.assertionLevel_eq derived
    simp only [learn, level] at answer
    split at answer <;> rename_i inserted <;> cases answer
    refine ⟨_, _, _, _, rfl, below, fun _ => ?_, fun _ => rfl, inserted⟩
    obtain ⟨j, located, positive, -⟩ := derived.lower m List.mem_cons_self
    rwa [searching.invariant.coherent.agrees.distinct i j _ _ found located rfl]

theorem analyse_ok {key : ClauseKey} (good : s.Good formula (.clash key)) {lesson : Lesson}
    (answer : s.analyse key = (.ok lesson, s')) {l : Literal} {source : Source}
    (taught : lesson.assertion? = some (l, source)) :
    ∃ rest level, s.Learns formula l rest level s' := by
  obtain ⟨searching, conflicting⟩ := good
  cases decided : s.trail.hasDecision with
  | true =>
    obtain ⟨before, after, front, rest, u, derived, analysed, same, rewarded, derived'⟩ :=
      searching.invariant.analyse_eq conflicting decided
    rw [analysed] at answer
    have opened : s.Resembles { s with journal := before } := .of_eq rfl rfl rfl rfl rfl
    have searching' : Searching formula { s with journal := before } :=
      searching.congr opened searching.invariant.coherent.marked
    have learned : Searching formula { u.rewardAtoms (front :: rest) with journal := after } :=
      ⟨rewarded, same.status.trans searching.solving⟩
    have frame : s.SameFrame { u.rewardAtoms (front :: rest) with journal := after } :=
      s.sameFrame_rewarded derived
    obtain ⟨source', level, key', blockDistance, taught', below, positive, measured, stored⟩ :=
      learn_ok learned derived' answer
    cases taught.symm.trans taught'
    rw [same.trail] at below
    have fromTrail : Derived formula s.trail l rest := same.trail ▸ derived'
    exact ⟨rest, level, fromTrail, ⟨key, _, u, opened, searching', conflicting, derived⟩, below,
      positive, _, key', blockDistance, same, frame, learned, measured, stored⟩
  | false =>
    simp only [analyse, decided] at answer
    cases answer
    cases taught

theorem Learns.trail {l : Literal} {rest : Clause} {level : Nat}
    (learns : s.Learns formula l rest level s') :
    s'.trail = s.trail.cut level ∧ s'.atoms.size = s.atoms.size := by
  obtain ⟨t, key, blockDistance, same, -, searching, -, inserted⟩ := learns.stored
  have retreats := backjump_retreats searching.invariant.coherent.aligned level
  have kept := ((t.backjump level).sameTrail_insert _ .resolution blockDistance).answered inserted
  exact ⟨kept.1.trans (retreats.trail.trans (same.trail ▸ rfl)),
    kept.2.trans (retreats.size.trans same.assignments.size_eq)⟩

theorem Searching.pass_ongoing (searching : s.Searching formula)
    (answer : s.pass = (.ok .ongoing, s')) : s'.Searching formula := by
  have passed := Steps.good (pass_steps formula s) searching
  rwa [answer] at passed

theorem restarts_maintain (s : Solver) :
    s.maintain.2.counters.restarts = s.counters.restarts + s.schedule.conflict.1.toNat := by
  obtain ⟨journal, told⟩ := s.maintain_surroundings
  exact congrArg Surroundings.restarts told

theorem Draws.level_decide {s₁ : Solver} {l : Literal} (draws : s.Draws s₁)
    (trail : s'.trail = s₁.trail.pushLevel.push l) : s'.trail.level = s.trail.level + 1 := by
  rw [trail, Trail.level_decide, draws.level]

inductive Ongoing (formula : List Clause) (s s' : Solver) : Prop
  | decision {s₁ : Solver} {l : Literal} (draws : s.Draws s₁) (watched : s₁.Watched)
      (quiet : s₁.trail.head = s₁.trail.literals.size) (gains : s₁.Gains s' l .decision)
      (trail : s'.trail = s₁.trail.pushLevel.push l) (frame : s.SameFrame s₁)
      (settings : s'.settings = s.settings) (schedule : s'.schedule = s.schedule)
      (restarts : s'.counters.restarts = s.counters.restarts)
  | lesson {s₁ s₂ s₃ : Solver} {key : ClauseKey} {l : Literal} {rest : Clause} {level : Nat}
      {source : Source} (draws : s.Draws s₁) (frame : s.SameFrame s₁)
      (clash : s₁.Good formula (.clash key)) (learns : s₁.Learns formula l rest level s₂)
      (asserted : s₂.assertLesson l source = (.ok (), s₃)) (heeding : s₃.Searching formula)
      (settings : s₃.settings = s.settings) (schedule : s₃.schedule = s.schedule)
      (restarts : s₃.counters.restarts = s.counters.restarts)
      (maintained : s₃.maintain = (.ok (), s'))

theorem advance_decides (quiet : s.Good formula .quiet) (answer : s.advance = (.ongoing, s')) :
    ∃ l, s.Gains s' l .decision ∧ s'.trail = s.trail.pushLevel.push l ∧
      s'.settings = s.settings ∧ s'.schedule = s.schedule ∧
      s'.counters.restarts = s.counters.restarts := by
  rcases advance_eq answer with ⟨-, impossible⟩ |
    ⟨s₁, asked, ⟨l, decided, -⟩ | ⟨_, -, impossible, -⟩⟩
  · cases impossible
  · obtain ⟨journal, polls, polled⟩ := s.shouldStop_eq
    rw [asked] at polled
    obtain rfl : s₁ = { s with journal, polls } := polled
    have coherent : Coherent { s with journal, polls } := { quiet.1.invariant.coherent with }
    have settings : s'.settings = s.settings := ((sameFrame_takeDecision _).answered decided).1
    have kept := takeDecision_unaware.surroundings decided
    rcases takeDecision_spec coherent quiet.2 with ⟨_, nothing, -⟩ |
      ⟨_, _, ended, gains, -, -, trail⟩
    · cases decided.symm.trans nothing
    · cases decided.symm.trans ended
      exact ⟨l, { gains with }, trail, settings, kept.schedule, kept.restarts⟩
  · cases impossible

theorem analyse_asserts {key : ClauseKey} {lesson : Lesson} {l : Literal} {source : Source}
    {s₁ : Solver} (clash : s.Good formula (.clash key))
    (analysed : s.analyse key = (.ok lesson, s₁)) (taught : lesson.assertion? = some (l, source))
    (asserted : s₁.assertLesson l source = (.ok (), s')) :
    s'.Searching formula ∧ s'.settings = s.settings ∧ s'.schedule = s.schedule ∧
      s'.counters.restarts = s.counters.restarts := by
  have steps := (analyse_steps formula s key).1
  have told := Steps.good steps clash
  rw [analysed] at told
  have setup := ((Steps.sameSetup steps).answered analysed).trans
    ((sameFrame_assertLesson ..).answered asserted).setup
  have kept := ((analyse_unaware key).surroundings analysed).trans
    ((assertLesson_unaware l source).surroundings asserted)
  have searching : s'.Searching formula := by
    cases lesson <;> cases taught <;> exact Step.good (.assertion rfl asserted) told
  exact ⟨searching, setup.1, kept.schedule, kept.restarts⟩

theorem Searching.pass_cases (searching : s.Searching formula)
    (answer : s.pass = (.ok .ongoing, s')) : s.Ongoing formula s' := by
  have counted := searching.countPass
  obtain ⟨s₁, draws, watched, propagated⟩ := propagate_spec counted.invariant.watched
  have drawn := Steps.good (propagate_steps formula s.countPass) counted
  have frame : s.SameFrame s.countPass.propagate.2 :=
    .trans (.of_eq rfl rfl) (sameFrame_propagate s.countPass)
  -- A pass decides where nothing is left to draw, and otherwise learns from a conflict.
  rcases pass_ok answer with ⟨s₂, ended, advanced⟩ | ⟨key, s₂, lesson, s₃, ended, analysed, learned⟩
  all_goals
    obtain rfl : s₁ = s₂ := by
      rcases propagated with ⟨same, -⟩ | ⟨_, same, -⟩ <;>
        exact congrArg Prod.snd (same.symm.trans ended)
    have kept : s.countPass.SameSurroundings s₁ := propagate_unaware.surroundings ended
    rw [ended] at drawn frame
  · obtain ⟨l, gains, trail, settings, schedule, restarts⟩ := advance_decides drawn advanced
    exact .decision { draws with } watched drawn.2 gains trail frame (settings.trans frame.1)
      (schedule.trans kept.schedule) (restarts.trans kept.restarts)
  · rcases learned with ⟨-, impossible, -⟩ | ⟨l, source, taught, heeded⟩
    · cases impossible
    · obtain ⟨-, s₄, asserted, maintained⟩ := heed_ok_iff.1 heeded
      have clash :=
        Steps.good (counters_steps formula (.clash key) s₁ s₁.countConflict.counters) drawn
      obtain ⟨rest, level, learns⟩ := analyse_ok clash analysed taught
      obtain ⟨heeding, settings, schedule, restarts⟩ :=
        analyse_asserts clash analysed taught asserted
      have draws' : s.Draws s₁.countConflict := { draws with }
      exact .lesson draws' (frame.trans (.of_eq rfl rfl)) clash learns asserted heeding
        (settings.trans frame.1) (schedule.trans kept.schedule) (restarts.trans kept.restarts)
        maintained

theorem Searching.size_pass (searching : s.Searching formula)
    (answer : s.pass = (.ok .ongoing, s')) : s'.atoms.size = s.atoms.size := by
  cases searching.pass_cases answer with
  | decision draws _ _ gains => exact gains.size.trans draws.size
  | lesson draws _ _ learns asserted heeding _ _ _ maintained =>
    have size := heeding.invariant.coherent.size_maintain
    rw [maintained] at size
    exact size.trans ((assertLesson_ok asserted).2.1.trans (learns.trail.2.trans draws.size))

end ClauseLearning.Solver
