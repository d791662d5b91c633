import ClauseLearning.Proofs.Search

/-!
What surrounds a search. The work of a pass takes no account of the status, the schedule, the polls,
the journal and the counters of passes and restarts: it does the same whatever they are, and leaves
all of them but the journal as they were.
-/

namespace ClauseLearning

/-- What the work of a pass takes no account of. -/
structure Surroundings where
  status : SolverStatus
  schedule : RestartSchedule
  terminate : Option (Nat → Bool)
  polls : Nat
  journal : Journal
  iterations : Nat
  restarts : Nat
  elapsed : Nat

namespace Solver

def surroundings (s : Solver) : Surroundings where
  status := s.status
  schedule := s.schedule
  terminate := s.terminate
  polls := s.polls
  journal := s.journal
  iterations := s.counters.iterations
  restarts := s.counters.restarts
  elapsed := s.counters.elapsed

def within (s : Solver) (o : Surroundings) : Solver :=
  { s with
    status := o.status
    schedule := o.schedule
    terminate := o.terminate
    polls := o.polls
    journal := o.journal
    counters :=
      { s.counters with iterations := o.iterations, restarts := o.restarts, elapsed := o.elapsed } }

section Within

variable (s : Solver) (o o' : Surroundings)

@[simp] theorem settings_within : (s.within o).settings = s.settings := rfl

@[simp] theorem atoms_within : (s.within o).atoms = s.atoms := rfl

@[simp] theorem clauses_within : (s.within o).clauses = s.clauses := rfl

@[simp] theorem trail_within : (s.within o).trail = s.trail := rfl

@[simp] theorem buffer_within : (s.within o).buffer = s.buffer := rfl

@[simp] theorem learned_within : (s.within o).learned = s.learned := rfl

end Within

/-- The call does the same whatever the surroundings, of which it changes the journal alone. -/
def Unaware {α : Type} (call : Solver → α × Solver) : Prop :=
  ∀ s o, ∃ journal, call (s.within o) = ((call s).1, (call s).2.within { o with journal })

def Unheeding (change : Solver → Solver) : Prop :=
  ∀ s o, ∃ journal, change (s.within o) = (change s).within { o with journal }

namespace Unheeding

variable {f g : Solver → Solver}

theorem of_eq (same : ∀ s o, f (s.within o) = (f s).within o) : Unheeding f :=
  fun s o => ⟨o.journal, same s o⟩

theorem comp (second : Unheeding g) (first : Unheeding f) : Unheeding fun s => g (f s) := by
  intro s o
  obtain ⟨journal, changed⟩ := first s o
  obtain ⟨journal', changed'⟩ := second (f s) { o with journal }
  exact ⟨journal', by simp only [changed, changed']⟩

theorem surroundings (unheeding : Unheeding f) (s : Solver) :
    ∃ journal, (f s).surroundings = { s.surroundings with journal } := by
  obtain ⟨journal, changed⟩ := unheeding s s.surroundings
  exact ⟨journal, congrArg Solver.surroundings changed⟩

theorem foldl {β : Type} {f : Solver → β → Solver} (each : ∀ b, Unheeding (f · b)) (bs : List β) :
    Unheeding fun s => bs.foldl f s := by
  induction bs with
  | nil => exact of_eq fun s o => rfl
  | cons b rest ih => exact ih.comp (each b)

end Unheeding

namespace Unaware

variable {α : Type} {call : Solver → α × Solver}

theorem of_eq (same : ∀ s o, call (s.within o) = ((call s).1, (call s).2.within o)) :
    Unaware call :=
  fun s o => ⟨o.journal, same s o⟩

theorem ite {yes no : Solver → α × Solver} {p : Solver → Prop} [∀ s, Decidable (p s)]
    (same : ∀ s o, p (s.within o) ↔ p s) (first : Unaware yes) (second : Unaware no) :
    Unaware fun s => if p s then yes s else no s := by
  intro s o
  by_cases holds : p s
  · obtain ⟨journal, answered⟩ := first s o
    exact ⟨journal, by simp only [if_pos holds, if_pos ((same s o).2 holds), answered]⟩
  · obtain ⟨journal, answered⟩ := second s o
    exact ⟨journal, by simp only [if_neg holds, if_neg fun after => holds ((same s o).1 after),
      answered]⟩

theorem answer (a : α) {change : Solver → Solver} (unheeding : Unheeding change) :
    Unaware fun s => (a, change s) := by
  intro s o
  obtain ⟨journal, changed⟩ := unheeding s o
  exact ⟨journal, by simp only [changed]⟩

theorem change (unaware : Unaware call) : Unheeding fun s => (call s).2 := by
  intro s o
  obtain ⟨journal, answered⟩ := unaware s o
  exact ⟨journal, by simp only [answered]⟩

theorem after {change : Solver → Solver} (unaware : Unaware call) (unheeding : Unheeding change) :
    Unaware fun s => call (change s) := by
  intro s o
  obtain ⟨journal, changed⟩ := unheeding s o
  obtain ⟨journal', answered⟩ := unaware (change s) { o with journal }
  exact ⟨journal', by simp only [changed, answered]⟩

end Unaware

theorem note_unheeding (level : Level) (topic : Topic) (message : Unit → String) :
    Unheeding (note · level topic message) := by
  intro s o
  obtain ⟨journal, noted⟩ := s.note_eq level topic message
  obtain ⟨journal', noted'⟩ := (s.within o).note_eq level topic message
  exact ⟨journal', by simp only [noted, noted']; rfl⟩

theorem noteFailure_unheeding (failure : Failure) : Unheeding (noteFailure · failure) := by
  intro s o
  obtain ⟨journal, noted⟩ := s.noteFailure_eq failure
  obtain ⟨journal', noted'⟩ := (s.within o).noteFailure_eq failure
  exact ⟨journal', by simp only [noted, noted']; rfl⟩

theorem note_about_unheeding (level : Level) (topic : Topic) {message : Solver → Unit → String}
    (about : ∀ s o, message (s.within o) = message s) :
    Unheeding fun s => s.note level topic (message s) := by
  intro s o
  simp only [about]
  exact note_unheeding level topic (message s) s o

theorem assign_unaware (l : Literal) (source : Source) : Unaware (assign · l source) := by
  intro s o
  unfold assign
  simp only [trail_within, atoms_within]
  split
  · rename_i atoms _
    exact Unaware.answer _ (note_unheeding _ _ _) { s with atoms, trail := s.trail.push l } o
  · exact ⟨o.journal, rfl⟩

theorem imply_unheeding (l : Literal) (key : ClauseKey) : Unheeding (imply · l key) := by
  have counted : Unheeding fun s =>
      { s with counters := { s.counters with propagations := s.counters.propagations + 1 } } :=
    .of_eq fun _ _ => rfl
  exact (counted.comp (assign_unaware l (.propagation key)).change).comp
    (note_unheeding .trace .propagation fun _ => l.text ++ " from " ++ key.text)

theorem moveWatch_within (s : Solver) (o : Surroundings) (l : Literal) (key : ClauseKey) :
    (s.within o).moveWatch l key = ((s.moveWatch l key).1, (s.moveWatch l key).2.within o) :=
  rfl

theorem visit_unaware (l : Literal) (key : ClauseKey) : Unaware (visit · l key) := by
  intro s o
  simp only [visit, moveWatch_within]
  obtain ⟨answer, t⟩ := s.moveWatch (-l) key
  rcases answer with failure | _ | ⟨_ | fresh, front⟩
  · exact Unaware.answer _ (noteFailure_unheeding _) t o
  · exact Unaware.answer _ (noteFailure_unheeding _) t o
  · simp only [atoms_within]
    split
    · exact ⟨o.journal, rfl⟩
    · exact Unaware.answer _ (note_unheeding _ _ _) t o
    · exact Unaware.answer _ (imply_unheeding _ _) t o
  · exact ⟨o.journal, rfl⟩

theorem walk_unaware (l : Literal) (w : Walk) (i : Nat) (o : Surroundings) :
    ∃ journal, walk l ⟨w.solver.within o, w.list, w.length⟩ i =
      ((walk l w i).1, ⟨(walk l w i).2.solver.within { o with journal }, (walk l w i).2.list,
        (walk l w i).2.length⟩) := by
  fun_induction walk l w i generalizing o with
  | case1 i s list length inside absent =>
    rw [walk, if_pos inside]
    simp only [absent]
    exact ⟨o.journal, rfl⟩
  | case2 i s list length inside key found s' answer ih =>
    obtain ⟨journal, visited⟩ := visit_unaware l key s o
    obtain ⟨journal', walked⟩ := ih { o with journal }
    rw [walk, if_pos inside]
    simp only [found, visited, answer]
    exact ⟨journal', walked⟩
  | case3 i s list length inside key found s' answer ih =>
    obtain ⟨journal, visited⟩ := visit_unaware l key s o
    obtain ⟨journal', walked⟩ := ih { o with journal }
    rw [walk, if_pos inside]
    simp only [found, visited, answer]
    exact ⟨journal', walked⟩
  | case4 i s list length inside key found s' answer =>
    obtain ⟨journal, visited⟩ := visit_unaware l key s o
    rw [walk, if_pos inside]
    simp only [found, visited, answer]
    exact ⟨journal, rfl⟩
  | case5 i s list length inside key found failure s' answer =>
    obtain ⟨journal, visited⟩ := visit_unaware l key s o
    rw [walk, if_pos inside]
    simp only [found, visited, answer]
    exact ⟨journal, rfl⟩
  | case6 i s list length outside =>
    rw [walk, if_neg outside]
    exact ⟨o.journal, rfl⟩

theorem propagateLiteral_unaware (l : Literal) : Unaware (propagateLiteral · l) := by
  intro s o
  obtain ⟨journal, walked⟩ := walk_unaware l ⟨s.modifyWatches fun w => (w.take (-l)).2,
    s.clauses.watches.watchers (-l), (s.clauses.watches.watchers (-l)).size⟩ 0 o
  have drawn := propagateLiteral_eq (s := s.within o) walked
  exact ⟨journal, drawn⟩

/-- The recursion of `propagate`, without the proofs that it carries. -/
theorem propagate_eq (s : Solver) : s.propagate =
    match s.trail.next? with
    | none => (.ok .complete, s)
    | some l =>
      match s.propagateLiteral l with
      | (.ok .complete, after) => after.pastHead.propagate
      | stopped => stopped := by
  rw [propagate]
  split
  · rename_i none
    rw [none]
  · rename_i l next
    rw [next]
    simp only
    split
    · rename_i after answer
      rw [answer]
      rfl
    · rename_i result after notComplete answer
      rw [answer]
      split
      · rename_i same
        cases same
        exact (notComplete rfl).elim
      · rfl

theorem propagate_unaware : Unaware propagate := by
  intro s o
  -- The recursion takes the same turns in any surroundings.
  fun_induction propagate s generalizing o with
  | case1 s none =>
    rw [propagate_eq, trail_within, none]
    exact ⟨o.journal, rfl⟩
  | case2 s l next after answer ih =>
    obtain ⟨journal, drawn⟩ := propagateLiteral_unaware l s o
    obtain ⟨journal', propagated⟩ := ih { o with journal }
    rw [propagate_eq, trail_within, next]
    simp only [drawn, answer]
    exact ⟨journal', propagated⟩
  | case3 s l next result after notComplete answer =>
    obtain ⟨journal, drawn⟩ := propagateLiteral_unaware l s o
    rw [propagate_eq, trail_within, next]
    simp only [drawn, answer]
    refine ⟨journal, ?_⟩
    split
    · rename_i same
      cases same
      exact (notComplete rfl).elim
    · rfl

theorem chooseAtom_unaware : Unaware chooseAtom := by
  have flip (s : Solver) (o : Surroundings) : (s.within o).chance s.settings.randomDecisionBias =
      ((s.chance s.settings.randomDecisionBias).1,
        (s.chance s.settings.randomDecisionBias).2.within o) := rfl
  unfold chooseAtom
  refine .ite (fun _ _ => Iff.rfl) (.of_eq fun s o => ?_) (.of_eq fun _ _ => rfl)
  simp only [settings_within, flip]
  cases s.chance s.settings.randomDecisionBias with
  | mk drawn s' => cases drawn <;> rfl

theorem choosePolarity_unaware (a : Atom) : Unaware (choosePolarity · a) := by
  unfold choosePolarity
  exact .ite (fun _ _ => Iff.rfl) (.of_eq fun _ _ => rfl) (.of_eq fun _ _ => rfl)

theorem openDecision_unaware (l : Literal) : Unaware fun s =>
    (some l, (assign ((countDecision s).pushLevel.note .trace .decision fun _ =>
      "Decision " ++ l.text ++ " at level " ++ toString (countDecision s).pushLevel.trail.level) l
        .decision).2) := by
  have opened : Unheeding fun s => (countDecision s).pushLevel := .of_eq fun _ _ => rfl
  have noted : Unheeding fun s : Solver => s.note .trace .decision fun _ =>
      "Decision " ++ l.text ++ " at level " ++ toString s.trail.level :=
    note_about_unheeding .trace .decision fun _ _ => rfl
  exact .answer (some l) (((assign_unaware l .decision).change.comp noted).comp opened)

theorem takeDecision_unaware : Unaware takeDecision := by
  intro s o
  obtain ⟨journal, chosen⟩ := chooseAtom_unaware s o
  unfold takeDecision
  simp only [chosen]
  cases s.chooseAtom with
  | mk a s' =>
    cases a with
    | none => exact ⟨journal, rfl⟩
    | some a =>
      obtain ⟨journal', polarised⟩ := choosePolarity_unaware a s' { o with journal }
      simp only [polarised]
      exact openDecision_unaware _ (s'.choosePolarity a).2 _

theorem unassign_unheeding (l : Literal) : Unheeding (unassign · l) := by
  have taken : Unheeding fun s => { s with atoms := s.atoms.unassign l.natAbs } :=
    .of_eq fun _ _ => rfl
  exact taken.comp (note_unheeding .trace .valuation fun _ =>
    "Cleared atom: " ++ toString l.natAbs)

theorem backjump_unheeding (n : Nat) : Unheeding (backjump · n) := by
  intro s o
  obtain ⟨journal, noted⟩ := note_unheeding .trace .backjump
    (fun _ => "Backjump from " ++ toString s.trail.level ++ " to " ++ toString n) s o
  unfold backjump
  simp only [trail_within, noted]
  split
  · exact ⟨o.journal, rfl⟩
  · generalize s.note .trace .backjump _ = t
    exact Unheeding.foldl unassign_unheeding _ { t with trail := t.trail.cut n } { o with journal }

theorem assertionLevel_unaware (c : Clause) : Unaware (assertionLevel · c) := by
  intro s o
  unfold assertionLevel noteError
  simp only [atoms_within]
  split
  · exact ⟨o.journal, rfl⟩
  · exact Unaware.answer _ (noteFailure_unheeding _) s o

theorem raiseClause_unheeding (key : ClauseKey) : Unheeding (raiseClause · key) := by
  intro s o
  obtain ⟨journal, noted⟩ := note_unheeding .trace .clauses (fun _ => "Rescaling clause activity") s o
  unfold raiseClause noteRescale
  simp only [clauses_within, noted]
  split
  · exact ⟨journal, rfl⟩
  · exact ⟨o.journal, rfl⟩

theorem decayClauses_unheeding : Unheeding decayClauses := by
  intro s o
  obtain ⟨journal, noted⟩ := note_unheeding .trace .clauses (fun _ => "Rescaling clause activity") s o
  unfold decayClauses noteRescale
  simp only [clauses_within, noted]
  split
  · exact ⟨journal, rfl⟩
  · exact ⟨o.journal, rfl⟩

theorem mergeClause_unaware (key : ClauseKey) (current : Nat) :
    Unaware (mergeClause · key current) := by
  intro s o
  unfold mergeClause
  simp only [clauses_within, buffer_within, atoms_within]
  split
  · exact ⟨o.journal, rfl⟩
  · split
    · exact ⟨o.journal, rfl⟩
    · rename_i buffer _
      exact Unaware.answer _ (raiseClause_unheeding key) { s with buffer } o

theorem resolveBack_unaware (current n : Nat) : Unaware (resolveBack current n) := by
  induction n with
  | zero => exact .of_eq fun _ _ => rfl
  | succ n ih =>
    change Unaware fun s => resolveBack current (n + 1) s
    unfold resolveBack
    refine .ite (fun _ _ => Iff.rfl)
      (.ite (fun _ _ => Iff.rfl) (.of_eq fun _ _ => rfl) fun s o => ?_) ih
    obtain ⟨journal, noted⟩ := note_unheeding .trace .resolution
      (fun _ => "Resolving on " ++ (s.trail.literals.getD n 0).text)
      { s with buffer := { s.buffer with pending := s.buffer.pending - 1 } } o
    have counted : ({ s.within o with buffer := { (s.within o).buffer with
        pending := (s.within o).buffer.pending - 1 } } : Solver) = ({ s with buffer :=
          { s.buffer with pending := s.buffer.pending - 1 } } : Solver).within o := rfl
    simp only [counted]
    simp only [trail_within, buffer_within, noted]
    generalize ({ s with buffer := _ } : Solver).note _ _ _ = t
    simp only [atoms_within]
    split
    · rename_i reason _
      obtain ⟨journal', merged⟩ := mergeClause_unaware reason current t { o with journal }
      cases answer : t.mergeClause reason current with
      | mk result t' =>
        simp only [answer] at merged
        simp only [merged]
        cases result with
        | error failure => exact ⟨journal', rfl⟩
        | ok => exact ih t' _
    · exact ⟨journal, rfl⟩

theorem derive_unaware (key : ClauseKey) : Unaware (derive · key) := by
  intro s o
  obtain ⟨journal, merged⟩ := mergeClause_unaware key s.trail.level
    { s with buffer := s.buffer.refresh s.atoms.size } o
  have refreshed : ({ s.within o with
      buffer := (s.within o).buffer.refresh (s.within o).atoms.size } : Solver) =
        ({ s with buffer := s.buffer.refresh s.atoms.size } : Solver).within o := rfl
  cases answer : mergeClause { s with buffer := s.buffer.refresh s.atoms.size } key
    s.trail.level with
  | mk result t =>
    simp only [answer] at merged
    unfold derive
    simp only [refreshed]
    simp only [trail_within, merged, answer]
    cases result with
    | error failure => exact Unaware.answer _ (noteFailure_unheeding failure) t _
    | ok =>
      obtain ⟨journal', resolved⟩ :=
        resolveBack_unaware s.trail.level t.trail.literals.size t { o with journal }
      cases answer' : resolveBack s.trail.level t.trail.literals.size t with
      | mk result u =>
        simp only [answer'] at resolved
        simp only [trail_within, resolved, answer']
        cases result with
        | error failure => exact Unaware.answer _ (noteFailure_unheeding failure) u _
        | ok uip =>
          have taken : (u.within { o with journal := journal' }).takeSettled =
            (u.takeSettled.1, u.takeSettled.2.within { o with journal := journal' }) := rfl
          simp only [taken, atoms_within]
          generalize Clause.asserting _ (-uip) _ = c
          exact Unaware.answer (Except.ok c) (note_unheeding .trace .resolution fun _ =>
            "Derived " ++ c.text) u.takeSettled.2 _

theorem rewardAtoms_unheeding (c : Clause) : Unheeding (rewardAtoms · c) := by
  intro s o
  have rewarded (atoms : List Atom) :
      Unheeding fun s => (atoms.foldl raiseAtom s).decayAtoms.decayClauses := by
    have raised : Unheeding fun s => atoms.foldl raiseAtom s :=
      .foldl (fun _ => .of_eq fun _ _ => rfl) atoms
    have decayed : Unheeding decayAtoms := .of_eq fun _ _ => rfl
    exact decayClauses_unheeding.comp (decayed.comp raised)
  exact rewarded _ s o

theorem collect_unheeding (c : Clause) : Unheeding (collect · c) := by
  intro s o
  unfold collect
  simp only [learned_within]
  split <;> exact ⟨o.journal, rfl⟩

theorem insert_unaware (c : Clause) (origin : ClauseOrigin) (blockDistance : Option Nat) :
    Unaware (insert · c origin blockDistance) := by
  intro s o
  cases answer : s.clauses.insert s.atoms.value s.atoms.level c origin blockDistance with
  | mk result clauses =>
    have answer' : (s.within o).clauses.insert (s.within o).atoms.value (s.within o).atoms.level c
      origin blockDistance = (result, clauses) := answer
    unfold insert
    simp only [answer, answer']
    cases result with
    | error failure =>
      exact Unaware.answer _ (noteFailure_unheeding failure) { s with clauses } o
    | ok key =>
      have noted := note_unheeding .trace .clauses fun _ => key.text ++ ": " ++ c.text
      by_cases learned : origin = .resolution
      · simp only [if_pos learned]
        exact Unaware.answer _ ((collect_unheeding c).comp noted) { s with clauses } o
      · simp only [if_neg learned]
        exact Unaware.answer _ noted { s with clauses } o

theorem learn_unaware (c : Clause) : Unaware (learn · c) := by
  intro s o
  match c with
  | [] => exact Unaware.answer _ (noteFailure_unheeding _) s o
  | [l] =>
    obtain ⟨journal, inserted⟩ :=
      (insert_unaware [l] .resolution none).after (backjump_unheeding 0) s o
    simp only [learn, inserted]
    cases (s.backjump 0).insert [l] .resolution none with
    | mk result t => cases result <;> exact ⟨journal, rfl⟩
  | l :: m :: rest =>
    obtain ⟨journal, found⟩ := assertionLevel_unaware (l :: m :: rest) s o
    simp only [learn, found]
    cases s.assertionLevel (l :: m :: rest) with
    | mk result t =>
      cases result with
      | error failure => exact ⟨journal, rfl⟩
      | ok level =>
        obtain ⟨journal', inserted⟩ := (insert_unaware (l :: m :: rest) .resolution
          (some (Clause.blockDistance t.atoms.level (l :: m :: rest)))).after
            (backjump_unheeding level) t { o with journal }
        simp only [atoms_within, inserted]
        cases (t.backjump level).insert _ _ _ with
        | mk result u => cases result <;> exact ⟨journal', rfl⟩

theorem analyse_unaware (key : ClauseKey) : Unaware (analyse · key) := by
  have noted : Unheeding fun s : Solver => s.note .trace .analysis fun _ =>
      "Analysis of " ++ key.text ++ " at level " ++ toString s.trail.level :=
    note_about_unheeding .trace .analysis fun _ _ => rfl
  unfold analyse
  refine .ite (fun _ _ => Iff.rfl) (fun s o => ?_) (.answer _ (note_unheeding .info .analysis _))
  obtain ⟨journal, derived⟩ := (derive_unaware key).after noted s o
  simp only [derived]
  cases derive _ key with
  | mk result t =>
    cases result with
    | error failure => exact ⟨journal, rfl⟩
    | ok c =>
      exact (learn_unaware c).after ((note_unheeding .trace .analysis fun _ =>
        "Learned " ++ c.text).comp (rewardAtoms_unheeding c)) t { o with journal }

theorem assertLesson_unaware (l : Literal) (source : Source) :
    Unaware (assertLesson · l source) := by
  intro s o
  obtain ⟨journal, assigned⟩ := assign_unaware l source s o
  unfold assertLesson
  simp only [assigned]
  cases s.assign l source with
  | mk status t =>
    cases status with
    | assigned => exact ⟨journal, rfl⟩
    | same => exact Unaware.answer _ (noteFailure_unheeding _) t _
    | different => exact Unaware.answer _ (noteFailure_unheeding _) t _

theorem reduceBy_unaware (count : Nat) : Unaware (reduceBy · count) := by
  intro s o
  cases answer : s.clauses.reduce s.atoms.source count with
  | mk result clauses =>
    have answer' : (s.within o).clauses.reduce (s.within o).atoms.source count =
      (result, clauses) := answer
    obtain ⟨result, removed⟩ := result
    have removal (key : ClauseKey) : Unheeding (noteRemoval · key) :=
      note_unheeding .trace .clauses fun _ => "Removed " ++ key.text
    have removals : Unheeding fun s => removed.foldl noteRemoval s := .foldl removal removed
    unfold reduceBy
    simp only [answer, answer']
    cases result with
    | error failure =>
      exact Unaware.answer _ ((noteFailure_unheeding failure).comp removals) { s with clauses } o
    | ok =>
      exact Unaware.answer _ ((note_unheeding .info .reduction fun _ =>
        "Removed " ++ toString removed.length ++ " additions").comp removals) { s with clauses } o

theorem reduce_unaware : Unaware reduce := by
  intro s o
  obtain ⟨journal, reduced⟩ := reduceBy_unaware
    (Float.ofNat s.clauses.store.additionCount * s.settings.reductionRatio).toUInt64.toNat s o
  unfold reduce
  simp only [clauses_within, settings_within, reduced]
  cases s.reduceBy _ with
  | mk result t => cases result <;> exact ⟨journal, rfl⟩

theorem restart_within (s : Solver) (o : Surroundings) :
    ∃ journal, (s.within o).restart =
      s.restart.within { o with restarts := o.restarts + 1, journal } := by
  obtain ⟨journal, jumped⟩ := backjump_unheeding 0 s o
  unfold restart
  simp only [jumped]
  generalize s.backjump 0 = t
  -- The records differ in the number of the restart, so each is only known to be a record.
  obtain ⟨journal', noted⟩ := note_eq { t with counters := { t.counters with
    restarts := t.counters.restarts + 1, freshConflicts := 0 } } .info .restart
      fun _ => "Restart " ++ toString (t.counters.restarts + 1)
  obtain ⟨journal'', noted'⟩ := note_eq { t.within { o with journal } with counters :=
    { (t.within { o with journal }).counters with restarts := o.restarts + 1, freshConflicts := 0 } }
      .info .restart fun _ => "Restart " ++ toString (o.restarts + 1)
  exact ⟨journal'', noted'.trans (by rw [noted]; rfl)⟩

theorem restartIfDue_within (s : Solver) (o : Surroundings) (told : o.schedule = s.schedule) :
    ∃ journal, (s.within o).restartIfDue = (s.restartIfDue.1, s.restartIfDue.2.within
      { o with
        schedule := s.schedule.conflict.2
        restarts := o.restarts + s.schedule.conflict.1.toNat
        journal }) := by
  unfold restartIfDue
  have schedule : (s.within o).schedule = s.schedule := told
  simp only [schedule]
  cases s.schedule.conflict with
  | mk due schedule =>
    cases due with
    | false => exact ⟨o.journal, rfl⟩
    | true =>
      obtain ⟨journal, restarted⟩ := restart_within { s with schedule } { o with schedule }
      exact ⟨journal, Prod.ext rfl restarted⟩

def SameSurroundings (s s' : Solver) : Prop :=
  ∃ journal, s'.surroundings = { s.surroundings with journal }

namespace SameSurroundings

variable {s s' s'' : Solver}

theorem trans (first : s.SameSurroundings s') (second : s'.SameSurroundings s'') :
    s.SameSurroundings s'' := by
  obtain ⟨journal, kept⟩ := first
  obtain ⟨journal', kept'⟩ := second
  exact ⟨journal', kept'.trans (by rw [kept])⟩

theorem schedule (same : s.SameSurroundings s') : s'.schedule = s.schedule := by
  obtain ⟨journal, kept⟩ := same
  exact congrArg Surroundings.schedule kept

theorem restarts (same : s.SameSurroundings s') :
    s'.counters.restarts = s.counters.restarts := by
  obtain ⟨journal, kept⟩ := same
  exact congrArg Surroundings.restarts kept

end SameSurroundings

theorem Unaware.surroundings {α : Type} {call : Solver → α × Solver} (unaware : Unaware call)
    {s s' : Solver} {a : α} (answer : call s = (a, s')) : s.SameSurroundings s' := by
  obtain ⟨journal, kept⟩ := unaware.change.surroundings s
  rw [answer] at kept
  exact ⟨journal, kept⟩

theorem maintain_surroundings (s : Solver) : ∃ journal, s.maintain.2.surroundings =
    { s.surroundings with
      schedule := s.schedule.conflict.2
      restarts := s.counters.restarts + s.schedule.conflict.1.toNat
      journal } := by
  obtain ⟨journal, told⟩ := restartIfDue_within s s.surroundings rfl
  replace told := congrArg (·.2.surroundings) told
  unfold maintain
  simp only
  split
  · obtain ⟨journal', reduced⟩ := reduce_unaware.change.surroundings s.restartIfDue.2
    match answer : s.restartIfDue.2.reduce with
    | (.error failure, s') =>
      rw [answer] at reduced
      exact ⟨journal', reduced.trans (told ▸ rfl)⟩
    | (.ok removed, s') =>
      rw [answer] at reduced
      exact ⟨journal', reduced.trans (told ▸ rfl)⟩
  · exact ⟨journal, told⟩

theorem pass_surroundings {s s' : Solver} (answer : s.pass = (.ok .ongoing, s')) :
    (∃ polls journal, s'.surroundings =
        { s.countPass.surroundings with polls, journal }) ∨
      ∃ journal, s'.surroundings =
        { s.countPass.surroundings with
          schedule := s.schedule.conflict.2
          restarts := s.counters.restarts + s.schedule.conflict.1.toNat
          journal } := by
  rcases pass_ok answer with ⟨s₁, drawn, advanced⟩ | ⟨key, s₁, lesson, s₂, drawn, analysed, learned⟩
  all_goals obtain ⟨journal₁, kept₁⟩ := propagate_unaware.surroundings drawn
  · rcases advance_eq advanced with ⟨-, impossible⟩ | ⟨s₂, asked, ⟨l, decided, -⟩ | ⟨_, -, ended, -⟩⟩
    · cases impossible
    · obtain ⟨journal₂, polls, stopped⟩ := s₁.shouldStop_eq
      rw [asked] at stopped
      obtain rfl : s₂ = { s₁ with journal := journal₂, polls } := stopped
      obtain ⟨journal₃, kept₃⟩ := takeDecision_unaware.surroundings decided
      have polled := congrArg (fun o => { o with polls, journal := journal₃ }) kept₁
      exact .inl ⟨polls, journal₃, kept₃.trans polled⟩
    · cases ended
  · rcases learned with ⟨-, impossible, -⟩ | ⟨l, source, -, heeded⟩
    · cases impossible
    · obtain ⟨-, s₃, asserted, maintained⟩ := heed_ok_iff.1 heeded
      obtain ⟨journal₂, kept₂⟩ := (analyse_unaware key).surroundings analysed
      obtain ⟨journal₃, kept₃⟩ := (assertLesson_unaware l source).surroundings asserted
      obtain ⟨journal₄, kept₄⟩ := s₃.maintain_surroundings
      rw [maintained] at kept₄
      have counted : s₁.countConflict.surroundings = s₁.surroundings := rfl
      rw [counted, kept₁] at kept₂
      rw [kept₂] at kept₃
      have told := congrArg (fun o : Surroundings =>
        { o with
          schedule := o.schedule.conflict.2
          restarts := o.restarts + o.schedule.conflict.1.toNat
          journal := journal₄ }) kept₃
      exact .inr ⟨journal₄, kept₄.trans told⟩

end Solver

end ClauseLearning
