import ClauseLearning.Proofs.Setup
import ClauseLearning.Proofs.Soundness

namespace ClauseLearning.Solver

variable {s s' : Solver} {formula : List Clause} {key : ClauseKey} {n : Nat}

/-- Resolves along the trail like `resolveBack`, but has no answer where the count would go below
zero. -/
def resolveBackChecked (current : Nat) :
    (n : Nat) → Solver → Option (Except Failure Literal × Solver)
  | 0, s => some (.error .exhaustedTrail, s)
  | n + 1, s =>
    let l := s.trail.literals.getD n 0
    if s.buffer.isMerged l.natAbs && s.atoms.level l.natAbs == some current then
      if s.buffer.pending = 0 then none
      else
        let pending := s.buffer.pending - 1
        let s := { s with buffer := { s.buffer with pending } }
        if pending = 0 then some (.ok l, s)
        else
          let s := s.note .trace .resolution fun _ => "Resolving on " ++ l.text
          match s.atoms.source l.natAbs with
          | some (.propagation reason) =>
            match s.mergeClause reason current with
            | (.error failure, s) => some (.error failure, s)
            | (.ok (), s) => resolveBackChecked current n s
          | _ => some (.error (.missingReason l pending), s)
    else resolveBackChecked current n s

def deriveChecked (s : Solver) (key : ClauseKey) : Option (Except Failure Clause × Solver) :=
  let current := s.trail.level
  let s := { s with buffer := s.buffer.refresh s.atoms.size }
  match s.mergeClause key current with
  | (.error failure, s) => some (.error failure, s.noteFailure failure)
  | (.ok (), s) =>
    match resolveBackChecked current s.trail.literals.size s with
    | none => none
    | some (.error failure, s) => some (.error failure, s.noteFailure failure)
    | some (.ok uip, s) =>
      let (settled, s) := s.takeSettled
      let c := Clause.asserting s.atoms.level (-uip) settled
      some (.ok c, s.note .trace .resolution fun _ => "Derived " ++ c.text)

theorem resolveBackChecked_eq (resolving : s.Resolving formula n)
    (le : n ≤ s.trail.literals.size) (decided : 0 < s.trail.level) :
    resolveBackChecked s.trail.level n s = some (resolveBack s.trail.level n s) := by
  induction n generalizing s with
  | zero => rfl
  | succ n ih =>
    obtain ⟨l, found⟩ : ∃ l, s.trail.literals[n]? = some l := ⟨_, Array.getElem?_eq_getElem le⟩
    have front : s.trail.literals.getD n 0 = l := by
      rw [Array.getD_eq_getD_getElem?, found, Option.getD_some]
    unfold resolveBackChecked resolveBack
    simp only [front, resolving.isOpenAt_eq found]
    by_cases isOpen : s.buffer.isOpenAt s.trail n = true
    · -- The literal that is met is itself one of those counted.
      have counted := resolving.collected.pending_pos (Nat.lt_succ_self n) isOpen
      rw [if_pos isOpen, if_pos isOpen, if_neg counted.ne']
      by_cases last : s.buffer.pending - 1 = 0
      · rw [if_pos last, if_pos last]
      · rw [if_neg last, if_neg last]
        obtain ⟨journal, noted⟩ := note_eq
          { s with buffer := { s.buffer with pending := s.buffer.pending - 1 } } .trace .resolution
          fun _ => "Resolving on " ++ l.text
        obtain ⟨key, c, s', known, -, -, answer, same, resolving', -⟩ :=
          resolving.advance found isOpen (by omega) decided journal
        have later := ih resolving' (same.trail ▸ Nat.le_of_succ_le le) (same.trail ▸ decided)
        rw [same.trail] at later
        rw [noted]
        simp only [known, answer, later]
    · rw [if_neg isOpen, if_neg isOpen]
      exact ih (resolving.skip isOpen) (Nat.le_of_succ_le le) decided

theorem Searching.deriveChecked_eq (searching : s.Searching formula)
    (conflicting : s.Conflicting key) (decided : s.trail.hasDecision = true) :
    s.deriveChecked key = some (s.derive key) := by
  obtain ⟨s', merged, same, resolving, -⟩ := conflicting.resolving searching.invariant.coherent
    searching.invariant.entailed (Trail.hasDecision_iff.1 decided)
  have checked := resolveBackChecked_eq resolving (same.trail ▸ Nat.le_refl _)
    (same.trail ▸ Trail.hasDecision_iff.1 decided)
  rw [same.trail] at checked
  unfold deriveChecked Solver.derive
  simp only [merged, same.trail, checked]
  cases resolveBack s.trail.level s.trail.literals.size s' with
  | mk result s'' => cases result <;> rfl

def FailsOnlyFull {α : Type} (call : Except Failure α × Solver) : Prop :=
  ∀ failure, call.1 = .error failure →
    failure = .clauseLimit call.2.store.limit ∧ call.2.store.limit ≤ call.2.store.totalCount ∨
      failure = .additionKeys ∧ ¬call.2.store.HasKey .resolution

theorem FailsOnlyFull.ok {α : Type} (a : α) (s : Solver) :
    FailsOnlyFull (.ok a, s) :=
  fun _ impossible => by cases impossible

theorem FailsOnlyFull.error {α β : Type} {failure : Failure}
    (fails : FailsOnlyFull ((.error failure, s) : Except Failure α × Solver)) :
    FailsOnlyFull ((.error failure, s) : Except Failure β × Solver) :=
  fun _ same => by cases same; exact fails failure rfl

theorem SameFrame.hasRoom_iff (same : s.SameFrame s') : s'.HasRoom ↔ s.HasRoom := by
  rw [HasRoom, HasRoom, same.2 _ ClauseStore.steady_totalCount, same.2 _ ClauseStore.steady_limit]

theorem SameFrame.hasKey_iff (same : s.SameFrame s') :
    s'.store.HasKey .resolution ↔ s.store.HasKey .resolution := by
  simp only [ClauseStore.HasKey, Solver.store, same.2 _ ClauseStore.steady_additionsSize,
    same.2 _ ClauseStore.steady_vacated]

theorem SameFrame.takes_iff (same : s.SameFrame s') {c : Clause} :
    s'.store.Takes c .resolution ↔ s.store.Takes c .resolution := by
  constructor
  · rintro ⟨room, key⟩
    exact ⟨same.hasRoom_iff.1 room, fun long => same.hasKey_iff.1 (key long)⟩
  · rintro ⟨room, key⟩
    exact ⟨same.hasRoom_iff.2 room, fun long => same.hasKey_iff.2 (key long)⟩

/-- Where the call fails an addition was refused, and for that the store was ready from the start. -/
def FailsFromStart {α : Type} (s : Solver) (call : Except Failure α × Solver) : Prop :=
  ∀ failure, call.1 = .error failure →
    ∃ t c, s.SameFrame t ∧ t.Refuses c .resolution failure call.2

namespace FailsFromStart

variable {α β : Type} {failure : Failure} {call : Except Failure α × Solver}

theorem ok (a : α) (s' : Solver) : FailsFromStart s (.ok a, s') :=
  fun _ impossible => by cases impossible

theorem error (fails : FailsFromStart s ((.error failure, s') : Except Failure α × Solver)) :
    FailsFromStart s ((.error failure, s') : Except Failure β × Solver) :=
  fun _ same => by cases same; exact fails failure rfl

theorem after (fails : FailsFromStart s' call) (same : s.SameFrame s') : FailsFromStart s call := by
  intro failure failed
  obtain ⟨t, c, same', refuses⟩ := fails failure failed
  exact ⟨t, c, same.trans same', refuses⟩

theorem onlyFull (fails : FailsFromStart s call) : FailsOnlyFull call := by
  intro failure failed
  obtain ⟨t, c, -, ⟨reason, -⟩⟩ := fails failure failed
  exact reason.resolution

theorem ok_of_hasRoom (fails : FailsFromStart s call) (room : s.HasRoom)
    (key : s.store.HasKey .resolution) : call.1 ≠ .error failure := by
  intro failed
  obtain ⟨t, c, same, ⟨reason, -⟩⟩ := fails failure failed
  exact reason.not_takes (same.takes_iff.2 ⟨room, fun _ => key⟩)

theorem spent_of_hasRoom (fails : FailsFromStart s call) (room : s.HasRoom)
    (failed : call.1 = .error failure) :
    failure = .additionKeys ∧ call.2.HasRoom ∧
      ¬call.2.store.HasKey .resolution := by
  obtain ⟨t, c, same, ⟨reason, -⟩⟩ := fails failure failed
  have counted := reason.count_eq
  have room' : call.2.HasRoom :=
    lt_of_eq_of_lt counted.1 (lt_of_lt_of_eq (same.hasRoom_iff.2 room) counted.2.symm)
  rcases reason.resolution with ⟨-, full⟩ | ⟨rfl, spent⟩
  · exact absurd room' (Nat.not_lt.2 full)
  · exact ⟨rfl, room', spent⟩

end FailsFromStart

theorem insert_fails (s : Solver) {c : Clause} (nonempty : c ≠ [])
    (blockDistance : Option Nat) : FailsFromStart s (s.insert c .resolution blockDistance) :=
  fun _ failed => ⟨s, c, .refl s, insert_failed nonempty (Prod.ext failed rfl)⟩

theorem Searching.propagate_ok (searching : s.Searching formula) (failure : Failure) :
    s.propagate.1 ≠ .error failure := by
  fun_induction propagate s with
  | case1 => simp
  | case2 s l next after answer ih => exact ih (searching.draw_literal next answer)
  | case3 s l next result after notComplete answer =>
    rintro rfl
    exact searching.draw_ok next answer

theorem Invariant.learn_fails (invariant : s.Invariant formula fun _ => False) {l : Literal}
    {rest : Clause} (derived : Derived formula s.trail l rest) :
    FailsFromStart s (s.learn (l :: rest)) := by
  -- A unit goes to level zero without a look at levels, a longer clause to where it asserts.
  cases rest with
  | nil =>
    have inserted := ((s.backjump 0).insert_fails (List.cons_ne_nil l []) none).after
      (s.sameFrame_backjump 0)
    rw [Solver.learn]
    split <;> rename_i answer <;> rw [answer] at inserted
    · exact inserted.error
    · exact .ok _ _
  | cons m rest =>
    obtain ⟨i, -, -, level⟩ := invariant.assertionLevel_eq derived
    have inserted := ((s.backjump (s.trail.levelAt i)).insert_fails
      (List.cons_ne_nil l (m :: rest))
      (some (Clause.blockDistance s.atoms.level (l :: m :: rest)))).after (s.sameFrame_backjump _)
    simp only [Solver.learn, level]
    split <;> rename_i answer <;> rw [answer] at inserted
    · exact inserted.error
    · exact .ok _ _

theorem Invariant.analyse_fails (invariant : s.Invariant formula fun _ => False)
    (conflicting : s.Conflicting key) : FailsFromStart s (s.analyse key) := by
  cases decided : s.trail.hasDecision with
  | true =>
    obtain ⟨before, after, l, rest, s', derived, analysed, -, rewarded, false⟩ :=
      invariant.analyse_eq conflicting decided
    rw [analysed]
    exact (rewarded.learn_fails false).after (s.sameFrame_rewarded derived)
  | false =>
    rw [Solver.analyse, if_neg (by simp [decided])]
    exact .ok _ _

theorem heed_ok {lesson : Lesson} (good : s.Good formula (.taught lesson)) {l : Literal}
    {source : Source} (taught : lesson.assertion? = some (l, source)) :
    (s.heed l source).1 = .ok .ongoing := by
  obtain ⟨s', asserted, invariant, -⟩ := good.1.assertion taught
  obtain ⟨removed, s'', reduced, -⟩ := reduce_spec (restartIfDue_spec invariant).1
  simp only [heed, asserted, maintain]
  cases s'.restartIfDue.2.reductionIsDue <;> simp [reduced]

theorem pass_fails (searching : s.Searching formula) : FailsFromStart s s.pass := by
  have drawn := Steps.good (propagate_steps formula s.countPass) searching.countPass
  have same : s.SameFrame s.countPass.propagate.2 :=
    .trans (.of_eq rfl rfl) (sameFrame_propagate s.countPass)
  unfold pass applyConsequences
  cases answer : s.countPass.propagate with
  | mk result s' =>
    rw [answer] at drawn same
    cases result with
    | error failure => exact absurd (congrArg Prod.fst answer) (searching.countPass.propagate_ok _)
    | ok propagated =>
      cases propagated with
      | complete => exact .ok _ _
      | conflict key =>
        replace drawn : s'.countConflict.Good formula (.clash key) := Steps.good
          (counters_steps formula (.clash key) s' s'.countConflict.counters) drawn
        replace same : s.SameFrame s'.countConflict := same.trans (.of_eq rfl rfl)
        have analysed := Steps.good (analyse_steps formula s'.countConflict key).1 drawn
        have fails := (drawn.1.invariant.analyse_fails drawn.2).after same
        simp only
        cases answer' : s'.countConflict.analyse key with
        | mk result s'' =>
          rw [answer'] at analysed fails
          cases result with
          | error failure => exact fails.error
          | ok lesson =>
            cases lesson with
            | fundamentalConflict => exact .ok _ _
            | unit l =>
              intro failure failed
              cases (heed_ok analysed rfl).symm.trans failed
            | asserting l key =>
              intro failure failed
              cases (heed_ok analysed rfl).symm.trans failed

theorem run_failsOnlyFull (passes : Nat) (searching : s.Searching formula) :
    FailsOnlyFull (run passes s) := by
  induction passes generalizing s with
  | zero => exact .ok _ _
  | succ passes ih =>
    have passed := Steps.good (pass_steps formula s) searching
    have fails := (pass_fails searching).onlyFull
    rw [run]
    split <;> rename_i answer <;> rw [answer] at fails passed
    · exact fails.error
    · exact .ok _ _
    · exact ih passed

theorem solve_failsOnlyFull (settled : s.Settled formula) (passes : Nat) :
    FailsOnlyFull (s.solve passes) := by
  unfold solve
  split
  · exact .ok _ _
  · rename_i unsettled
    have fails := run_failsOnlyFull passes (settled.begin (Bool.eq_false_iff.2 unsettled))
    split <;> rename_i answer <;> rw [answer] at fails
    · exact fails.error
    · exact .ok _ _
    · exact .ok _ _

/-- In a run a search fails only for want of room, or of a key when all are spent. Calls that build
the formula fail for no internal reason, and resolution never counts below zero. -/
theorem reachable_failures {settings : Settings} {config : Config}
    (reachable : Reachable settings config) :
    (config.stage = .between → ∀ passes failure, (config.solver.solve passes).1 = .error failure →
        failure = .clauseLimit settings.clauseLimit ∧
            settings.clauseLimit ≤ (config.solver.solve passes).2.store.totalCount ∨
          failure = .additionKeys ∧
            ¬(config.solver.solve passes).2.store.HasKey .resolution) ∧
      (∀ failure, failure.isInternal = true →
        config.solver.freshAtom.1 ≠ .error failure ∧
          (∀ a, (config.solver.ensureAtoms a).1 ≠ .error failure) ∧
          (∀ c, (config.solver.addClause c).1 ≠ .error failure) ∧
          ∀ file, (config.solver.readDimacs file).1 ≠ .error failure) ∧
      ∀ key, config.stage = .clash key → config.solver.trail.hasDecision = true →
        config.solver.deriveChecked key = some (config.solver.derive key) := by
  refine ⟨fun between passes failure failed => ?_, fun failure isInternal => ?_,
    fun key clash decided => ?_⟩
  · obtain ⟨accepted, stage, s⟩ := config
    obtain rfl : stage = .between := between
    have limit : (s.solve passes).2.store.limit = settings.clauseLimit :=
      (Reachable.sameSetup (reachable.trans (solve_steps accepted s passes))).2
    exact limit ▸ solve_failsOnlyFull reachable.good passes failure failed
  · have external {α : Type} {result : Except Failure α} {s' : Solver}
        (serves : config.solver.Serves result s') : result ≠ .error failure := by
      intro failed
      cases isInternal.symm.trans (serves.external failure failed)
    exact ⟨external config.solver.freshAtom_serves,
      fun a => external (config.solver.ensureAtoms_serves a),
      fun c => external (config.solver.addClause_serves c),
      fun file => external (config.solver.readDimacs_serves file)⟩
  · have good := reachable.good
    rw [clash] at good
    exact good.1.deriveChecked_eq good.2 decided

theorem bothSigns_failures :
    (bothSigns.solve 3).1 = .error (.clauseLimit 2) ∧ 2 ≤ (bothSigns.solve 3).2.store.totalCount ∧
      (∀ c, (bothSigns.addClause c).1 ≠ .error .emptyClause) ∧
      clashing.trail.hasDecision = true ∧
      clashing.deriveChecked (.original 1) = some (clashing.derive (.original 1)) := by
  have failed : (bothSigns.solve 3).1 = .error (.clauseLimit 2) := by
    rw [bothSigns_eq]
    decide +kernel
  have decided : clashing.trail.hasDecision = true := by
    rw [clashing, bothSigns_eq]
    decide +kernel
  obtain ⟨searches, builds, -⟩ := reachable_failures bothSigns_reachable
  obtain ⟨-, -, counts⟩ := reachable_failures clashing_reachable
  have full := (searches rfl 3 _ failed).resolve_right fun impossible => by cases impossible.1
  exact ⟨failed, full.2, (builds .emptyClause rfl).2.2.1, decided,
    counts _ rfl decided⟩

end ClauseLearning.Solver
