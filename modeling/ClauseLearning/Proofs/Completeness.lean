import ClauseLearning.Proofs.Interruption
import ClauseLearning.Proofs.Novelty
import ClauseLearning.Proofs.Progress
import ClauseLearning.Proofs.UnitPropagation
import Mathlib.Data.Finset.Powerset

/-!
Searches that come to an end. No stored clause is part of what is learned, so unless clauses are
removed only so much can be learned, however often the search begins anew. Where clauses are
removed, a stretch without restarts that is long enough ends the search.
-/

namespace ClauseLearning

namespace ClauseStore

variable {s s' : ClauseStore} {proper : Literal → Prop}

def Retains (s s' : ClauseStore) : Prop := ∀ c ∈ s.stored, ∃ d ∈ s'.stored, d ⊆ c

namespace Retains

variable {s'' : ClauseStore}

theorem trans (first : s.Retains s') (second : s'.Retains s'') : s.Retains s'' := by
  intro c member
  obtain ⟨d, member', part⟩ := first c member
  obtain ⟨e, member'', part'⟩ := second d member'
  exact ⟨e, member'', fun l inside => part (part' inside)⟩

theorem of_sameClauses (same : s.SameClauses s') : s.Retains s' := by
  have stored : s'.stored = s.stored := by
    simp only [ClauseStore.stored, originalClauses, additionClauses, longAdditions,
      same.originalUnits, same.additionUnits, same.originals, same.additions]
  intro c member
  exact ⟨c, stored ▸ member, List.Subset.refl c⟩

theorem of_kept {proper' : Literal → Prop} (wellFormed : s.WellFormed proper)
    (wellFormed' : s'.WellFormed proper')
    (originalUnits : ∀ l ∈ s.originalUnits, l ∈ s'.originalUnits)
    (additionUnits : ∀ l ∈ s.additionUnits, l ∈ s'.additionUnits)
    (long : ∀ key c, s.get key = .ok c → ∃ c', s'.get key = .ok c' ∧ c'.clause.Perm c.clause) :
    s.Retains s' := by
  intro c member
  rcases wellFormed.mem_stored.1 member with ⟨l, rfl, unit⟩ | ⟨key, d, live, rfl⟩
  · have unit' := unit.imp (originalUnits l) (additionUnits l)
    exact ⟨[l], wellFormed'.mem_stored.2 (.inl ⟨l, rfl, unit'⟩), List.Subset.refl _⟩
  · obtain ⟨d', live', perm⟩ := long key d live
    exact ⟨d'.clause, wellFormed'.mem_stored.2 (.inr ⟨key, d', live', rfl⟩), perm.subset⟩

theorem of_rearranged {proper' : Literal → Prop} (same : s.Rearranged s')
    (wellFormed : s.WellFormed proper) (wellFormed' : s'.WellFormed proper') : s.Retains s' :=
  .of_kept wellFormed wellFormed' (fun _ => same.originalUnits ▸ id)
    (fun _ => same.additionUnits ▸ id) same.forth

end Retains

end ClauseStore

/-- There comes a time when none of so many conflicts makes a restart due. -/
def RestartSchedule.Pauses (length : Nat) (schedule : RestartSchedule) : Prop :=
  ∃ conflicts : Nat, ((·.conflict.2)^[conflicts] schedule).QuietFor length

theorem RestartSchedule.NeverFires.pauses {schedule : RestartSchedule} (never : schedule.NeverFires)
    (length : Nat) : schedule.Pauses length :=
  ⟨0, fun conflicts _ => never conflicts⟩

namespace Solver

open ClauseStore

variable {s s' : Solver} {formula : List Clause}

theorem insert_retains (invariant : s.Invariant formula fun _ => False) {l : Literal}
    {rest : Clause} {key : ClauseKey} {blockDistance : Option Nat}
    (distinct : ((l :: rest).map Int.natAbs).Nodup)
    (known : ∀ m ∈ l :: rest, m ≠ 0 ∧ m.natAbs < s.atoms.size)
    (inserted : s.insert (l :: rest) .resolution blockDistance = (.ok key, s')) :
    s.store.Retains s'.store ∧ ∃ d ∈ s'.store.stored, d ⊆ l :: rest := by
  have takes := takes_of_insert (List.cons_ne_nil l rest) inserted
  have orderly := invariant.coherent.orderly
  cases rest with
  | nil =>
    obtain ⟨journal, answer⟩ := insert_of_stored
      (WatchedStore.insert_unit takes.room s.atoms.value s.atoms.level l .resolution blockDistance)
    cases inserted.symm.trans answer
    have wellFormed := (orderly.addUnit l .resolution).wellFormed
    constructor
    · exact .of_kept orderly.wellFormed wellFormed (fun m => id)
        (fun m member => Array.mem_push_of_mem l member)
        fun key c live => ⟨c, (get_addUnit _ l .resolution key).trans live, .refl _⟩
    · exact ⟨[l], wellFormed.mem_stored.2 (.inl ⟨l, rfl, .inr Array.mem_push_self⟩),
        List.Subset.refl _⟩
  | cons m rest =>
    obtain ⟨key', clauses, stored, orderly', -, added, originalUnits, additionUnits, -⟩ :=
      WatchedStore.insert_long orderly invariant.mirrors takes (by simp) distinct known
        blockDistance
    obtain ⟨journal, answer⟩ := insert_of_stored stored
    cases inserted.symm.trans answer
    constructor
    · exact .of_kept orderly.wellFormed orderly'.wellFormed (fun _ => originalUnits ▸ id)
        (fun _ => additionUnits ▸ id) fun key c live => ⟨c, added.kept live, .refl _⟩
    · exact ⟨_, orderly'.wellFormed.mem_stored.2 (.inr ⟨_, _, added.live, rfl⟩),
        (WatchedClause.ofClause_perm ..).subset⟩

theorem Learns.stores {l : Literal} {rest : Clause} {level : Nat} (searching : s.Searching formula)
    (learns : s.Learns formula l rest level s') :
    s.store.Retains s'.store ∧ (∀ d ∈ s.store.stored, ¬d ⊆ l :: rest) ∧
      (∃ d ∈ s'.store.stored, d ⊆ l :: rest) ∧ ∀ m ∈ l :: rest, m.natAbs < s.atoms.size := by
  have agrees := searching.invariant.coherent.agrees
  have known (m : Literal) (member : m ∈ l :: rest) : m ≠ 0 ∧ m.natAbs < s.atoms.size := by
    obtain ⟨i, found, -⟩ := learns.derived.false_of_mem member
    have isFalse := Array.mem_of_getElem? found
    exact ⟨Int.neg_ne_zero.1 (agrees.nonzero isFalse), Int.natAbs_neg m ▸ agrees.known isFalse⟩
  obtain ⟨t, key, blockDistance, same, -, searching', -, inserted⟩ := learns.stored
  have retreats := backjump_retreats searching'.invariant.coherent.aligned level
  have size : (t.backjump level).atoms.size = s.atoms.size :=
    retreats.size.trans same.assignments.size_eq
  obtain ⟨retains, stored⟩ := insert_retains (searching'.invariant.backjump level)
    learns.derived.distinct (by rwa [size]) inserted
  have before : s.store.Retains (t.backjump level).store := by
    rw [Solver.store, Solver.store, retreats.clauses]
    exact .of_sameClauses same.clauses
  refine ⟨before.trans retains, fun d member part => ?_, stored, fun m member => (known m member).2⟩
  exact learns.derived.not_subsumes searching.invariant member fun m inside => .inl (part inside)

theorem maintain_eq (off : s.settings.reductionInterval = 0) :
    s.maintain = (.ok (), s.restartIfDue.2) := by
  have settings : s.restartIfDue.2.settings = s.settings := s.sameFrame_restartIfDue.1
  have early : s.restartIfDue.2.reductionIsDue = false := by
    simp [reductionIsDue, settings, off]
  unfold maintain
  simp only [early]
  rfl

def literalsBelow (count : Nat) : Finset Literal :=
  (Finset.range count).image Int.ofNat ∪ (Finset.range count).image Int.negOfNat

theorem mem_literalsBelow {count : Nat} {l : Literal} :
    l ∈ literalsBelow count ↔ l.natAbs < count := by
  simp only [literalsBelow, Finset.mem_union, Finset.mem_image, Finset.mem_range]
  constructor
  · rintro (⟨a, below, rfl⟩ | ⟨a, below, rfl⟩)
    · exact below
    · rwa [Int.negOfNat_eq, Int.natAbs_neg]
  · intro below
    rcases l.natAbs_eq with same | same
    · exact .inl ⟨_, below, same.symm⟩
    · exact .inr ⟨_, below, (Int.negOfNat_eq ..).trans same.symm⟩

theorem card_literalsBelow_le (count : Nat) : (literalsBelow count).card ≤ 2 * count := by
  have image (f : Nat → Literal) : ((Finset.range count).image f).card ≤ count :=
    Finset.card_image_le.trans (Finset.card_range count).le
  rw [Nat.two_mul]
  exact (Finset.card_union_le _ _).trans (Nat.add_le_add (image _) (image _))

/-- The sets of literals that some stored clause is part of. -/
def subsumed (s : Solver) : Finset (Finset Literal) :=
  {c ∈ (literalsBelow s.atoms.size).powerset | ∃ d ∈ s.store.stored, d.toFinset ⊆ c}

theorem card_subsumed_le (s : Solver) : s.subsumed.card ≤ 2 ^ (2 * s.atoms.size) := by
  refine (Finset.card_filter_le _ _).trans ?_
  rw [Finset.card_powerset]
  exact Nat.pow_le_pow_right Nat.two_pos (card_literalsBelow_le _)

theorem subsumed_congr (clauses : s'.clauses = s.clauses) (size : s'.atoms.size = s.atoms.size) :
    s'.subsumed = s.subsumed := by
  unfold subsumed store
  rw [clauses, size]

theorem subsumed_subset (retains : s.store.Retains s'.store) (size : s'.atoms.size = s.atoms.size) :
    s.subsumed ⊆ s'.subsumed := by
  intro c member
  obtain ⟨inside, d, stored, part⟩ := Finset.mem_filter.1 member
  obtain ⟨e, stored', part'⟩ := retains d stored
  refine Finset.mem_filter.2 ⟨size ▸ inside, e, stored', fun l literal => part ?_⟩
  exact List.mem_toFinset.2 (part' (List.mem_toFinset.1 literal))

theorem Learns.subsumed_ssubset {l : Literal} {rest : Clause} {level : Nat}
    (searching : s.Searching formula) (learns : s.Learns formula l rest level s') :
    s.subsumed ⊂ s'.subsumed := by
  obtain ⟨retains, fresh, ⟨d, stored, part⟩, known⟩ := learns.stores searching
  have size := learns.trail.2
  -- What was learned has a part that is stored now, and had none before.
  refine (Finset.ssubset_iff_of_subset (subsumed_subset retains size)).2
    ⟨(l :: rest).toFinset, ?_, ?_⟩
  · have part' : d.toFinset ⊆ (l :: rest).toFinset := fun m literal =>
      List.mem_toFinset.2 (part (List.mem_toFinset.1 literal))
    refine Finset.mem_filter.2 ⟨Finset.mem_powerset.2 fun m member => ?_, d, stored, part'⟩
    rw [mem_literalsBelow, size]
    exact known m (List.mem_toFinset.1 member)
  · intro member
    obtain ⟨-, e, old, part'⟩ := Finset.mem_filter.1 member
    exact fresh e old fun m literal =>
      List.mem_toFinset.1 (part' (List.mem_toFinset.2 literal))

def learningWeight (s : Solver) : Nat := s.subsumed.card * (s.atomCount + 2) + s.trail.level

theorem Coherent.level_le (coherent : s.Coherent) : s.trail.level ≤ s.atomCount :=
  coherent.trail.level_le_size.trans coherent.literals_le

theorem Coherent.learningWeight_le (coherent : s.Coherent) :
    s.learningWeight ≤ 2 ^ (2 * s.atoms.size) * (s.atomCount + 2) + s.atomCount :=
  Nat.add_le_add (Nat.mul_le_mul_right _ s.card_subsumed_le) coherent.level_le

theorem Searching.pass_learns (searching : s.Searching formula)
    (off : s.settings.reductionInterval = 0) (answer : s.pass = (.ok .ongoing, s')) :
    s'.settings = s.settings ∧ s.learningWeight < s'.learningWeight := by
  have coherent := searching.invariant.coherent
  have setup := (Steps.sameSetup (pass_steps formula s)).1
  rw [answer] at setup
  refine ⟨setup, ?_⟩
  unfold learningWeight atomCount
  rw [searching.size_pass answer, ← atomCount]
  cases searching.pass_cases answer with
  | @decision s₁ l draws watched _ gains trail =>
    have retains : s.store.Retains s'.store := by
      rw [Solver.store, Solver.store, gains.clauses]
      exact .of_rearranged draws.rearranged coherent.orderly.wellFormed
        watched.coherent.orderly.wellFormed
    -- A decision stores nothing, but it adds a level.
    rw [draws.level_decide trail]
    have more := Nat.mul_le_mul_right (s.atomCount + 2)
      (Finset.card_le_card (subsumed_subset retains (searching.size_pass answer)))
    omega
  | @lesson s₁ s₂ s₃ key l rest level source draws _ clash learns asserted heeding settings _ _
      maintained =>
    obtain ⟨-, size, clauses⟩ := assertLesson_ok asserted
    rw [maintain_eq (settings ▸ off)] at maintained
    cases maintained
    obtain ⟨clauses', size'⟩ := heeding.invariant.coherent.restartIfDue_keeps
    have more : s.subsumed ⊂ s₃.restartIfDue.2.subsumed := by
      rw [subsumed_congr (clauses'.trans clauses) (size'.trans size)]
      exact (subsumed_subset (.of_rearranged draws.rearranged coherent.orderly.wellFormed
        clash.1.invariant.coherent.orderly.wellFormed) draws.size).trans_ssubset
          (learns.subsumed_ssubset clash.1)
    -- The levels taken back are fewer than what one more clause counts for.
    have step := Nat.mul_le_mul_right (s.atomCount + 2) (Finset.card_lt_card more)
    have level := coherent.level_le
    rw [Nat.succ_mul] at step
    omega

theorem Searching.run_learns {passes : Nat} (searching : s.Searching formula)
    (off : s.settings.reductionInterval = 0)
    (enough : 2 ^ (2 * s.atoms.size) * (s.atomCount + 2) + s.atomCount <
      s.learningWeight + passes) : (run passes s).1 ≠ .ok false := by
  induction passes generalizing s with
  | zero => exact absurd searching.invariant.coherent.learningWeight_le (Nat.not_le.2 enough)
  | succ passes ih =>
    rw [run]
    split <;> rename_i answer
    · simp
    · simp
    · obtain ⟨settings, gain⟩ := searching.pass_learns off answer
      refine ih (searching.pass_ongoing answer) (settings ▸ off) ?_
      unfold atomCount
      rw [searching.size_pass answer, ← atomCount]
      omega

def ComesTo (formula : List Clause) (s : Solver) (schedule : RestartSchedule) : Prop :=
  ∃ passes, (run passes s).1 ≠ .ok false ∨ (run passes s).2.Searching formula ∧
    (run passes s).2.atomCount = s.atomCount ∧ (run passes s).2.schedule = schedule

theorem ComesTo.after {schedule : RestartSchedule} (j : Nat) (ongoing : (run j s).1 = .ok false)
    (count : (run j s).2.atomCount = s.atomCount) (later : ComesTo formula (run j s).2 schedule) :
    ComesTo formula s schedule := by
  obtain ⟨k, comes⟩ := later
  refine ⟨j + k, ?_⟩
  rwa [run_add j k s ongoing, ← count]

theorem Searching.comesTo_conflict (searching : s.Searching formula) :
    ComesTo formula s s.schedule.conflict.2 := by
  -- Every decision adds a level, and there are no more levels than atoms.
  induction free : s.atomCount - s.trail.level using Nat.strongRecOn generalizing s with
  | ind free ih =>
    match answer : s.pass with
    | (.error failure, s') => exact ⟨1, .inl (by simp [run, answer])⟩
    | (.ok .finished, s') => exact ⟨1, .inl (by simp [run, answer])⟩
    | (.ok .ongoing, s') =>
      have once : run 1 s = (.ok false, s') := by simp [run, answer]
      have searching' := searching.pass_ongoing answer
      have count : s'.atomCount = s.atomCount := congrArg (· - 1) (searching.size_pass answer)
      cases searching.pass_cases answer with
      | decision draws _ _ _ trail _ _ schedule =>
        have deeper := draws.level_decide trail
        have bound := searching'.invariant.coherent.level_le
        have comes := ih _ (by omega) searching' rfl
        rw [schedule] at comes
        exact .after 1 (by rw [once]) (by rw [once]; exact count) (by rwa [once])
      | @lesson _ _ s₃ _ _ _ _ _ _ _ _ _ _ _ _ schedule _ maintained =>
        obtain ⟨journal, told⟩ := s₃.maintain_surroundings
        rw [maintained] at told
        refine ⟨1, .inr ?_⟩
        rw [once]
        exact ⟨searching', count, schedule ▸ congrArg Surroundings.schedule told⟩

theorem Searching.comesTo_conflicts (searching : s.Searching formula) (conflicts : Nat) :
    ComesTo formula s ((·.conflict.2)^[conflicts] s.schedule) := by
  induction conflicts with
  | zero => exact ⟨0, .inr ⟨searching, rfl, rfl⟩⟩
  | succ conflicts ih =>
    obtain ⟨passes, ended | ⟨searching', count, schedule⟩⟩ := ih
    · exact ⟨passes, .inl ended⟩
    by_cases ongoing : (run passes s).1 = .ok false
    · rw [Function.iterate_succ_apply', ← schedule]
      exact searching'.comesTo_conflict.after passes ongoing count
    · exact ⟨passes, .inl ongoing⟩

theorem Searching.run_ends_of_pauses (searching : s.Searching formula)
    (pauses : s.schedule.Pauses ((s.atomCount + 1) ^ (s.atomCount + 1))) :
    ∃ passes, (run passes s).1 ≠ .ok false := by
  obtain ⟨conflicts, quiet⟩ := pauses
  obtain ⟨passes, ended | ⟨searching', count, schedule⟩⟩ := searching.comesTo_conflicts conflicts
  · exact ⟨passes, ended⟩
  by_cases ongoing : (run passes s).1 = .ok false
  · rw [← schedule, ← count] at quiet
    refine ⟨passes + ((run passes s).2.atomCount + 1) ^ ((run passes s).2.atomCount + 1), ?_⟩
    rw [run_add passes _ s ongoing]
    exact searching'.run_ends quiet
  · exact ⟨passes, ongoing⟩

theorem Settled.solve_answers (settled : s.Settled formula) (undisturbed : s.start.Undisturbed)
    {passes : Nat} (room : (s.solve passes).2.HasRoom)
    (key : (s.solve passes).2.store.HasKey .resolution) (ended : (s.solve passes).1 ≠ .ok none) :
    (s.solve passes).1 = .ok (some .satisfiable) ∨
      (s.solve passes).1 = .ok (some .unsatisfiable) := by
  have known : (s.solve passes).1 ≠ .ok (some .unknown) := by
    cases unsettled : s.isSettled with
    | true =>
      rw [Solver.solve, if_pos unsettled]
      simpa using report_ne_unknown unsettled
    | false =>
      rw [solve_of_unsettled unsettled]
      exact undisturbed.answerOf_ne_unknown passes
  cases answer : (s.solve passes).1 with
  | error failure =>
    rcases solve_failsOnlyFull settled passes failure answer with ⟨-, full⟩ | ⟨-, spent⟩
    · exact absurd full (Nat.not_le.2 room)
    · exact absurd key spent
  | ok report? =>
    rcases report? with - | ⟨⟨⟩⟩
    · exact (ended answer).elim
    · exact .inl rfl
    · exact .inr rfl
    · exact (known answer).elim

theorem Settled.solve_ends (settled : s.Settled formula)
    (lasting : s.settings.reductionInterval = 0 ∨
      s.schedule.Pauses ((s.atomCount + 1) ^ (s.atomCount + 1))) :
    ∃ passes, (s.solve passes).1 ≠ .ok none := by
  cases unsettled : s.isSettled with
  | true => exact ⟨0, by simp [solve, unsettled]⟩
  | false =>
    have searching := settled.begin unsettled
    suffices ends : ∃ passes, (run passes s.start).1 ≠ .ok false by
      simpa only [solve_of_unsettled unsettled, ne_eq, answerOf_eq_none_iff] using ends
    rcases lasting with off | pauses
    · exact ⟨_, searching.run_learns off (Nat.lt_add_left _ (Nat.lt_succ_self _))⟩
    · exact searching.run_ends_of_pauses pauses

section Searches

variable {settings : Settings}

/-- A search which has room and keys, and stops for nothing, comes to say whether there is a model, if
reductions are off, or if some time there is no restart for as many conflicts as there are
profiles. -/
theorem reachable_complete (reachable : Reachable settings ⟨formula, .between, s⟩)
    (conflictLimit : settings.conflictLimit = 0) (timeLimit : settings.timeLimit = 0)
    (unstopped : ∀ stop, s.terminate = some stop → ∀ poll, stop poll = false)
    (room : ∀ passes, (s.solve passes).2.store.totalCount < settings.clauseLimit)
    (keys : ∀ passes, (s.solve passes).2.store.HasKey .resolution)
    (lasting : settings.reductionInterval = 0 ∨
      s.schedule.Pauses ((s.atomCount + 1) ^ (s.atomCount + 1))) :
    ∃ passes, (s.solve passes).1 = .ok (some .satisfiable) ∨
      (s.solve passes).1 = .ok (some .unsatisfiable) := by
  have kept : s.settings = settings := (Reachable.sameSetup reachable).1
  have undisturbed : s.start.Undisturbed := ⟨kept ▸ conflictLimit, kept ▸ timeLimit, unstopped⟩
  obtain ⟨passes, ended⟩ := Settled.solve_ends reachable.good (kept ▸ lasting)
  have limit : (s.solve passes).2.store.limit = settings.clauseLimit :=
    (Reachable.sameSetup (reachable.trans (solve_steps formula s passes))).2
  have room' : (s.solve passes).2.HasRoom := (room passes).trans_eq limit.symm
  exact ⟨passes, Settled.solve_answers reachable.good undisturbed room' (keys passes) ended⟩

end Searches

def allSigns : List Clause :=
  [[1, 2, 3], [-3, 1, 2], [-2, 1, 3], [-3, -2, 1], [-1, 2, 3], [-3, -1, 2], [-2, -1, 3],
    [-3, -2, -1]]

theorem normalise_allSigns : ∀ c ∈ allSigns, c.normalise = c := by
  have sorted : ∀ c ∈ allSigns, c.Pairwise (· < ·) := by decide
  exact fun c member => Clause.normalise_of_sorted (sorted c member)

def hasty : Settings := { restartPolicy := .geometric 1 1.0, reductionInterval := 0 }

def hastySigns : Solver := ((new hasty).ensureAtoms 3).2.addAllNormal allSigns

theorem hastySigns_reachable : Reachable hasty ⟨allSigns, .between, hastySigns⟩ := by
  have atoms : Reachable hasty ⟨[], .between, ((new hasty).ensureAtoms 3).2⟩ :=
    .single (.ensureAtoms (new hasty) 3)
  exact atoms.addAllNormal normalise_allSigns (by decide +kernel)

theorem hastySigns_complete :
    hasty.conflictLimit = 0 ∧ hasty.timeLimit = 0 ∧ hastySigns.terminate.isNone = true ∧
      (∀ passes, (hastySigns.solve passes).2.store.totalCount < hasty.clauseLimit) ∧
      (∀ passes, (hastySigns.solve passes).2.store.HasKey .resolution) ∧
      hasty.reductionInterval = 0 ∧
      ∃ passes, (hastySigns.solve passes).1 = .ok (some .satisfiable) ∨
        (hastySigns.solve passes).1 = .ok (some .unsatisfiable) := by
  have unpolled : hastySigns.terminate.isNone = true := by decide +kernel
  have few : ∀ passes < 9, (hastySigns.solve passes).2.store.totalCount < hasty.clauseLimit ∧
      (hastySigns.solve passes).2.store.additions.size ≤ ClauseKey.maxIndex := by
    decide +kernel
  have ended : (hastySigns.solve 8).1 = .ok (some .unsatisfiable) := by decide +kernel
  have always (passes : Nat) :
      (hastySigns.solve passes).2.store.totalCount < hasty.clauseLimit ∧
        (hastySigns.solve passes).2.store.additions.size ≤ ClauseKey.maxIndex := by
    rcases Nat.lt_or_ge passes 8 with before | after
    · exact few passes (Nat.lt_succ_of_lt before)
    · rw [solve_of_ended (by rw [ended]; simp) after]
      exact few 8 (Nat.lt_succ_self 8)
  have room (passes : Nat) := (always passes).1
  have keys (passes : Nat) : (hastySigns.solve passes).2.store.HasKey .resolution :=
    .inl (always passes).2
  exact ⟨rfl, rfl, unpolled, room, keys, rfl, reachable_complete hastySigns_reachable rfl rfl
    (fun stop terminate => by simp [terminate] at unpolled) room keys (.inl rfl)⟩

end Solver

end ClauseLearning
