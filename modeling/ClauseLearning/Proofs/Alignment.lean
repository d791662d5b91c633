import ClauseLearning.Proofs.Calls
import ClauseLearning.Proofs.Setup

namespace ClauseLearning

namespace Solver

variable {s s' : Solver} {l : Literal} {source : Source}

theorem Aligned.assign (aligned : s.Aligned) (l : Literal) (source : Source) :
    (s.assign l source).2.Aligned := by
  cases answer : s.atoms.assign l s.trail.level source with
  | mk status atoms =>
    by_cases assigned : status = .assigned
    · subst assigned
      have unvalued := AtomTable.unvalued_of_assigned answer
      have nonzero : l ≠ 0 := by
        rintro rfl
        rw [AtomTable.Unvalued, Int.natAbs_zero, aligned.agrees.top] at unvalued
        cases unvalued.2
      obtain ⟨atoms, journal, answer', order, size, assigned⟩ := assign_eq source unvalued
      rw [answer']
      constructor
      · refine aligned.agrees.extend nonzero unvalued.2 assigned rfl (fun _ _ => rfl) ?_
        exact Trail.levelAt_eq_level aligned.trail.inside
      · exact aligned.trail.push l
      · refine aligned.offering.shrink order size fun a none => ?_
        rw [assigned] at none
        split at none
        · cases none
        · exact none
      · exact size ▸ aligned.bounded
    · have kept := AtomTable.assign_of_status answer assigned
      have unchanged : (s.assign l source).2 = { s with atoms } := by
        unfold Solver.assign
        simp only [answer]
      rw [unchanged]
      exact aligned.congr (.of_eq kept rfl)

theorem Aligned.pushLevel (aligned : s.Aligned) : s.pushLevel.Aligned where
  agrees := aligned.agrees.regroup rfl fun i inside => by
    change s.trail.pushLevel.levelAt i = s.trail.levelAt i
    rw [Trail.levelAt_pushLevel, if_neg (Nat.not_le.2 inside), Nat.add_zero]
  trail := aligned.trail.pushLevel
  offering := aligned.offering
  bounded := aligned.bounded

theorem Aligned.pastHead (aligned : s.Aligned)
    (waiting : s.trail.head < s.trail.literals.size) : s.pastHead.Aligned where
  agrees := aligned.agrees.regroup rfl fun _ _ => rfl
  trail := aligned.trail.advance waiting
  offering := aligned.offering
  bounded := aligned.bounded

theorem Aligned.backjump (aligned : s.Aligned) (n : Nat) : (s.backjump n).Aligned :=
  aligned.retreat (backjump_retreats aligned n)

theorem Aligned.takeDecision (aligned : s.Aligned) : s.takeDecision.2.Aligned := by
  rcases takeDecision_cases aligned with ⟨s', exhausted, -, same, -⟩ | ⟨l, opened, decided, opens⟩
  · rw [exhausted]
    exact aligned.congr same.spares
  · rw [decided]
    obtain ⟨atoms, journal, answer, size, offering, assigned⟩ := opens.assigned
    rw [answer]
    constructor
    · refine aligned.agrees.extend opens.nonzero opens.unvalued.2 assigned rfl
        (Trail.Extends.decide s.trail l).levels ?_
      rw [Trail.levelAt_push, Trail.levelAt_pushLevel, if_pos (Nat.le_refl _),
        Trail.levelAt_eq_level aligned.trail.inside]
    · exact aligned.trail.pushLevel.push l
    · exact offering
    · exact size ▸ aligned.bounded

theorem Aligned.fresh (aligned : s.Aligned) (room : s.atoms.size ≤ Atom.max) {atoms : AtomTable}
    (size : atoms.size = s.atoms.size + 1) (order : atoms.order = s.atoms.order.add s.atoms.size)
    (same : ∀ a, atoms.assignment? a = s.atoms.assignment? a) :
    ({ s with atoms } : Solver).Aligned where
  agrees := aligned.agrees.congr same
  trail := aligned.trail
  offering := aligned.offering.fresh size order same
  bounded := size ▸ Nat.succ_le_succ room

structure Persists (holds : Solver → Prop) : Prop where
  spares : ∀ {s s'}, holds s → s.Spares s' → holds s'
  assign : ∀ {s}, holds s → ∀ l source, holds (s.assign l source).2
  pastHead : ∀ {s}, holds s → s.trail.head < s.trail.literals.size → holds s.pastHead
  backjump : ∀ {s}, holds s → ∀ n, holds (s.backjump n)
  takeDecision : ∀ {s}, holds s → holds s.takeDecision.2
  fresh : ∀ {s : Solver} {atoms : AtomTable}, holds s → s.atoms.size ≤ Atom.max →
    atoms.size = s.atoms.size + 1 → atoms.order = s.atoms.order.add s.atoms.size →
    (∀ a, atoms.assignment? a = s.atoms.assignment? a) → holds { s with atoms }

theorem persists_aligned : Persists Aligned where
  spares := Aligned.congr
  assign := Aligned.assign
  pastHead := Aligned.pastHead
  backjump := Aligned.backjump
  takeDecision := Aligned.takeDecision
  fresh aligned room size order same := aligned.fresh room size order same

structure Lengthens (holds : Solver → Prop) (s s' : Solver) : Prop where
  kept : holds s → holds s'
  head : s'.trail.head = s.trail.head
  size_le : s.trail.literals.size ≤ s'.trail.literals.size

namespace Lengthens

variable {holds : Solver → Prop} {s'' : Solver}

theorem trans (first : Lengthens holds s s') (second : Lengthens holds s' s'') :
    Lengthens holds s s'' where
  kept := second.kept ∘ first.kept
  head := second.head.trans first.head
  size_le := first.size_le.trans second.size_le

theorem answered {α : Type} {call : α × Solver} {result : α} (lengthens : Lengthens holds s call.2)
    (answer : call = (result, s')) : Lengthens holds s s' := by
  rwa [answer] at lengthens

end Lengthens

theorem Merges.spares (merges : s.Merges s') : s.Spares s' := by
  obtain ⟨buffer, journal, raised, rfl⟩ := merges
  exact .of_eq rfl rfl

theorem spares_insert (s : Solver) (c : Clause) (origin : ClauseOrigin)
    (blockDistance : Option Nat) : s.Spares (s.insert c origin blockDistance).2 := by
  obtain ⟨journal, learned, inserted⟩ := s.insert_eq c origin blockDistance
  rw [inserted]
  exact .of_eq rfl rfl

theorem spares_reduce (s : Solver) : s.Spares s.reduce.2 := by
  obtain ⟨count, journal, counters, reduced⟩ := s.reduce_eq
  rw [reduced]
  exact .of_eq rfl rfl

namespace Persists

variable {holds : Solver → Prop} (persists : Persists holds)

include persists

theorem note (kept : holds s) (level : Level) (topic : Topic) (message : Unit → String) :
    holds (s.note level topic message) :=
  persists.spares kept (s.note_resembles ..).spares

theorem noteFailure (kept : holds s) (failure : Failure) : holds (s.noteFailure failure) :=
  persists.spares kept (s.noteFailure_resembles failure).spares

theorem lengthens (spares : s.Spares s') : Lengthens holds s s' :=
  ⟨fun kept => persists.spares kept spares, by rw [spares.trail], by rw [spares.trail]⟩

theorem lengthens_assign (s : Solver) (l : Literal) (source : Source) :
    Lengthens holds s (s.assign l source).2 where
  kept kept := persists.assign kept l source
  head := by
    unfold Solver.assign
    simp only
    split
    · rw [trail_note]
      rfl
    · rfl
  size_le := by
    unfold Solver.assign
    simp only
    split
    · rw [trail_note]
      simp [Trail.push]
    · exact Nat.le_refl _

theorem lengthens_imply (s : Solver) (l : Literal) (key : ClauseKey) :
    Lengthens holds s (s.imply l key) := by
  have noted := persists.lengthens (s.note_resembles .trace .propagation fun _ =>
    l.text ++ " from " ++ key.text).spares
  have assigned := noted.trans (persists.lengthens_assign _ l (.propagation key))
  exact { assigned with kept := fun kept => persists.spares (assigned.kept kept) (.of_eq rfl rfl) }

theorem lengthens_visit (s : Solver) (l : Literal) (key : ClauseKey) :
    Lengthens holds s (s.visit l key).2 := by
  have changed (c : WatchedClause) :
      Lengthens holds s (s.modifyStore (·.modify key fun _ => c)) :=
    persists.lengthens (.of_eq rfl rfl)
  have visits := s.visits_visit l key
  generalize s.visit l key = answer at visits
  cases visits with
  | dead failure => exact persists.lengthens (s.noteFailure_resembles failure).spares
  | stray c failure =>
    exact (changed c).trans (persists.lengthens (noteFailure_resembles ..).spares)
  | moved c watches => exact persists.lengthens (.of_eq rfl rfl)
  | kept c => exact changed c
  | conflict c => exact (changed c).trans (persists.lengthens (note_resembles ..).spares)
  | implied c front => exact (changed c).trans (persists.lengthens_imply ..)

theorem lengthens_walk (l : Literal) (w : Walk) (i : Nat) :
    Lengthens holds w.solver (walk l w i).2.solver :=
  walk_related (fun s => persists.lengthens (.refl s)) .trans (persists.lengthens_visit · l) w i

theorem lengthens_propagateLiteral (s : Solver) (l : Literal) :
    Lengthens holds s (s.propagateLiteral l).2 := by
  have taken : Lengthens holds s (s.modifyWatches fun w => (w.take (-l)).2) :=
    persists.lengthens (.of_eq rfl rfl)
  have walked := taken.trans (persists.lengthens_walk l ⟨_, s.clauses.watches.watchers (-l),
    (s.clauses.watches.watchers (-l)).size⟩ 0)
  rw [propagateLiteral_eq rfl]
  exact { walked with kept := fun kept => persists.spares (walked.kept kept) (.of_eq rfl rfl) }

theorem assertionLevel (kept : holds s) (c : Clause) : holds (s.assertionLevel c).2 := by
  unfold Solver.assertionLevel noteError
  simp only
  split
  · exact kept
  · exact persists.noteFailure kept _

theorem assertLesson (kept : holds s) (l : Literal) (source : Source) :
    holds (s.assertLesson l source).2 := by
  have assigned := persists.assign kept l source
  unfold Solver.assertLesson
  split <;> rename_i answer <;> rw [answer] at assigned
  · exact assigned
  · exact persists.noteFailure assigned (.noAssertion l)

theorem restart (kept : holds s) : holds s.restart := by
  obtain ⟨counters, journal, restarted⟩ := s.restart_eq
  rw [restarted]
  exact persists.spares (persists.backjump kept 0) (.of_eq rfl rfl)

theorem restartIfDue (kept : holds s) : holds s.restartIfDue.2 := by
  have advanced (schedule : RestartSchedule) : holds { s with schedule } :=
    persists.spares kept (.of_eq rfl rfl)
  unfold Solver.restartIfDue
  simp only
  split
  · exact persists.restart (advanced _)
  · exact advanced _

theorem prepare (kept : holds s) : holds s.prepare := by
  have cleared := persists.backjump kept 0
  unfold Solver.prepare clearDecisions
  simp only
  split
  · exact cleared
  · exact persists.spares cleared (.of_eq rfl rfl)

theorem freshAtom (kept : holds s) : holds s.freshAtom.2 := by
  have prepared := persists.prepare kept
  unfold Solver.freshAtom
  simp only
  by_cases room : s.prepare.atoms.size ≤ Atom.max
  · obtain ⟨atoms, answer, size, order, same⟩ := AtomTable.fresh_of_le room
    rw [answer]
    exact persists.spares (persists.fresh prepared room size order same) (.of_eq rfl rfl)
  · rw [AtomTable.fresh_of_lt (Nat.lt_of_not_le room)]
    exact persists.noteFailure prepared .atomsExhausted

theorem introduce (count : Nat) (kept : holds s) : holds (introduce count s).2 := by
  induction count generalizing s with
  | zero => exact kept
  | succ count ih =>
    have fresh := persists.freshAtom kept
    rw [Solver.introduce]
    cases answer : s.freshAtom with
    | mk result s' =>
      rw [answer] at fresh
      cases result with
      | error failure => exact fresh
      | ok a => exact ih fresh

theorem ensureAtoms (kept : holds s) (a : Atom) : holds (s.ensureAtoms a).2 :=
  persists.introduce _ kept

theorem addReduced (kept : holds s) (c : Clause) : holds (s.addReduced c).2 := by
  have inserted := persists.spares kept (s.spares_insert c .formula none)
  unfold Solver.addReduced
  split
  · exact persists.spares (persists.note kept ..) (.of_eq rfl rfl)
  · split <;> rename_i answer <;> rw [answer] at inserted
    · exact inserted
    · exact persists.assign inserted ..
  · split <;> rename_i answer <;> rw [answer] at inserted
    · exact inserted
    · exact inserted

theorem addClause (kept : holds s) (c : Clause) : holds (s.addClause c).2 := by
  unfold Solver.addClause
  simp only
  split
  · exact persists.note kept ..
  · split
    · exact persists.noteFailure kept _
    · exact persists.addReduced
        (persists.prepare (persists.spares kept (s.seed_resembles _).1.spares)) _

theorem readDimacs (kept : holds s) (file : ByteArray) : holds (s.readDimacs file).2 := by
  have endures : Endures holds :=
    ⟨fun _ _ _ _ before => persists.note before .., fun _ a before => persists.ensureAtoms before a,
      fun _ c before => persists.addClause before c⟩
  exact endures.readDimacs s file kept

theorem step {before after : Config} (step : Step before after) (kept : holds before.solver) :
    holds after.solver := by
  have after_of {α : Type} {call : α × Solver} {result : α} {s : Solver}
      (left : holds call.2) (answer : call = (result, s)) : holds s := by
    rwa [answer] at left
  cases step with
  | outside => exact persists.spares kept (.of_eq rfl rfl)
  | listen => exact persists.spares kept (.of_eq rfl rfl)
  | freshAtom s => exact persists.freshAtom kept
  | ensureAtoms s a => exact persists.ensureAtoms kept a
  | addClause s c => exact persists.addClause kept c
  | readDimacs s file => exact persists.readDimacs kept file
  | start => exact persists.spares kept (.of_eq rfl rfl)
  | draw next answer =>
    have lengthens := (persists.lengthens_propagateLiteral ..).answered answer
    refine persists.pastHead (lengthens.kept kept) ?_
    rw [lengthens.head]
    exact (Array.getElem?_eq_some_iff.1 next).1.trans_le lengthens.size_le
  | clash next answer =>
    exact ((persists.lengthens_propagateLiteral ..).answered answer).kept kept
  | drawFailed next answer =>
    exact ((persists.lengthens_propagateLiteral ..).answered answer).kept kept
  | drawn => exact kept
  | @stop accepted s s' answer =>
    obtain ⟨journal, polls, same⟩ := s.shouldStop_eq
    rw [answer] at same
    obtain rfl : s' = { s with journal, polls } := same
    exact persists.spares kept (.of_eq rfl rfl)
  | decide answer => exact after_of (persists.takeDecision kept) answer
  | satisfy answer =>
    exact persists.spares (after_of (persists.takeDecision kept) answer) (.of_eq rfl rfl)
  | refute => exact persists.spares kept (.of_eq rfl rfl)
  | derive decided answer =>
    exact persists.spares (persists.spares kept ((merges_derive ..).spares.answered answer))
      (rewardAtoms_resembles ..).1.spares
  | deriveFailed decided answer =>
    exact persists.spares kept ((merges_derive ..).spares.answered answer)
  | retreatUnit s l => exact persists.backjump kept 0
  | retreat answer =>
    exact persists.backjump (after_of (persists.assertionLevel kept _) answer) _
  | retreatFailed answer => exact after_of (persists.assertionLevel kept _) answer
  | deriveNothing s => exact persists.noteFailure kept .emptyClause
  | storeUnit answer => exact persists.spares kept ((spares_insert ..).answered answer)
  | store answer => exact persists.spares kept ((spares_insert ..).answered answer)
  | storeFailed answer => exact persists.spares kept ((spares_insert ..).answered answer)
  | assertion taught answer => exact after_of (persists.assertLesson kept ..) answer
  | assertionFailed taught answer => exact after_of (persists.assertLesson kept ..) answer
  | restart s => exact persists.restartIfDue kept
  | keep => exact kept
  | reduce due answer => exact persists.spares kept ((spares_reduce _).answered answer)
  | reduceFailed due answer => exact persists.spares kept ((spares_reduce _).answered answer)

theorem steps {before after : Config} (steps : Steps before after) (kept : holds before.solver) :
    holds after.solver := by
  induction steps with
  | refl => exact kept
  | tail steps last ih => exact persists.step last ih

theorem followConsequences (kept : holds s) : holds s.followConsequences := by
  have drawn := persists.steps (propagate_steps [] s) kept
  unfold Solver.followConsequences applyConsequences
  match answer : s.propagate with
  | (.error failure, s') =>
    rw [answer] at drawn
    exact drawn
  | (.ok .complete, s') =>
    rw [answer] at drawn
    exact drawn
  | (.ok (.conflict key), s') =>
    rw [answer] at drawn
    have counted : holds s'.countConflict := persists.spares drawn (.of_eq rfl rfl)
    have analysed := persists.steps (analyse_steps [] s'.countConflict key).1 counted
    match answer' : s'.countConflict.analyse key with
    | (.error failure, s'') =>
      rw [answer'] at analysed
      simpa only [answer'] using analysed
    | (.ok lesson, s'') =>
      rw [answer'] at analysed
      simp only [answer']
      split
      · exact persists.assign analysed ..
      · exact analysed

theorem perform (kept : holds s) {call : Call} (grouped : call ≠ .pushLevel) :
    holds (s.perform call) := by
  cases call with
  | freshAtom => exact persists.freshAtom kept
  | ensureAtoms a => exact persists.ensureAtoms kept a
  | addClause c => exact persists.addClause kept c
  | readDimacs file => exact persists.readDimacs kept file
  | solve passes => exact persists.steps (solve_steps [] s passes) kept
  | takeDecision => exact persists.takeDecision kept
  | propagate => exact persists.steps (propagate_steps [] s) kept
  | propagateLiteral l => exact (persists.lengthens_propagateLiteral s l).kept kept
  | analyse key => exact persists.steps (analyse_steps [] s key).1 kept
  | applyConsequences => exact persists.followConsequences kept
  | pushLevel => exact absurd rfl grouped
  | assign l source => exact persists.assign kept l source
  | backjump n => exact persists.backjump kept n
  | clearDecisions => exact persists.backjump kept 0
  | restart => exact persists.restart kept
  | raiseAtom a => exact persists.spares kept (s.raiseAtoms_resembles [a]).1.spares
  | decayAtoms =>
    exact persists.spares kept
      (s.atoms_resembles _ s.atoms.decay_same AtomTable.Offering.decay).spares
  | configure settings => exact persists.spares kept (.of_eq rfl rfl)
  | outside => exact persists.spares kept (.of_eq rfl rfl)

end Persists

theorem Aligned.addClause (aligned : s.Aligned) (c : Clause) : (s.addClause c).2.Aligned :=
  persists_aligned.addClause aligned c

theorem Aligned.perform (aligned : s.Aligned) (call : Call) : (s.perform call).Aligned := by
  by_cases grouped : call = .pushLevel
  · rw [grouped]
    exact aligned.pushLevel
  · exact persists_aligned.perform aligned grouped

theorem Aligned.performAll (aligned : s.Aligned) (calls : List Call) :
    (s.performAll calls).Aligned := by
  induction calls generalizing s with
  | nil => exact aligned
  | cons call rest ih => exact ih (aligned.perform call)

def OnTrail (s : Solver) (a : Atom) : Prop := ∃ l ∈ s.trail.literals, l.natAbs = a

/-- The trail says which atoms have a value, which one, and at which level. -/
structure InStep (s : Solver) : Prop where
  distinct : (s.trail.literals.toList.map Int.natAbs).Nodup
  proper : ¬s.OnTrail Atom.top
  known_iff : ∀ a, a ≠ Atom.top → ((s.value a).isSome ↔ s.OnTrail a) ∧
    ((s.atoms.level a).isSome ↔ s.OnTrail a) ∧ ((s.atoms.source a).isSome ↔ s.OnTrail a)
  listed : ∀ (i : Nat) l, s.trail.literals[i]? = some l → s.value l.natAbs = some l.polarity ∧
    s.atoms.level l.natAbs = some (s.trail.starts.toList.countP (· ≤ i))
  ordered : s.trail.starts.toList.Pairwise (· ≤ ·)
  inside : ∀ start ∈ s.trail.starts, start ≤ s.trail.literals.size
  head_le : s.trail.head ≤ s.trail.literals.size

/-- The values of the levels above the given one were taken back, and are kept as phases. -/
structure Clears (s s' : Solver) (n : Nat) : Prop where
  level : s'.level = min n s.level
  cleared : ∀ a m, s.atoms.level a = some m → n < m →
    s'.value a = none ∧ s'.atoms.level a = none ∧ s'.atoms.source a = none ∧
      s.value a = some (s'.atoms.phase a)
  kept : ∀ a, (∀ m, s.atoms.level a = some m → m ≤ n) →
    s'.value a = s.value a ∧ s'.atoms.level a = s.atoms.level a ∧
      s'.atoms.source a = s.atoms.source a ∧ s'.atoms.phase a = s.atoms.phase a
  fixed : ∀ a, s.atoms.level a = some 0 → s'.value a = s.value a

theorem onTrail_cases (agrees : s.atoms.Agrees s.trail) {a : Nat} (proper : a ≠ Atom.top) :
    (s.OnTrail a ∧ ∃ value level source,
        s.atoms.assignment? a = some ⟨value, level, some source⟩) ∨
      ¬s.OnTrail a ∧ s.atoms.assignment? a = none := by
  by_cases onTrail : s.OnTrail a
  · obtain ⟨l, member, rfl⟩ := onTrail
    obtain ⟨i, found⟩ := Array.getElem?_of_mem member
    obtain ⟨-, source, assigned⟩ := agrees.listed i l found
    exact .inl ⟨⟨l, member, rfl⟩, _, _, source, assigned⟩
  · refine .inr ⟨onTrail, ?_⟩
    cases assigned : s.atoms.assignment? a with
    | none => rfl
    | some assignment =>
      exact absurd (agrees.located a _ (Nat.pos_of_ne_zero proper) assigned) onTrail

theorem Aligned.inStep (aligned : s.Aligned) : s.InStep where
  distinct := by
    refine List.pairwise_iff_getElem.2 fun i j before inside lt same => ?_
    simp only [List.getElem_map, Array.getElem_toList] at same
    exact lt.ne (aligned.agrees.distinct i j _ _ (Array.getElem?_eq_getElem (by simpa using before))
      (Array.getElem?_eq_getElem (by simpa using inside)) same)
  proper := by
    rintro ⟨l, member, top⟩
    exact aligned.agrees.nonzero member (Int.natAbs_eq_zero.1 top)
  known_iff a proper := by
    rw [Solver.value, AtomTable.value_eq, AtomTable.level_eq, AtomTable.source_eq]
    rcases onTrail_cases aligned.agrees proper with
      ⟨on, value, level, source, assigned⟩ | ⟨off, none⟩
    · simp [assigned, on]
    · simp [none, off]
  listed i l found := by
    obtain ⟨-, source, assigned⟩ := aligned.agrees.listed i l found
    rw [Solver.value, AtomTable.value_eq, AtomTable.level_eq, assigned]
    exact ⟨rfl, rfl⟩
  ordered := aligned.trail.ordered
  inside := aligned.trail.inside
  head_le := aligned.trail.head_le

theorem mem_above_iff (agrees : s.atoms.Agrees s.trail) (sorted : s.trail.Sorted) (n : Nat)
    (a : Atom) : (∃ l ∈ s.trail.above n, l.natAbs = a) ↔ ∃ m, s.atoms.level a = some m ∧ n < m := by
  constructor
  · rintro ⟨l, member, rfl⟩
    obtain ⟨i, found, above⟩ := (Trail.mem_above sorted n l).1 member
    exact ⟨_, agrees.level_of_getElem? found, above⟩
  · rintro ⟨m, level, above⟩
    have proper : a ≠ Atom.top := by
      rintro rfl
      have ground : s.atoms.level Atom.top = some 0 := by
        rw [AtomTable.level_eq]
        exact congrArg _ agrees.top
      rw [ground] at level
      exact absurd above (by simp [← Option.some.inj level])
    rcases onTrail_cases agrees proper with ⟨⟨l, member, rfl⟩, -⟩ | ⟨-, none⟩
    · obtain ⟨i, found⟩ := Array.getElem?_of_mem member
      rw [agrees.level_of_getElem? found] at level
      obtain rfl := Option.some.inj level
      exact ⟨l, (Trail.mem_above sorted n l).2 ⟨i, found, above⟩, rfl⟩
    · simp [AtomTable.level_eq, none] at level

theorem backjump_clears (agrees : s.atoms.Agrees s.trail) (sorted : s.trail.Sorted) (n : Nat) :
    s.Clears (s.backjump n) n := by
  obtain ⟨atoms, journal, backjumped, -, -, changed⟩ := backjump_eq agrees sorted n
  simp only [mem_above_iff agrees sorted] at changed
  have kept (a : Atom) (below : ∀ m, s.atoms.level a = some m → m ≤ n) :
      atoms.assignment? a = s.atoms.assignment? a ∧ atoms.phase a = s.atoms.phase a := by
    have low : ¬∃ m, s.atoms.level a = some m ∧ n < m :=
      fun ⟨m, level, above⟩ => absurd (below m level) (Nat.not_le.2 above)
    obtain ⟨assignment, phase⟩ := changed a
    rw [if_neg low] at assignment phase
    exact ⟨assignment, phase⟩
  rw [backjumped]
  constructor
  · exact s.trail.level_cut n
  · intro a m level above
    obtain ⟨assignment, phase⟩ := changed a
    rw [if_pos ⟨m, level, above⟩] at assignment phase
    obtain ⟨value, valued⟩ : ∃ value, s.atoms.value a = some value := by
      rw [AtomTable.level_eq] at level
      obtain ⟨known, assigned, -⟩ := Option.map_eq_some_iff.1 level
      exact ⟨known.value, by rw [AtomTable.value_eq, assigned]; rfl⟩
    rw [valued, Option.getD_some] at phase
    refine ⟨?_, ?_, ?_, valued.trans (congrArg some phase.symm)⟩
    · simp [Solver.value, AtomTable.value_eq, assignment]
    · simp [AtomTable.level_eq, assignment]
    · simp [AtomTable.source_eq, assignment]
  · intro a below
    obtain ⟨assignment, phase⟩ := kept a below
    refine ⟨?_, ?_, ?_, phase⟩
    · simp [Solver.value, AtomTable.value_eq, assignment]
    · simp [AtomTable.level_eq, assignment]
    · simp [AtomTable.source_eq, assignment]
  · intro a fixed
    have below : ∀ m, s.atoms.level a = some m → m ≤ n := fun m level => by
      rw [fixed] at level
      exact Option.some.inj level ▸ Nat.zero_le n
    simp [Solver.value, AtomTable.value_eq, (kept a below).1]

theorem Aligned.clears (aligned : s.Aligned) (n : Nat) : s.Clears (s.backjump n) n :=
  backjump_clears aligned.agrees aligned.trail n

/-- Whatever is called in whatever order, trail and values are in step, and a backjump clears just
the levels above its target. -/
theorem performAll_inStep (settings : Settings) (calls : List Call) :
    ((new settings).performAll calls).InStep ∧
      ∀ n, ((new settings).performAll calls).Clears
        (((new settings).performAll calls).backjump n) n := by
  have aligned := (new_coherent settings).aligned.performAll calls
  exact ⟨aligned.inStep, aligned.clears⟩

theorem trail_assign (s : Solver) (l : Literal) (source : Source) :
    (s.assign l source).2.trail = s.trail ∨ (s.assign l source).2.trail = s.trail.push l := by
  unfold assign
  simp only
  split
  · exact .inr (trail_note ..)
  · exact .inl rfl

theorem persists_spaced (n : Nat) : Persists fun s => s.Aligned ∧ s.trail.Spaced n where
  spares kept spares := ⟨kept.1.congr spares, spares.trail ▸ kept.2⟩
  assign {s} kept l source := by
    refine ⟨kept.1.assign l source, ?_⟩
    rcases s.trail_assign l source with same | pushed
    · exact same ▸ kept.2
    · exact pushed ▸ kept.2.push l
  pastHead kept waiting := ⟨kept.1.pastHead waiting, ⟨kept.2.starts, kept.2.level⟩⟩
  backjump kept m := by
    refine ⟨kept.1.backjump m, ?_⟩
    rw [(backjump_retreats kept.1 m).trail]
    exact kept.2.cut kept.1.trail m
  takeDecision {s} kept := by
    refine ⟨kept.1.takeDecision, ?_⟩
    rcases takeDecision_cases kept.1 with ⟨s', exhausted, -, same, -⟩ | ⟨l, opened, decided, opens⟩
    · rw [exhausted, same.trail]
      exact kept.2
    · obtain ⟨atoms, journal, answer, -⟩ := opens.assigned
      rw [decided, answer]
      exact kept.2.decide l
  fresh kept room size order same := ⟨kept.1.fresh room size order same, kept.2⟩

theorem spaced_performAll {n : Nat} (aligned : s.Aligned) (spaced : s.trail.Spaced n)
    (calls : List Call) :
    (s.performAll calls).trail.Spaced (n + calls.countP Call.opensLevel) := by
  induction calls generalizing s n with
  | nil => exact spaced
  | cons call rest ih =>
    have aligned' := aligned.perform call
    by_cases opens : call = .pushLevel
    · subst opens
      have counted : (.pushLevel :: rest).countP Call.opensLevel =
          rest.countP Call.opensLevel + 1 := List.countP_cons_of_pos rfl
      rw [counted, Nat.add_comm _ 1, ← Nat.add_assoc]
      exact ih aligned' spaced.pushLevel
    · have later := ih aligned' ((persists_spaced n).perform ⟨aligned, spaced⟩ opens).2
      rwa [List.countP_cons_of_neg]
      cases call <;> first | exact absurd rfl opens | exact Bool.false_ne_true

/-- There are at most as many levels as atoms, but for those which were opened on their own. So a
word of 32 bits holds the number of levels unless too many of these were. -/
theorem performAll_level_le (settings : Settings) (calls : List Call) :
    ((new settings).performAll calls).level ≤
        ((new settings).performAll calls).atomCount + calls.countP Call.opensLevel ∧
      (calls.countP Call.opensLevel ≤ Nat.pow 2 31 →
        (UInt32.ofNat ((new settings).performAll calls).level).toNat =
          ((new settings).performAll calls).level) := by
  have start := (new_coherent settings).aligned
  have aligned := start.performAll calls
  have empty : (new settings).trail.Spaced 0 := ⟨fun _ _ none => (by cases none), Nat.zero_le _⟩
  have spaced := spaced_performAll start empty calls
  rw [Nat.zero_add] at spaced
  have le := spaced.level.trans (Nat.add_le_add_right aligned.literals_le _)
  refine ⟨le, fun few => ?_⟩
  have bounded := aligned.bounded
  have atoms : ((new settings).performAll calls).atomCount ≤ Nat.pow 2 31 - 1 :=
    Nat.sub_le_of_le_add bounded
  have inside : ((new settings).performAll calls).level < 2 ^ 32 := by
    refine Nat.lt_of_le_of_lt le ?_
    simp only [Nat.pow_eq] at atoms few ⊢
    omega
  rw [UInt32.toNat_ofNat', Nat.mod_eq_of_lt inside]

end Solver

end ClauseLearning
