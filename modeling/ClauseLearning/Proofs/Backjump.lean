import ClauseLearning.Proofs.Coherence
import ClauseLearning.Solver.Upkeep

namespace ClauseLearning.Solver

structure Retreats (s s' : Solver) (n : Nat) : Prop where
  trail : s'.trail = s.trail.cut n
  size : s'.atoms.size = s.atoms.size
  offering : s.atoms.Offering → s'.atoms.Offering
  assigned : ∀ a, s'.atoms.assignment? a =
    if ∃ l ∈ s.trail.above n, l.natAbs = a then none else s.atoms.assignment? a
  clauses : s'.clauses = s.clauses
  buffer : s'.buffer = s.buffer
  status : s'.status = s.status
  learned : s'.learned = s.learned

theorem foldl_unassign (cleared : List Literal) (s : Solver)
    (known : ∀ l ∈ cleared, l ≠ 0 ∧ l.natAbs < s.atoms.size) :
    ∃ atoms journal, cleared.foldl unassign s = { s with atoms, journal } ∧
      atoms.size = s.atoms.size ∧ (s.atoms.Offering → atoms.Offering) ∧ ∀ a,
        atoms.assignment? a =
          (if ∃ l ∈ cleared, l.natAbs = a then none else s.atoms.assignment? a) ∧
        atoms.phase a = if ∃ l ∈ cleared, l.natAbs = a then (s.atoms.value a).getD (s.atoms.phase a)
          else s.atoms.phase a := by
  induction cleared generalizing s with
  | nil => exact ⟨s.atoms, s.journal, rfl, rfl, id, fun a => by simp⟩
  | cons l rest ih =>
    obtain ⟨journal, noted⟩ := s.note_eq .trace .valuation fun _ =>
      "Cleared atom: " ++ toString l.natAbs
    have unassigned : s.unassign l = { s with atoms := s.atoms.unassign l.natAbs, journal } := by
      simp only [unassign, noted]
    obtain ⟨nonzero, inside⟩ := known l List.mem_cons_self
    obtain ⟨atoms, journal', folded, size, offering, assigned⟩ :=
      ih { s with atoms := s.atoms.unassign l.natAbs, journal } fun m member => by
        have bounds := known m (List.mem_cons_of_mem l member)
        exact ⟨bounds.1, (s.atoms.size_unassign _).symm ▸ bounds.2⟩
    refine ⟨atoms, journal', by rw [List.foldl_cons, unassigned, folded],
      size.trans (s.atoms.size_unassign _), fun before => ?_, fun a => ?_⟩
    · exact offering (before.unassign (Literal.natAbs_pos.2 nonzero) inside)
    · rw [(assigned a).1, (assigned a).2, AtomTable.phase_unassign, AtomTable.value_eq,
        AtomTable.assignment?_unassign]
      by_cases first : l.natAbs = a
      · simp [first, AtomTable.value_eq]
      · simp [first, Ne.symm first, AtomTable.value_eq]

theorem backjump_eq {s : Solver} (agrees : s.atoms.Agrees s.trail) (sorted : s.trail.Sorted)
    (n : Nat) :
    ∃ atoms journal, s.backjump n = { s with atoms, journal, trail := s.trail.cut n } ∧
      atoms.size = s.atoms.size ∧ (s.atoms.Offering → atoms.Offering) ∧ ∀ a,
        atoms.assignment? a =
          (if ∃ l ∈ s.trail.above n, l.natAbs = a then none else s.atoms.assignment? a) ∧
        atoms.phase a = if ∃ l ∈ s.trail.above n, l.natAbs = a
          then (s.atoms.value a).getD (s.atoms.phase a) else s.atoms.phase a := by
  unfold backjump
  split
  · rename_i le
    have none : s.trail.startAbove? n = none := Array.getElem?_eq_none le
    refine ⟨s.atoms, s.journal, ?_, rfl, id, fun a => ?_⟩
    · simp only [Trail.cut, none]
    · simp [Trail.above, none]
  · obtain ⟨journal, noted⟩ := s.note_eq .trace .backjump fun _ =>
      "Backjump from " ++ toString s.trail.level ++ " to " ++ toString n
    rw [noted]
    simp only
    obtain ⟨atoms, journal', folded, changed⟩ :=
      foldl_unassign (s.trail.above n) { s with journal, trail := s.trail.cut n } fun l member => by
        obtain ⟨i, found, -⟩ := (Trail.mem_above sorted n l).1 member
        have member := Array.mem_of_getElem? found
        exact ⟨agrees.nonzero member, agrees.known member⟩
    exact ⟨atoms, journal', folded, changed⟩

theorem backjump_retreats {s : Solver} (aligned : s.Aligned) (n : Nat) :
    s.Retreats (s.backjump n) n := by
  obtain ⟨atoms, journal, backjumped, size, offering, changed⟩ :=
    backjump_eq aligned.agrees aligned.trail n
  rw [backjumped]
  exact ⟨rfl, size, offering, fun a => (changed a).1, rfl, rfl, rfl, rfl⟩

section Retreat

variable {s s' : Solver} {n : Nat} {formula : List Clause} {exempt : ClauseKey → Prop}

theorem Retreats.kept (retreats : s.Retreats s' n) (aligned : s.Aligned) {i : Nat} {l : Literal}
    (found : s.trail.literals[i]? = some l) (le : s.trail.levelAt i ≤ n) :
    s'.trail.literals[i]? = some l ∧ s'.trail.levelAt i = s.trail.levelAt i ∧
      s'.atoms.assignment? l.natAbs = s.atoms.assignment? l.natAbs := by
  rw [retreats.trail, Trail.getElem?_cut aligned.trail, if_pos le,
    Trail.levelAt_cut aligned.trail le, retreats.assigned, if_neg]
  · exact ⟨found, rfl, rfl⟩
  · rintro ⟨m, member, same⟩
    obtain ⟨j, located, above⟩ := (Trail.mem_above aligned.trail n m).1 member
    obtain rfl := aligned.agrees.distinct i j l m found located same.symm
    exact absurd above (Nat.not_lt.2 le)

theorem Retreats.of_found (retreats : s.Retreats s' n) (aligned : s.Aligned) {i : Nat}
    {l : Literal} (found : s'.trail.literals[i]? = some l) :
    s.trail.literals[i]? = some l ∧ s.trail.levelAt i ≤ n ∧
      s'.trail.levelAt i = s.trail.levelAt i := by
  rw [retreats.trail, Trail.getElem?_cut aligned.trail] at found
  split at found
  · rename_i le
    exact ⟨found, le, retreats.trail ▸ Trail.levelAt_cut aligned.trail le⟩
  · cases found

theorem Retreats.unvalued (retreats : s.Retreats s' n) (aligned : s.Aligned) {i : Nat}
    {l : Literal} (found : s.trail.literals[i]? = some l) (above : n < s.trail.levelAt i) :
    s'.atoms.Unvalued l.natAbs := by
  refine ⟨retreats.size ▸ aligned.agrees.known (Array.mem_of_getElem? found), ?_⟩
  rw [retreats.assigned, if_pos ⟨l, (Trail.mem_above aligned.trail n l).2 ⟨i, found, above⟩, rfl⟩]

theorem Retreats.level (retreats : s.Retreats s' n) : s'.trail.level = min n s.trail.level := by
  rw [retreats.trail, Trail.level_cut]

theorem Aligned.retreat (aligned : s.Aligned) (retreats : s.Retreats s' n) : s'.Aligned where
  agrees := retreats.trail ▸ aligned.agrees.cut aligned.trail n retreats.assigned
  trail := retreats.trail ▸ aligned.trail.cut n
  offering := retreats.offering aligned.offering
  bounded := retreats.size ▸ aligned.bounded

theorem Coherent.retreat (coherent : s.Coherent) (retreats : s.Retreats s' n) : s'.Coherent where
  agrees := (coherent.aligned.retreat retreats).agrees
  trail := retreats.trail ▸ coherent.trail.cut n
  justified := by
    rw [retreats.clauses, retreats.trail]
    exact coherent.justified.cut coherent.aligned.trail n fun i l found le =>
      (retreats.kept coherent.aligned found le).2.2
  orderly := by
    rw [retreats.clauses, retreats.size]
    exact coherent.orderly
  offering := retreats.offering coherent.offering
  marked := retreats.buffer ▸ coherent.marked
  bounded := retreats.size ▸ coherent.bounded

theorem Entailed.retreat (entailed : s.Entailed formula) (retreats : s.Retreats s' n)
    (coherent : s.Coherent) : s'.Entailed formula where
  long := retreats.clauses ▸ entailed.long
  originalUnits := retreats.clauses ▸ entailed.originalUnits
  additionUnits := retreats.clauses ▸ entailed.additionUnits
  zero i l found zero := by
    obtain ⟨before, -, level⟩ := retreats.of_found coherent.aligned found
    exact entailed.zero i l before (level ▸ zero)
  learned := retreats.learned ▸ entailed.learned
  refuted := retreats.status ▸ entailed.refuted

theorem Grounded.retreat (grounded : s.Grounded exempt) (retreats : s.Retreats s' n)
    (coherent : s.Coherent) : s'.Grounded exempt := by
  refine grounded.of_kept (by rw [retreats.clauses]) (by rw [retreats.clauses]) ?_
  intro i l found zero
  -- No retreat goes below level zero, so what is true there stays.
  obtain ⟨found', level, -⟩ := retreats.kept coherent.aligned found (zero ▸ Nat.zero_le n)
  exact ⟨found', level.trans zero⟩

theorem Invariant.retreat (invariant : s.Invariant formula exempt) (retreats : s.Retreats s' n) :
    s'.Invariant formula exempt where
  coherent := invariant.coherent.retreat retreats
  mirrors := retreats.clauses ▸ invariant.mirrors
  guarded := by
    rw [retreats.clauses, retreats.trail]
    exact invariant.guarded.cut invariant.coherent.aligned.trail n
  grounded := invariant.grounded.retreat retreats invariant.coherent
  entailed := invariant.entailed.retreat retreats invariant.coherent
  covered := invariant.covered.of_eq retreats.status retreats.clauses

theorem Invariant.backjump (invariant : s.Invariant formula exempt) (n : Nat) :
    (s.backjump n).Invariant formula exempt :=
  invariant.retreat (backjump_retreats invariant.coherent.aligned n)

theorem Invariant.of_eq (invariant : s.Invariant formula exempt) (atoms : s'.atoms = s.atoms)
    (clauses : s'.clauses = s.clauses) (trail : s'.trail = s.trail) (buffer : s'.buffer = s.buffer)
    (status : s'.status = s.status) (learned : s'.learned = s.learned) :
    s'.Invariant formula exempt :=
  invariant.congr (.of_eq atoms clauses trail status learned) (buffer ▸ invariant.coherent.marked)

theorem restart_eq (s : Solver) :
    ∃ counters journal, s.restart = { s.backjump 0 with counters, journal } := by
  obtain ⟨journal, noted⟩ := note_eq { s.backjump 0 with counters :=
    { (s.backjump 0).counters with
      restarts := (s.backjump 0).counters.restarts + 1, freshConflicts := 0 } } .info .restart
    fun _ => "Restart " ++ toString ((s.backjump 0).counters.restarts + 1)
  exact ⟨_, journal, noted⟩

theorem restartIfDue_spec (invariant : s.Invariant formula exempt) :
    s.restartIfDue.2.Invariant formula exempt ∧ s.restartIfDue.2.status = s.status := by
  unfold restartIfDue
  cases s.schedule.conflict with
  | mk due schedule =>
    have told : ({ s with schedule } : Solver).Invariant formula exempt :=
      invariant.of_eq rfl rfl rfl rfl rfl rfl
    cases due with
    | false => exact ⟨told, rfl⟩
    | true =>
      have retreats := backjump_retreats told.coherent.aligned 0
      have restarted := told.backjump 0
      refine ⟨restarted.of_eq ?_ ?_ ?_ ?_ ?_ ?_, ?_⟩
      all_goals simp [restart]
      exact retreats.status

end Retreat

end ClauseLearning.Solver
