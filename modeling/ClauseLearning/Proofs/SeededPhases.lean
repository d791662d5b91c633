import ClauseLearning.Proofs.Decisions
import ClauseLearning.Proofs.Occurrences

/-!
Phases that occurrences seed. The atoms of an added clause get the polarity with more occurrences as
their phase, and only then are the decisions taken back. So the phase of an atom is the majority if
it had no value when the clause came, and else the value that it lost.
-/

namespace ClauseLearning

namespace AtomTable

variable {t : AtomTable}

theorem phase_assign (t : AtomTable) (l : Literal) (level : Nat) (source : Source) (a : Atom) :
    (t.assign l level source).2.phase a = t.phase a := by
  simp only [phase_eq]
  unfold assign
  split
  · rfl
  · rename_i state found
    split
    · simp only [Array.getElem?_setIfInBounds]
      split
      · rename_i same
        rw [← same, found, if_pos (Array.getElem?_eq_some_iff.1 found).1]
        rfl
      · rfl
    · rfl

theorem value_of_assign (t : AtomTable) (l : Literal) (level : Nat) (source : Source) (a : Atom)
    (unvalued : (t.assign l level source).2.value a = none) : t.value a = none := by
  cases answer : t.assign l level source with
  | mk status t' =>
    rw [answer] at unvalued
    by_cases assigned : status = .assigned
    · subst assigned
      obtain ⟨known, bare⟩ := unvalued_of_assigned answer
      obtain ⟨t'', answer', -, -, values⟩ := assign_of_unvalued level source known bare
      obtain rfl : t' = t'' := congrArg Prod.snd (answer.symm.trans answer')
      rw [value_eq, values] at unvalued
      split at unvalued
      · cases unvalued
      · rwa [value_eq]
    · rwa [assign_of_status answer assigned] at unvalued

end AtomTable

theorem Literal.polarity_ofAtom {a : Nat} (positive : 0 < a) (le : a ≤ Atom.max)
    (polarity : Bool) : (Literal.ofAtom a polarity).polarity = polarity := by
  unfold Literal.ofAtom Literal.polarity
  simp only [Literal.bmod_of_le_max le]
  cases polarity <;> simp [positive]

namespace Solver

variable {s : Solver} {c : Clause}

theorem phase_foldl (known : ∀ l ∈ c, l.natAbs < s.atoms.size) {a : Atom}
    (seeded : a ∈ c.map Int.natAbs ∨ s.atoms.phase a = s.atoms.majority a) :
    (c.foldl noteOccurrence s).atoms.phase a = (c.foldl noteOccurrence s).atoms.majority a := by
  induction c generalizing s with
  | nil => exact seeded.resolve_left (by simp)
  | cons l rest ih =>
    have size : (s.noteOccurrence l).atoms.size = s.atoms.size :=
      (s.atoms.noteOccurrence_same l).size_eq
    have later : ∀ m ∈ rest, m.natAbs < (s.noteOccurrence l).atoms.size :=
      fun m member => size ▸ known m (List.mem_cons_of_mem l member)
    rw [List.foldl_cons]
    by_cases inRest : a ∈ rest.map Int.natAbs
    · exact ih later (.inl inRest)
    · refine ih later (.inr (AtomTable.majority_noteOccurrence (known l List.mem_cons_self) a ?_))
      rw [List.map_cons, List.mem_cons] at seeded
      tauto

theorem atoms_assign (s : Solver) (l : Literal) (source : Source) :
    (s.assign l source).2.atoms = (s.atoms.assign l s.trail.level source).2 := by
  unfold assign
  simp only
  split <;> rename_i answer <;> simp [answer]

theorem addReduced_atoms (s : Solver) (c : Clause) (a : Atom) :
    (s.addReduced c).2.atoms.phase a = s.atoms.phase a ∧
      ((s.addReduced c).2.value a = none → s.value a = none) := by
  obtain ⟨journal, learned, inserted⟩ := s.insert_eq c .formula none
  have stored : (s.insert c .formula none).2.atoms = s.atoms := by rw [inserted]
  unfold addReduced Solver.value
  split
  · simp
  · split <;> rename_i answer <;> rw [answer] at stored
    · rw [stored]
      exact ⟨rfl, id⟩
    · rw [atoms_assign, stored, AtomTable.phase_assign]
      exact ⟨rfl, AtomTable.value_of_assign _ _ _ _ _⟩
  · split <;> rename_i answer <;> rw [answer] at stored <;> rw [stored] <;> exact ⟨rfl, id⟩

theorem Aligned.phase_prepare (aligned : s.Aligned) {a : Atom}
    (unvalued : s.prepare.value a = none) :
    s.prepare.atoms.phase a = (s.value a).getD (s.atoms.phase a) := by
  have prepared : s.prepare.atoms = (s.backjump 0).atoms := by
    unfold Solver.prepare clearDecisions
    simp only
    split <;> rfl
  have clears := aligned.clears 0
  have bare : (s.backjump 0).value a = none := by
    rwa [Solver.value, prepared] at unvalued
  rw [prepared]
  cases level : s.atoms.level a with
  | none =>
    obtain ⟨value, -, -, phase⟩ := clears.kept a (by simp [level])
    rw [phase, ← value, bare, Option.getD_none]
  | some n =>
    rcases Nat.eq_zero_or_pos n with rfl | positive
    · obtain ⟨value, -, -, phase⟩ := clears.kept a (by simp [level])
      rw [phase, ← value, bare, Option.getD_none]
    · rw [(clears.cleared a n level positive).2.2.2, Option.getD_some]

theorem Aligned.phase_addClause (aligned : s.Aligned)
    (seeding : s.settings.occurrenceSeeding = true) (added : (s.addClause c).1 = .ok .added)
    {l : Literal} (inside : l ∈ c) (unvalued : (s.addClause c).2.value l.natAbs = none) :
    (s.addClause c).2.atoms.phase l.natAbs =
      (s.value l.natAbs).getD ((s.addClause c).2.atoms.majority l.natAbs) := by
  rcases s.addClause_cases c with ⟨ignored, -⟩ | ⟨-, known, reduced⟩
  · rw [added] at ignored
    cases ignored
  · have seeded : (s.seed c.normalise).atoms.phase l.natAbs =
        (s.seed c.normalise).atoms.majority l.natAbs := by
      rw [seed, if_pos seeding]
      refine phase_foldl (fun m member => (known m member).2) (.inl ?_)
      exact List.mem_map_of_mem ((c.normalise_spec.2 l).2 inside)
    have same := (s.seed_resembles c.normalise).1
    have values : (s.seed c.normalise).value = s.value := by
      funext a
      simp only [Solver.value, AtomTable.value_eq, same.assignments.assignment?_eq]
    have evolves : (s.seed c.normalise).Evolves (s.addClause c).2 := by
      rw [reduced]
      exact (evolves_prepare _).trans (evolves_addReduced ..)
    have counts : (s.addClause c).2.atoms.majority l.natAbs =
        (s.seed c.normalise).atoms.majority l.natAbs := by
      rw [AtomTable.majority, evolves.occurrences, AtomTable.majority]
    rw [counts, ← seeded, ← values]
    rw [reduced] at unvalued ⊢
    obtain ⟨phase, bare⟩ := addReduced_atoms (s.seed c.normalise).prepare
      (c.normalise.filter fun l => (s.seed c.normalise).prepare.atoms.literalValue l != some false)
      l.natAbs
    rw [phase]
    exact (aligned.congr same.spares).phase_prepare (bare unvalued)

theorem atoms_chooseAtom (s : Solver) : s.chooseAtom.2.atoms.atoms = s.atoms.atoms := by
  unfold chooseAtom
  split
  · simp only [chance]
    split <;> rename_i answer <;> obtain ⟨-, rfl⟩ := Prod.mk.inj answer <;> rfl
  · rfl

theorem Aligned.polarity_takeDecision (aligned : s.Aligned)
    (saving : s.settings.phaseSaving = true) {l : Literal} (decided : s.takeDecision.1 = some l) :
    l.polarity = s.atoms.phase l.natAbs := by
  have chooses := chooseAtom_chooses aligned
  have settings := s.sameFrame_chooseAtom.setup.1
  have phases := s.atoms_chooseAtom
  unfold Solver.takeDecision at decided
  split at decided
  · cases decided
  · rename_i a s' answer
    rw [answer] at settings phases
    have unvalued := chooses.unvalued a (by rw [answer])
    have bounded : a ≤ Atom.max := Nat.le_of_lt_succ (unvalued.1.trans_le aligned.bounded)
    have positive : 0 < a := by
      rcases Nat.eq_zero_or_pos a with rfl | positive
      · exact absurd (aligned.agrees.top.symm.trans unvalued.2) (by simp)
      · exact positive
    obtain rfl := Option.some.inj decided
    simp only at settings phases
    rw [Literal.natAbs_ofAtom bounded, Literal.polarity_ofAtom positive bounded, choosePolarity,
      settings, if_pos saving, AtomTable.phase_eq, AtomTable.phase_eq, phases]

/-- After a clause is added, an atom of it without a value is decided by the majority of its
occurrences next, unless the call took its value back: then that value is the one it gets. -/
theorem performAll_phases {settings : Settings} {calls : List Call} {c : Clause}
    (seeding : ((new settings).performAll calls).settings.occurrenceSeeding = true)
    (saving : ((new settings).performAll calls).settings.phaseSaving = true)
    (added : (((new settings).performAll calls).addClause c).1 = .ok .added) :
    ∀ l ∈ c, (((new settings).performAll calls).addClause c).2.value l.natAbs = none →
      (((new settings).performAll calls).addClause c).2.atoms.phase l.natAbs =
          (((new settings).performAll calls).value l.natAbs).getD
            ((((new settings).performAll calls).addClause c).2.atoms.majority l.natAbs) ∧
        ∀ m, (((new settings).performAll calls).addClause c).2.takeDecision.1 = some m →
          m.natAbs = l.natAbs →
            m.polarity = (((new settings).performAll calls).value l.natAbs).getD
              ((((new settings).performAll calls).addClause c).2.atoms.majority l.natAbs) := by
  intro l inside unvalued
  have aligned := (new_coherent settings).aligned.performAll calls
  generalize (new settings).performAll calls = s at *
  have phase := aligned.phase_addClause seeding added inside unvalued
  refine ⟨phase, fun m decided atom => ?_⟩
  have kept := (s.addClause_serves c).setup.1
  rw [← phase, ← atom]
  exact (aligned.addClause c).polarity_takeDecision (kept ▸ saving) decided

def seeding : Settings := { occurrenceSeeding := true }

def pairCalls : List Call := [.ensureAtoms 2, .addClause [1, 2]]

def paired : Solver := (new seeding).performAll pairCalls

theorem paired_eq : paired = (((new seeding).ensureAtoms 2).2.addNormal [1, 2]).2 := by
  simp only [paired, performAll, pairCalls, List.foldl_cons, List.foldl_nil, perform,
    addClause_of_normal _ normalise_pair]

theorem paired_phases :
    paired.settings.occurrenceSeeding = true ∧ paired.settings.phaseSaving = true ∧
      (paired.addClause [-2, 1]).1 = .ok .added ∧ paired.value 1 = none ∧
      (paired.addClause [-2, 1]).2.value 1 = none ∧
      (paired.addClause [-2, 1]).2.atoms.majority 1 = true ∧
      (paired.addClause [-2, 1]).2.atoms.phase 1 = true ∧
      (paired.addClause [-2, 1]).2.takeDecision.1 = some 1 := by
  have added_eq : paired.addClause [-2, 1] = paired.addNormal [-2, 1] :=
    addClause_of_normal _ (Clause.normalise_of_sorted (by decide))
  have seeds : paired.settings.occurrenceSeeding = true := by
    rw [paired_eq]
    decide +kernel
  have saving : paired.settings.phaseSaving = true := by
    rw [paired_eq]
    decide +kernel
  have before : paired.value 1 = none := by
    rw [paired_eq]
    decide +kernel
  have added : (paired.addClause [-2, 1]).1 = .ok .added := by
    rw [added_eq, paired_eq]
    decide +kernel
  have unvalued : (paired.addClause [-2, 1]).2.value 1 = none := by
    rw [added_eq, paired_eq]
    decide +kernel
  have majority : (paired.addClause [-2, 1]).2.atoms.majority 1 = true := by
    rw [added_eq, paired_eq]
    decide +kernel
  have decided : (paired.addClause [-2, 1]).2.takeDecision.1 = some 1 := by
    rw [added_eq, paired_eq]
    decide +kernel
  have phase := (@performAll_phases seeding pairCalls [-2, 1] seeds saving added 1 (by decide)
    unvalued).1
  change (paired.addClause [-2, 1]).2.atoms.phase 1 =
    (paired.value 1).getD ((paired.addClause [-2, 1]).2.atoms.majority 1) at phase
  rw [before, majority] at phase
  exact ⟨seeds, saving, added, before, unvalued, majority, phase, decided⟩

def solvedPair : Solver := (new seeding).performAll (pairCalls ++ [.solve 4])

/-- Both atoms lose their values when the second clause comes, and have them for phases, though
neither occurs more often positively by then. -/
theorem solvedPair_not_majority :
    solvedPair.settings.occurrenceSeeding = true ∧ solvedPair.settings.phaseSaving = true ∧
      (solvedPair.addClause [-2, -1]).1 = .ok .added ∧
      (solvedPair.addClause [-2, -1]).2.atoms.occurrences 1 = (1, 1) ∧
      (solvedPair.addClause [-2, -1]).2.takeDecision.1 = some 1 ∧
      ¬∀ l ∈ [(-2 : Literal), -1],
        (solvedPair.addClause [-2, -1]).2.value l.natAbs = none →
          (solvedPair.addClause [-2, -1]).2.atoms.phase l.natAbs =
            (solvedPair.addClause [-2, -1]).2.atoms.majority l.natAbs := by
  have solved : solvedPair = (paired.solve 4).2 := List.foldl_append ..
  have added_eq : solvedPair.addClause [-2, -1] = solvedPair.addNormal [-2, -1] :=
    addClause_of_normal _ (Clause.normalise_of_sorted (by decide))
  rw [added_eq, solved, paired_eq]
  exact ⟨by decide +kernel, by decide +kernel, by decide +kernel, by decide +kernel,
    by decide +kernel, by decide +kernel⟩

end Solver

end ClauseLearning
