import ClauseLearning.Proofs.AtomChanges

namespace ClauseLearning

theorem AtomTable.Change.heuristic {t t' : AtomTable} (change : AtomTable.Change t t') :
    t'.order.heuristic = t.order.heuristic := by
  cases change with
  | fresh =>
    unfold AtomTable.fresh
    simp only
    split
    · exact DecisionOrder.heuristic_add ..
    · rfl
  | assign l level source =>
    unfold AtomTable.assign
    split
    · rfl
    · split <;> rfl
  | unassign a => exact DecisionOrder.heuristic_release ..
  | takeUnvalued => exact DecisionOrder.heuristic_take ..
  | raise a =>
    unfold AtomTable.raise
    split
    · rfl
    · exact DecisionOrder.heuristic_raise ..
  | decay => exact DecisionOrder.heuristic_decay _

theorem AtomTable.heuristic_noteOccurrence (t : AtomTable) (l : Literal) :
    (t.noteOccurrence l).order.heuristic = t.order.heuristic := by
  unfold noteOccurrence
  simp only
  split
  · exact (AtomTable.Change.raise _ l.natAbs).heuristic
  · rfl

namespace Solver

variable {s : Solver}

theorem heuristic_performAll (settings : Settings) (calls : List Call) :
    ((new settings).performAll calls).atoms.order.heuristic = settings.decisionHeuristic :=
  performAll_keeps (fun t => t.order.heuristic = settings.decisionHeuristic)
    (fun _ _ change same => change.heuristic.trans same)
    (fun t l same => (t.heuristic_noteOccurrence l).trans same)
    (DecisionOrder.heuristic_new ..) calls

/-- Every atom has a value, apart from the constant true, which has one for good. -/
def AllValued (s : Solver) : Prop :=
  ∀ a, a ≠ Atom.top → a < s.atoms.size → (s.value a).isSome

structure Decided (s s' : Solver) (l : Literal) : Prop where
  proper : l.natAbs ≠ Atom.top
  known : l.natAbs < s.atoms.size
  unvalued : s.value l.natAbs = none
  level : s'.trail.level = s.trail.level + 1
  alone : s'.trail.above s.trail.level = [l]
  literals : s'.trail.literals = s.trail.literals.push l
  values : ∀ a, s'.value a = if a = l.natAbs then some l.polarity else s.value a

/-- A decision is made unless every atom has a value, and else nothing is decided. By number, and
without a bias to chance, its atom is the least without a value. -/
structure DecidesBy (heuristic : DecisionHeuristic) (s : Solver) : Prop where
  exhausted_iff : s.takeDecision.1 = none ↔ s.AllValued
  exhausted : s.takeDecision.1 = none →
    s.takeDecision.2.trail = s.trail ∧ s.takeDecision.2.value = s.value
  decided : ∀ l, s.takeDecision.1 = some l → s.Decided s.takeDecision.2 l
  lowest : heuristic = .fixedOrder → ¬0.0 < s.settings.randomDecisionBias →
    ∀ l, s.takeDecision.1 = some l → ∀ a, a ≠ Atom.top → a < l.natAbs → (s.value a).isSome

theorem Aligned.allValued_iff (aligned : s.Aligned) :
    s.AllValued ↔ ∀ a, ¬s.atoms.Unvalued a := by
  have value (a : Atom) : (s.value a).isSome ↔ s.atoms.assignment? a ≠ none := by
    rw [Solver.value, AtomTable.value_eq, Option.isSome_map, Option.isSome_iff_ne_none]
  refine ⟨fun valued a unvalued => ?_, fun valued a _ known => ?_⟩
  · refine (value a).1 (valued a ?_ unvalued.1) unvalued.2
    rintro rfl
    exact absurd (aligned.agrees.top.symm.trans unvalued.2) (by simp)
  · exact (value a).2 fun none => valued a ⟨known, none⟩

theorem Opens.decided {l : Literal} {opened : Solver} (opens : s.Opens opened l) :
    s.Decided (opened.assign l .decision).2 l := by
  obtain ⟨atoms, journal, answer, -, -, assigned⟩ := opens.assigned
  rw [answer]
  exact {
    proper := fun top => opens.nonzero (Int.natAbs_eq_zero.1 top)
    known := opens.unvalued.1
    unvalued := by rw [Solver.value, AtomTable.value_eq, opens.unvalued.2]; rfl
    level := Array.size_push _
    alone := by
      simp [Trail.above, Trail.startAbove?, Trail.push, Trail.pushLevel, Trail.level]
    literals := rfl
    values := fun a => by
      simp only [Solver.value, AtomTable.value_eq, assigned]
      split <;> rfl }

theorem Aligned.takeDecision_eq (aligned : s.Aligned)
    (ordered : ¬0.0 < s.settings.randomDecisionBias) {l : Literal}
    (decided : s.takeDecision.1 = some l) : s.atoms.takeUnvalued.1 = some l.natAbs := by
  have chooses := chooseAtom_chooses aligned
  have chosen : s.chooseAtom = s.takeUnvalued := if_neg ordered
  unfold Solver.takeDecision at decided
  split at decided
  · cases decided
  · rename_i a s' answer
    have taken : s.atoms.takeUnvalued.1 = some a := by
      rw [chosen] at answer
      exact congrArg Prod.fst answer
    have known := (chooses.unvalued a (by rw [answer])).1
    have bounded : a ≤ Atom.max := Nat.le_of_lt_succ (known.trans_le aligned.bounded)
    obtain rfl := Option.some.inj decided
    rw [taken, Literal.natAbs_ofAtom bounded]

theorem Aligned.decidesBy (aligned : s.Aligned) : s.DecidesBy s.atoms.order.heuristic where
  exhausted_iff := by
    rw [aligned.allValued_iff]
    rcases takeDecision_cases aligned with ⟨s', answer, valued, -⟩ | ⟨l, opened, answer, opens⟩
    · simpa only [answer, true_iff] using valued
    · simp only [answer, reduceCtorEq, false_iff, not_forall, not_not]
      exact ⟨_, opens.unvalued⟩
  exhausted none := by
    rcases takeDecision_cases aligned with ⟨s', answer, -, same, -⟩ | ⟨l, opened, answer, -⟩
    · rw [answer]
      refine ⟨same.trail, funext fun a => ?_⟩
      simp only [Solver.value, AtomTable.value_eq, same.assignments.assignment?_eq]
    · rw [answer] at none
      cases none
  decided l decided := by
    rcases takeDecision_cases aligned with ⟨s', answer, -⟩ | ⟨l', opened, answer, opens⟩ <;>
      rw [answer] at decided ⊢
    · cases decided
    · obtain rfl := Option.some.inj decided
      exact opens.decided
  lowest fixed ordered l decided a proper below := by
    have taken := aligned.takeDecision_eq ordered decided
    have known := (aligned.offering.takeUnvalued.1 _ taken).1
    by_contra unvalued
    refine absurd (aligned.offering.takeUnvalued_le fixed taken (b := a) ⟨?_, ?_⟩)
      (Nat.not_le.2 below)
    · exact Nat.lt_trans below known
    · simpa [Solver.value, AtomTable.value_eq] using unvalued

theorem performAll_decidesBy (settings : Settings) (calls : List Call) :
    ((new settings).performAll calls).DecidesBy settings.decisionHeuristic := by
  have aligned := (new_coherent settings).aligned.performAll calls
  rw [← heuristic_performAll settings calls]
  exact aligned.decidesBy

end Solver

end ClauseLearning
