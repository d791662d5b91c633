import ClauseLearning.Proofs.Timeliness

/-!
The model of a formula that was found satisfiable. Status and values are written by different
operations, and a search that finds the formula settled looks at the status only. So the model stays
at hand as long as none of its decisions is taken back.
-/

namespace ClauseLearning.Solver

variable {s s' : Solver} {formula : List Clause}

/-- Calls are timely, and while the formula is said to be satisfiable no level is taken back. -/
def Retaining (s : Solver) : Call → Prop
  | .backjump n => s.status = .satisfiable → s.level ≤ n
  | .clearDecisions => s.status = .satisfiable → s.level = 0
  | .restart => s.status = .satisfiable → s.level = 0
  | call => s.Timely call

theorem Retaining.timely {call : Call} (retaining : s.Retaining call) : s.Timely call := by
  cases call <;> first | exact retaining | trivial

theorem backjump_of_le {n : Nat} (le : s.level ≤ n) : s.backjump n = s := if_pos le

theorem propagate_of_quiet (last : s.trail.next? = none) : s.propagate = (.ok .complete, s) := by
  rw [propagate_eq, last]

namespace Settled

theorem resembles_perform (settled : s.Settled formula) (satisfiable : s.status = .satisfiable)
    {call : Call} (retaining : s.Retaining call) (leaves : ¬call.WritesStatus) :
    s.Resembles (s.perform call) := by
  obtain ⟨valued, quiet⟩ := settled.complete satisfiable
  have last : s.trail.next? = none := Array.getElem?_eq_none quiet.ge
  -- Every atom has a value and all consequences are drawn, so no call finds work to do.
  cases call with
  | takeDecision =>
    rcases takeDecision_cases settled.invariant.coherent.aligned with
      ⟨s', answer, -, same, -⟩ | ⟨l, opened, -, opens⟩
    · rw [perform, answer]
      exact same
    · exact absurd opens.unvalued (valued _)
  | propagate =>
    rw [perform, propagate_of_quiet last]
    exact .refl s
  | propagateLiteral l => cases last.symm.trans retaining
  | applyConsequences =>
    simp only [perform, followConsequences, applyConsequences, propagate_of_quiet last]
    exact .refl s
  | backjump n =>
    rw [perform, backjump_of_le (retaining satisfiable)]
    exact .refl s
  | clearDecisions =>
    rw [perform, clearDecisions, backjump_of_le (retaining satisfiable).le]
    exact .refl s
  | restart =>
    obtain ⟨counters, journal, restarted⟩ := s.restart_eq
    rw [perform, restarted, backjump_of_le (retaining satisfiable).le]
    exact .of_eq rfl rfl rfl rfl rfl
  | raiseAtom a => exact (s.raiseAtoms_resembles [a]).1
  | decayAtoms => exact s.atoms_resembles _ s.atoms.decay_same AtomTable.Offering.decay
  | configure settings => exact .of_eq rfl rfl rfl rfl rfl
  | outside => exact .of_eq rfl rfl rfl rfl rfl
  | analyse key => exact retaining.elim
  | pushLevel => exact retaining.elim
  | assign l source => exact retaining.elim
  | _ => exact absurd trivial leaves

theorem perform (settled : s.Settled formula) {call : Call} (retaining : s.Retaining call) :
    (s.perform call).Settled (formula ++ s.acceptedBy call) := by
  by_cases writes : call.WritesStatus
  · cases call with
    | freshAtom => exact (s.freshAtom_grows.builds _ settled).1
    | ensureAtoms a => exact ((s.ensureAtoms_grows a).builds _ settled).1
    | addClause c => exact ((s.addClause_grows c).builds _ settled).1
    | readDimacs file => exact ((s.readDimacs_grows file).builds _ settled).1
    | solve passes => exact (List.append_nil formula).symm ▸ settled.solve passes
    | _ => exact writes.elim
  · obtain ⟨invariant, status⟩ := settled.invariant.upholds retaining.timely writes
    rw [acceptedBy_eq_nil writes, List.append_nil]
    refine ⟨invariant, fun satisfiable => ?_⟩
    have same := settled.resembles_perform (status.symm.trans satisfiable) retaining writes
    exact (settled.congr same invariant.coherent.marked).complete satisfiable

theorem of_retaining {settings : Settings} {calls : List Call}
    (retaining : Allows Retaining (new settings) calls) :
    ((new settings).performAll calls).Settled ((new settings).acceptedByAll calls) :=
  retaining.keeps (fun _ _ _ allowed settled => settled.perform allowed) (new_settled settings)

end Settled

/-- Every atom has a value, every clause that is stored is true, and the model that is shown has a
literal of every clause of the formula. -/
structure ModelAtHand (formula : List Clause) (s : Solver) : Prop where
  valued : ∀ a < s.atoms.size, (s.value a).isSome
  satisfied : s.satisfiesFormula = true
  shown : s.model?.isSome
  hasModel : s.HasModel formula

theorem Settled.modelAtHand (settled : s.Settled formula) (satisfiable : s.status = .satisfiable) :
    s.ModelAtHand formula := by
  obtain ⟨valued, quiet⟩ := settled.complete satisfiable
  have agrees := settled.invariant.coherent.agrees
  have hasModel := settled.hasModel satisfiable
  refine ⟨fun a known => ?_, ?_, ?_, hasModel⟩
  · rw [Solver.value, AtomTable.value_eq, Option.isSome_map, Option.isSome_iff_ne_none]
    exact fun none => valued a ⟨known, none⟩
  · refine List.all_eq_true.2 fun d stored => ?_
    obtain ⟨l, inside, isTrue⟩ := settled.invariant.true_of_quiet quiet valued d stored
    exact List.any_eq_true.2 ⟨l, inside, beq_iff_eq.2 (agrees.literalValue_of_mem isTrue)⟩
  · obtain ⟨m, shown, -⟩ := hasModel
    rw [shown]
    rfl

/-- Whenever the formula is said to be satisfiable a model of it is at hand, if its decisions were
not taken back. -/
theorem performAll_modelAtHand {settings : Settings} {calls : List Call}
    (retaining : Allows Retaining (new settings) calls)
    (satisfiable : ((new settings).performAll calls).status = .satisfiable) :
    ((new settings).performAll calls).ModelAtHand ((new settings).acceptedByAll calls) :=
  (Settled.of_retaining retaining).modelAtHand satisfiable

def solvedCalls : List Call := [.ensureAtoms 2, .addClause [1, 2], .solve 2]

theorem performAll_solved (calls : List Call) :
    (new {}).performAll (solvedCalls ++ calls) =
      ((((new {}).ensureAtoms 2).2.addNormal [1, 2]).2.solve 2).2.performAll calls := by
  simp only [performAll, solvedCalls, List.cons_append, List.nil_append, List.foldl_cons, perform,
    addClause_of_normal _ normalise_pair]

theorem solvedCalls_modelAtHand :
    Allows Retaining (new {}) (solvedCalls ++ [.backjump 1]) ∧
      ((new {}).performAll (solvedCalls ++ [.backjump 1])).status = .satisfiable ∧
      ((new {}).performAll (solvedCalls ++ [.backjump 1])).model? = some [-1, 2] ∧
      ((new {}).performAll (solvedCalls ++ [.backjump 1])).ModelAtHand
        ((new {}).acceptedByAll (solvedCalls ++ [.backjump 1])) := by
  have retaining : Allows Retaining (new {}) (solvedCalls ++ [.backjump 1]) := by
    refine ⟨trivial, trivial, trivial, fun _ => ?_, trivial⟩
    change ((new {}).performAll (solvedCalls ++ [])).level ≤ 1
    rw [performAll_solved]
    decide +kernel
  have satisfiable :
      ((new {}).performAll (solvedCalls ++ [.backjump 1])).status = .satisfiable := by
    rw [performAll_solved]
    decide +kernel
  refine ⟨retaining, satisfiable, ?_, performAll_modelAtHand retaining satisfiable⟩
  rw [performAll_solved]
  decide +kernel

/-- A restart takes the decisions back but not the status, and the next search answers at once. -/
theorem restart_not_modelAtHand :
    ((new {}).performAll (solvedCalls ++ [.restart])).status = .satisfiable ∧
      ((new {}).performAll (solvedCalls ++ [.restart])).value 1 = none ∧
      ((new {}).performAll (solvedCalls ++ [.restart])).satisfiesFormula = false ∧
      ((new {}).performAll (solvedCalls ++ [.restart])).model? = none ∧
      (((new {}).performAll (solvedCalls ++ [.restart])).solve 1).1 = .ok (some .satisfiable) ∧
      (((new {}).performAll (solvedCalls ++ [.restart])).solve 1).2.model? = none := by
  rw [performAll_solved]
  exact ⟨by decide +kernel, by decide +kernel, by decide +kernel, by decide +kernel,
    by decide +kernel, by decide +kernel⟩

end ClauseLearning.Solver
