import ClauseLearning.AtomTable
import ClauseLearning.Proofs.DecisionOrder

namespace ClauseLearning.AtomTable

theorem assignment?_eq (t : AtomTable) (a : Atom) :
    t.assignment? a = (t.atoms[a]?).bind (·.assignment) := by
  unfold assignment?
  cases t.atoms[a]? <;> rfl

theorem value_eq (t : AtomTable) (a : Atom) : t.value a = (t.assignment? a).map (·.value) := by
  unfold value
  cases t.assignment? a <;> rfl

theorem level_eq (t : AtomTable) (a : Atom) : t.level a = (t.assignment? a).map (·.level) := by
  unfold level
  cases t.assignment? a <;> rfl

theorem source_eq (t : AtomTable) (a : Atom) : t.source a = (t.assignment? a).bind (·.source) := by
  unfold source
  cases t.assignment? a <;> rfl

theorem literalValue_eq (t : AtomTable) (l : Literal) :
    t.literalValue l = (t.assignment? l.natAbs).map fun assignment =>
      assignment.value == l.polarity := by
  unfold literalValue Literal.value
  rw [value_eq]
  cases t.assignment? l.natAbs <;> rfl

theorem lt_size_of_assignment? {t : AtomTable} {a : Atom} {assignment : Assignment}
    (assigned : t.assignment? a = some assignment) : a < t.size := by
  rw [assignment?_eq, Option.bind_eq_some_iff] at assigned
  obtain ⟨state, found, -⟩ := assigned
  exact (Array.getElem?_eq_some_iff.1 found).1

theorem isOpen_iff (t : AtomTable) (a : Atom) :
    isOpen t.atoms a = true ↔ a < t.size ∧ t.assignment? a = none := by
  rw [assignment?_eq]
  unfold isOpen size
  cases found : t.atoms[a]? with
  | none => simpa using Array.getElem?_eq_none_iff.1 found
  | some state => simp [(Array.getElem?_eq_some_iff.1 found).1]

structure SameAssignments (t t' : AtomTable) : Prop where
  size_eq : t'.size = t.size
  assignment?_eq : ∀ a, t'.assignment? a = t.assignment? a

namespace SameAssignments

variable {t t' t'' : AtomTable}

theorem refl (t : AtomTable) : SameAssignments t t := ⟨rfl, fun _ => rfl⟩

theorem trans (first : SameAssignments t t') (second : SameAssignments t' t'') :
    SameAssignments t t'' :=
  ⟨second.size_eq.trans first.size_eq,
    fun a => (second.assignment?_eq a).trans (first.assignment?_eq a)⟩

theorem level (same : SameAssignments t t') : t'.level = t.level := by
  funext a
  rw [level_eq, level_eq, same.assignment?_eq]

theorem source (same : SameAssignments t t') : t'.source = t.source := by
  funext a
  rw [source_eq, source_eq, same.assignment?_eq]

end SameAssignments

theorem raise_same (t : AtomTable) (a : Atom) : SameAssignments t (t.raise a) := by
  unfold raise
  split
  · exact .refl t
  · exact ⟨rfl, fun _ => rfl⟩

theorem decay_same (t : AtomTable) : SameAssignments t t.decay := ⟨rfl, fun _ => rfl⟩

theorem takeUnvalued_same (t : AtomTable) : SameAssignments t t.takeUnvalued.2 :=
  ⟨rfl, fun _ => rfl⟩

theorem noteOccurrence_same (t : AtomTable) (l : Literal) :
    SameAssignments t (t.noteOccurrence l) := by
  by_cases known : l.natAbs < t.size
  · simp only [noteOccurrence, if_pos known]
    refine .trans ⟨by simp [size], fun a => ?_⟩ (raise_same _ _)
    simp only [assignment?_eq, Array.getElem?_modify]
    by_cases noted : l.natAbs = a
    · rw [if_pos noted]
      cases t.atoms[a]? <;> rfl
    · rw [if_neg noted]
  · simp only [noteOccurrence, if_neg known]
    exact .refl t

theorem assign_of_unvalued {t : AtomTable} {l : Literal} (level : Nat) (source : Source)
    (known : l.natAbs < t.size) (unvalued : t.assignment? l.natAbs = none) :
    ∃ t', t.assign l level source = (.assigned, t') ∧ t'.order = t.order ∧ t'.size = t.size ∧
      ∀ a, t'.assignment? a =
        if a = l.natAbs then some ⟨l.polarity, level, some source⟩ else t.assignment? a := by
  obtain ⟨state, found⟩ : ∃ state, t.atoms[l.natAbs]? = some state := 
    ⟨_, Array.getElem?_eq_getElem known⟩
  have bare : state.assignment = none := by simpa [assignment?_eq, found] using unvalued
  let valued := { state with assignment := some ⟨l.polarity, level, some source⟩ }
  refine ⟨{ t with atoms := t.atoms.setIfInBounds l.natAbs valued }, ?_, rfl, ?_, fun a => ?_⟩
  · simp only [assign, found, bare, valued]
  · simp [size]
  · simp only [assignment?_eq, Array.getElem?_setIfInBounds]
    by_cases same : l.natAbs = a
    · subst same
      rw [if_pos rfl, if_pos rfl, if_pos (show l.natAbs < t.atoms.size from known)]
      rfl
    · rw [if_neg same, if_neg (Ne.symm same)]

theorem assign_of_valued {t : AtomTable} {l : Literal} {assignment : Assignment} (level : Nat)
    (source : Source) (valued : t.assignment? l.natAbs = some assignment) :
    t.assign l level source =
      (if assignment.value = l.polarity then .same else .different, t) := by
  rw [assignment?_eq, Option.bind_eq_some_iff] at valued
  obtain ⟨state, found, valued⟩ := valued
  simp only [assign, found, valued]

theorem size_assign (t : AtomTable) (l : Literal) (level : Nat) (source : Source) :
    (t.assign l level source).2.size = t.size := by
  unfold assign
  split
  · rfl
  · split
    · simp [size]
    · rfl

@[simp] theorem size_unassign (t : AtomTable) (a : Atom) : (t.unassign a).size = t.size := by
  simp [unassign, size]

theorem assignment?_unassign (t : AtomTable) (a b : Atom) :
    (t.unassign a).assignment? b = if b = a then none else t.assignment? b := by
  simp only [unassign, assignment?_eq, Array.getElem?_modify]
  by_cases same : a = b
  · rw [if_pos same, if_pos same.symm]
    cases t.atoms[b]? <;> rfl
  · rw [if_neg same, if_neg (Ne.symm same)]

theorem phase_unassign (t : AtomTable) (a b : Atom) :
    (t.unassign a).phase b = if b = a then (t.value b).getD (t.phase b) else t.phase b := by
  simp only [unassign, phase, value_eq, assignment?_eq, Array.getElem?_modify]
  by_cases same : a = b
  · rw [if_pos same, if_pos same.symm]
    cases t.atoms[b]? <;> rfl
  · rw [if_neg same, if_neg (Ne.symm same)]

theorem fresh_of_le {t : AtomTable} (room : t.size ≤ Atom.max) :
    ∃ t', t.fresh = (.ok t.size, t') ∧ t'.size = t.size + 1 ∧
      t'.order = t.order.add t.size ∧ ∀ a, t'.assignment? a = t.assignment? a := by
  refine ⟨⟨t.atoms.push {}, t.order.add t.size⟩, ?_, by simp [size], rfl, fun a => ?_⟩
  · simp only [fresh, if_pos room]
  simp only [assignment?_eq, Array.getElem?_push]
  by_cases last : a = t.atoms.size
  · rw [if_pos last, Array.getElem?_eq_none (Nat.le_of_eq last.symm)]
    rfl
  · rw [if_neg last]

theorem fresh_of_lt {t : AtomTable} (full : Atom.max < t.size) :
    t.fresh = (.error .atomsExhausted, t) := by
  simp only [fresh, if_neg (Nat.not_le.2 full)]

def Unvalued (t : AtomTable) (a : Atom) : Prop := a < t.size ∧ t.assignment? a = none

theorem unvalued_of_assigned {t t' : AtomTable} {l : Literal} {level : Nat} {source : Source}
    (answer : t.assign l level source = (.assigned, t')) : t.Unvalued l.natAbs := by
  unfold assign at answer
  split at answer
  · cases answer
  · rename_i state found
    split at answer
    · rename_i bare
      exact ⟨(Array.getElem?_eq_some_iff.1 found).1, by simp [assignment?_eq, found, bare]⟩
    · split at answer <;> cases answer

def Offering (t : AtomTable) : Prop := t.order.Offers t.Unvalued t.size

namespace Offering

variable {t t' : AtomTable}

theorem shrink (offering : t.Offering) (order : t'.order = t.order) (size : t'.size = t.size)
    (valued : ∀ a, t'.assignment? a = none → t.assignment? a = none) : t'.Offering := by
  unfold Offering at offering ⊢
  rw [order, size]
  refine offering.mono fun a unvalued => ?_
  exact ⟨size ▸ unvalued.1, valued a unvalued.2⟩

theorem of_same (same : SameAssignments t t')
    (order : t'.order.Offers t.Unvalued t.size) : t'.Offering := by
  unfold Offering
  rw [same.size_eq]
  refine order.mono fun a unvalued => ?_
  exact ⟨same.size_eq ▸ unvalued.1, same.assignment?_eq a ▸ unvalued.2⟩

theorem raise (offering : t.Offering) (a : Atom) : (t.raise a).Offering := by
  refine of_same (raise_same t a) ?_
  unfold AtomTable.raise
  split
  · exact offering
  · exact DecisionOrder.Offers.raise offering a

theorem decay (offering : t.Offering) : t.decay.Offering :=
  of_same (decay_same t) (DecisionOrder.Offers.decay offering)

theorem noteOccurrence (offering : t.Offering) (l : Literal) : (t.noteOccurrence l).Offering := by
  refine of_same (noteOccurrence_same t l) ?_
  unfold AtomTable.noteOccurrence AtomTable.raise
  simp only
  split
  · split
    · exact offering
    · exact DecisionOrder.Offers.raise offering _
  · exact offering

theorem unassign (offering : t.Offering) {a : Nat} (positive : 0 < a) (known : a < t.size) :
    (t.unassign a).Offering := by
  unfold Offering
  rw [size_unassign]
  refine (DecisionOrder.Offers.release offering positive known).mono fun b unvalued => ?_
  obtain ⟨inside, unassigned⟩ := unvalued
  rw [assignment?_unassign] at unassigned
  by_cases same : b = a
  · exact .inl same
  · rw [if_neg same] at unassigned
    exact .inr ⟨by simpa using inside, unassigned⟩

theorem fresh (offering : t.Offering) {t' : AtomTable} (size : t'.size = t.size + 1)
    (order : t'.order = t.order.add t.size) (kept : ∀ a, t'.assignment? a = t.assignment? a) :
    t'.Offering := by
  unfold Offering
  rw [size, order]
  refine (DecisionOrder.Offers.add offering).mono fun b unvalued => ?_
  obtain ⟨inside, unassigned⟩ := unvalued
  rw [size] at inside
  rw [kept] at unassigned
  rcases Nat.eq_or_lt_of_le (Nat.le_of_lt_succ inside) with last | below
  · exact .inl last
  · exact .inr ⟨below, unassigned⟩

theorem isOpen (offering : t.Offering) :
    t.order.Offers (AtomTable.isOpen t.atoms · = true) t.atoms.size :=
  DecisionOrder.Offers.mono offering fun a open_a => (t.isOpen_iff a).1 open_a

theorem takeUnvalued (offering : t.Offering) :
    (∀ a, t.takeUnvalued.1 = some a → t.Unvalued a) ∧
      (t.takeUnvalued.1 = none → ∀ a, ¬t.Unvalued a) ∧
      t.takeUnvalued.2.order.Offers
        (fun b => t.Unvalued b ∧ t.takeUnvalued.1 ≠ some b) t.size := by
  obtain ⟨taken, exhausted, left⟩ :=
    DecisionOrder.take_spec offering.isOpen fun a open_a => ((t.isOpen_iff a).1 open_a).1
  refine ⟨fun a answer => (t.isOpen_iff a).1 (taken a answer), fun none a unvalued => ?_,
    left.mono fun b unvalued => ⟨(t.isOpen_iff b).2 unvalued.1, unvalued.2⟩⟩
  exact absurd ((t.isOpen_iff a).2 unvalued) (by simp [exhausted none a])

theorem takeUnvalued_le (offering : t.Offering) (fixed : t.order.heuristic = .fixedOrder)
    {a b : Atom} (taken : t.takeUnvalued.1 = some a) (unvalued : t.Unvalued b) : a ≤ b :=
  DecisionOrder.take_le offering.isOpen (fun a open_a => ((t.isOpen_iff a).1 open_a).1) fixed taken
    ((t.isOpen_iff b).2 unvalued)

end Offering

end ClauseLearning.AtomTable
