import ClauseLearning.Proofs.Guards
import ClauseLearning.Proofs.Semantics
import ClauseLearning.Solver.Learning

/-!
The invariant of a solver. Its table of atoms, its trail, its store and its watch lists agree with
each other, what is stored and what is true at level zero follows from the formula, and every
clause of the formula has a part in the store.
-/

namespace ClauseLearning

def ResolutionBuffer.Marked (b : ResolutionBuffer) : Prop :=
  ∀ a, b.isMerged a = true → a ∈ b.used

namespace Solver

/-- The parts of a solver agree with each other, but for the watches. -/
structure Coherent (s : Solver) : Prop where
  agrees : s.atoms.Agrees s.trail
  trail : s.trail.WellFormed
  justified : s.atoms.Justified s.trail s.clauses.store
  orderly : s.clauses.store.Orderly (Literal.Below s.atoms.size)
  offering : s.atoms.Offering
  marked : s.buffer.Marked
  bounded : s.atoms.size ≤ Atom.max + 1

/-- The trail and the table of atoms agree with each other, in whatever order levels were opened and
consequences were drawn, and every atom without a value is offered. -/
structure Aligned (s : Solver) : Prop where
  agrees : s.atoms.Agrees s.trail
  trail : s.trail.Sorted
  offering : s.atoms.Offering
  bounded : s.atoms.size ≤ Atom.max + 1

theorem Coherent.aligned {s : Solver} (coherent : s.Coherent) : s.Aligned :=
  ⟨coherent.agrees, coherent.trail.sorted, coherent.offering, coherent.bounded⟩

theorem Aligned.literals_le {s : Solver} (aligned : s.Aligned) :
    s.trail.literals.size ≤ s.atomCount := by
  have distinct : (s.trail.literals.toList.map Int.natAbs).Nodup := by
    refine List.pairwise_map.2 (List.pairwise_iff_getElem.2 fun i j first second lt same => ?_)
    have equal := aligned.agrees.distinct i j _ _ (by simp) (by simp) same
    exact lt.ne equal
  have inside : s.trail.literals.toList.map Int.natAbs ⊆ List.range' 1 s.atomCount := by
    intro a member
    obtain ⟨l, listed, rfl⟩ := List.mem_map.1 member
    have onTrail := Array.mem_toList_iff.1 listed
    have positive := Literal.natAbs_pos.2 (aligned.agrees.nonzero onTrail)
    have known := aligned.agrees.known onTrail
    rw [List.mem_range'_1]
    unfold atomCount
    omega
  simpa using (List.subperm_of_subset distinct inside).length_le

theorem Coherent.literals_le {s : Solver} (coherent : s.Coherent) :
    s.trail.literals.size ≤ s.atomCount :=
  coherent.aligned.literals_le

/-- All that a solver takes for true follows from the formula. -/
structure Entailed (formula : List Clause) (s : Solver) : Prop where
  long : ∀ key c, s.clauses.store.get key = .ok c → Entails formula c.clause
  originalUnits : ∀ l ∈ s.clauses.store.originalUnits, Entails formula [l]
  additionUnits : ∀ l ∈ s.clauses.store.additionUnits, Entails formula [l]
  zero : ∀ (i : Nat) l, s.trail.literals[i]? = some l → s.trail.levelAt i = 0 → Entails formula [l]
  learned : ∀ collected, s.learned = some collected → ∀ c ∈ collected, Entails formula c
  refuted : s.status = .unsatisfiable → Entails formula []

/-- Every clause of the formula has a part among the original clauses, unless there is no model. -/
def Covers (formula : List Clause) (s : Solver) : Prop :=
  s.status = .unsatisfiable ∨
    ∀ c ∈ formula, ∃ d ∈ s.clauses.store.originalClauses, d ⊆ c

structure Grounded (exempt : ClauseKey → Prop) (s : Solver) : Prop where
  originalUnits : ∀ l ∈ s.clauses.store.originalUnits, ¬exempt (.originalUnit l) →
    ∃ i : Nat, s.trail.literals[i]? = some l ∧ s.trail.levelAt i = 0
  additionUnits : ∀ l ∈ s.clauses.store.additionUnits, ¬exempt (.additionUnit l) →
    ∃ i : Nat, s.trail.literals[i]? = some l ∧ s.trail.levelAt i = 0

structure Invariant (formula : List Clause) (exempt : ClauseKey → Prop) (s : Solver) : Prop where
  coherent : s.Coherent
  mirrors : s.clauses.Mirrors
  guarded : s.clauses.store.Guarded s.trail exempt
  grounded : s.Grounded exempt
  entailed : s.Entailed formula
  covered : s.Covers formula

structure Resembles (s s' : Solver) : Prop where
  assignments : AtomTable.SameAssignments s.atoms s'.atoms
  offering : s.atoms.Offering → s'.atoms.Offering
  clauses : s.clauses.store.SameClauses s'.clauses.store
  orderly : ∀ proper, s.clauses.store.Orderly proper → s'.clauses.store.Orderly proper
  watches : s'.clauses.watches = s.clauses.watches
  trail : s'.trail = s.trail
  status : s'.status = s.status
  learned : s'.learned = s.learned

namespace Resembles

variable {s s' s'' : Solver}

theorem of_eq (atoms : s'.atoms = s.atoms) (clauses : s'.clauses = s.clauses)
    (trail : s'.trail = s.trail) (status : s'.status = s.status)
    (learned : s'.learned = s.learned) : s.Resembles s' where
  assignments := atoms ▸ .refl _
  offering := atoms ▸ id
  clauses := clauses ▸ .refl _
  orderly := clauses ▸ fun _ orderly => orderly
  watches := by rw [clauses]
  trail := trail
  status := status
  learned := learned

theorem refl (s : Solver) : s.Resembles s := .of_eq rfl rfl rfl rfl rfl

theorem trans (first : s.Resembles s') (second : s'.Resembles s'') : s.Resembles s'' where
  assignments := first.assignments.trans second.assignments
  offering := second.offering ∘ first.offering
  clauses := first.clauses.trans second.clauses
  orderly proper := second.orderly proper ∘ first.orderly proper
  watches := second.watches.trans first.watches
  trail := second.trail.trans first.trail
  status := second.status.trans first.status
  learned := second.learned.trans first.learned

end Resembles

structure Spares (s s' : Solver) : Prop where
  assignments : AtomTable.SameAssignments s.atoms s'.atoms
  offering : s.atoms.Offering → s'.atoms.Offering
  trail : s'.trail = s.trail

namespace Spares

variable {s s' : Solver}

theorem of_eq (atoms : s'.atoms = s.atoms) (trail : s'.trail = s.trail) : s.Spares s' where
  assignments := atoms ▸ .refl _
  offering := atoms ▸ id
  trail := trail

theorem refl (s : Solver) : s.Spares s := .of_eq rfl rfl

theorem answered {α : Type} {call : α × Solver} {result : α} (spared : s.Spares call.2)
    (answer : call = (result, s')) : s.Spares s' := by
  rwa [answer] at spared

end Spares

theorem Resembles.spares {s s' : Solver} (same : s.Resembles s') : s.Spares s' :=
  ⟨same.assignments, same.offering, same.trail⟩

theorem Aligned.congr {s s' : Solver} (aligned : s.Aligned) (spares : s.Spares s') :
    s'.Aligned where
  agrees := spares.trail ▸ aligned.agrees.congr spares.assignments.assignment?_eq
  trail := spares.trail ▸ aligned.trail
  offering := spares.offering aligned.offering
  bounded := spares.assignments.size_eq ▸ aligned.bounded

theorem note_eq (s : Solver) (level : Level) (topic : Topic) (message : Unit → String) :
    ∃ journal, s.note level topic message = { s with journal } := by
  unfold note
  split
  · exact ⟨_, rfl⟩
  · exact ⟨s.journal, rfl⟩

theorem noteFailure_eq (s : Solver) (failure : Failure) :
    ∃ journal, s.noteFailure failure = { s with journal } := by
  unfold noteFailure
  split
  · exact ⟨s.journal, rfl⟩
  · exact s.note_eq ..

theorem note_resembles (s : Solver) (level : Level) (topic : Topic) (message : Unit → String) :
    s.Resembles (s.note level topic message) := by
  obtain ⟨journal, noted⟩ := s.note_eq level topic message
  rw [noted]
  exact .of_eq rfl rfl rfl rfl rfl

theorem noteFailure_resembles (s : Solver) (failure : Failure) :
    s.Resembles (s.noteFailure failure) := by
  obtain ⟨journal, noted⟩ := s.noteFailure_eq failure
  rw [noted]
  exact .of_eq rfl rfl rfl rfl rfl

section Notes

variable (s : Solver) (level : Level) (topic : Topic) (message : Unit → String)

@[simp] theorem atoms_note : (s.note level topic message).atoms = s.atoms := by
  unfold note
  split <;> rfl

@[simp] theorem clauses_note : (s.note level topic message).clauses = s.clauses := by
  unfold note
  split <;> rfl

@[simp] theorem trail_note : (s.note level topic message).trail = s.trail := by
  unfold note
  split <;> rfl

@[simp] theorem buffer_note : (s.note level topic message).buffer = s.buffer := by
  unfold note
  split <;> rfl

@[simp] theorem status_note : (s.note level topic message).status = s.status := by
  unfold note
  split <;> rfl

@[simp] theorem learned_note : (s.note level topic message).learned = s.learned := by
  unfold note
  split <;> rfl

end Notes

theorem raise_same (store : ClauseStore) (key : ClauseKey) :
    store.SameClauses (store.raise key) ∧ (store.raise key).vacated = store.vacated ∧
      store.ranks.Reordered (store.raise key).ranks := by
  cases key with
  | addition i token =>
    unfold ClauseStore.raise
    simp only
    split
    · exact ⟨⟨rfl, rfl, rfl, rfl⟩, rfl, ((IndexedHeap.mapValues_reordered _ _).trans
        (IndexedHeap.heapify_reordered _)).trans
        ((IndexedHeap.modifyValue_reordered _ _ _).trans (IndexedHeap.settle_reordered _ _))⟩
    · exact ⟨⟨rfl, rfl, rfl, rfl⟩, rfl,
        (IndexedHeap.modifyValue_reordered _ _ _).trans (IndexedHeap.settle_reordered _ _)⟩
  | _ => exact ⟨.refl _, rfl, .refl _⟩

theorem decay_same (store : ClauseStore) : store.SameClauses store.decay ∧
    store.decay.vacated = store.vacated ∧ store.ranks.Reordered store.decay.ranks := by
  unfold ClauseStore.decay
  simp only
  split
  · exact ⟨⟨rfl, rfl, rfl, rfl⟩, rfl,
      (IndexedHeap.mapValues_reordered _ _).trans (IndexedHeap.heapify_reordered _)⟩
  · exact ⟨⟨rfl, rfl, rfl, rfl⟩, rfl, .refl _⟩

theorem modifyStore_resembles (s : Solver) (f : ClauseStore → ClauseStore)
    (same : s.clauses.store.SameClauses (f s.clauses.store))
    (vacated : (f s.clauses.store).vacated = s.clauses.store.vacated)
    (ranks : s.clauses.store.ranks.Reordered (f s.clauses.store).ranks) :
    s.Resembles (s.modifyStore f) where
  assignments := .refl _
  offering := id
  clauses := same
  orderly _ orderly := orderly.congr same vacated ranks
  watches := rfl
  trail := rfl
  status := rfl
  learned := rfl

theorem noteIf_resembles (s : Solver) (rescales : Bool) :
    s.Resembles (if rescales then s.noteRescale else s) := by
  cases rescales with
  | false => exact .refl s
  | true => exact s.note_resembles ..

theorem raiseClause_resembles (s : Solver) (key : ClauseKey) : s.Resembles (s.raiseClause key) := by
  obtain ⟨same, vacated, ranks⟩ := raise_same
    (if s.clauses.store.raiseRescales key then s.noteRescale else s).clauses.store key
  exact (s.noteIf_resembles _).trans (modifyStore_resembles _ (·.raise key) same vacated ranks)

theorem decayClauses_resembles (s : Solver) : s.Resembles s.decayClauses := by
  obtain ⟨same, vacated, ranks⟩ := decay_same
    (if s.clauses.store.decayRescales then s.noteRescale else s).clauses.store
  exact (s.noteIf_resembles _).trans (modifyStore_resembles _ (·.decay) same vacated ranks)

@[simp] theorem buffer_raiseClause (s : Solver) (key : ClauseKey) :
    (s.raiseClause key).buffer = s.buffer := by
  unfold raiseClause modifyStore noteRescale
  simp only
  split
  · exact s.buffer_note ..
  · rfl

@[simp] theorem buffer_decayClauses (s : Solver) : s.decayClauses.buffer = s.buffer := by
  unfold decayClauses modifyStore noteRescale
  simp only
  split
  · exact s.buffer_note ..
  · rfl

theorem atoms_resembles (s : Solver) (atoms : AtomTable)
    (same : AtomTable.SameAssignments s.atoms atoms)
    (offering : s.atoms.Offering → atoms.Offering) : s.Resembles { s with atoms } where
  assignments := same
  offering := offering
  clauses := .refl _
  orderly _ orderly := orderly
  watches := rfl
  trail := rfl
  status := rfl
  learned := rfl

theorem raiseAtoms_resembles (s : Solver) (atoms : List Atom) :
    s.Resembles (atoms.foldl raiseAtom s) ∧ (atoms.foldl raiseAtom s).buffer = s.buffer := by
  induction atoms generalizing s with
  | nil => exact ⟨.refl s, rfl⟩
  | cons a rest ih =>
    have raised : s.Resembles (s.raiseAtom a) :=
      s.atoms_resembles _ (s.atoms.raise_same a) fun offering => offering.raise a
    exact ⟨raised.trans (ih _).1, (ih _).2⟩

theorem rewardAtoms_resembles (s : Solver) (c : Clause) :
    s.Resembles (s.rewardAtoms c) ∧ (s.rewardAtoms c).buffer = s.buffer := by
  unfold rewardAtoms
  simp only
  obtain ⟨raised, buffer⟩ := s.raiseAtoms_resembles _
  have decayed := (raised.trans (atoms_resembles _ _ (AtomTable.decay_same _)
    AtomTable.Offering.decay)).trans (decayClauses_resembles _)
  exact ⟨decayed, (buffer_decayClauses _).trans buffer⟩

section Congruence

variable {s s' : Solver} {formula : List Clause} {exempt : ClauseKey → Prop}

theorem Coherent.congr (coherent : s.Coherent) (same : s.Resembles s') (marked : s'.buffer.Marked) :
    s'.Coherent where
  agrees := (coherent.aligned.congr same.spares).agrees
  trail := same.trail ▸ coherent.trail
  justified := by
    rw [same.trail]
    exact (coherent.justified.congr same.assignments.assignment?_eq).same same.clauses
  orderly := same.assignments.size_eq ▸ same.orderly _ coherent.orderly
  offering := same.offering coherent.offering
  marked := marked
  bounded := same.assignments.size_eq ▸ coherent.bounded

theorem Entailed.congr (entailed : s.Entailed formula) (same : s.Resembles s') :
    s'.Entailed formula where
  long key c live := entailed.long key c (same.clauses.get_eq key ▸ live)
  originalUnits := same.clauses.originalUnits ▸ entailed.originalUnits
  additionUnits := same.clauses.additionUnits ▸ entailed.additionUnits
  zero := same.trail ▸ entailed.zero
  learned := same.learned ▸ entailed.learned
  refuted := same.status ▸ entailed.refuted

theorem Entailed.mono (entailed : s.Entailed formula) {larger : List Clause}
    (included : formula ⊆ larger) : s.Entailed larger where
  long key c live := (entailed.long key c live).mono included
  originalUnits l member := (entailed.originalUnits l member).mono included
  additionUnits l member := (entailed.additionUnits l member).mono included
  zero i l found zero := (entailed.zero i l found zero).mono included
  learned collected kept c member := (entailed.learned collected kept c member).mono included
  refuted status := (entailed.refuted status).mono included

theorem Covers.congr (covered : s.Covers formula) (same : s.Resembles s') : s'.Covers formula := by
  unfold Covers ClauseStore.originalClauses at covered ⊢
  rwa [same.status, same.clauses.originalUnits, same.clauses.originals]

theorem Covers.of_eq (covered : s.Covers formula) (status : s'.status = s.status)
    (clauses : s'.clauses = s.clauses) : s'.Covers formula := by
  unfold Covers at covered ⊢
  rwa [status, clauses]

theorem Grounded.of_kept (grounded : s.Grounded exempt)
    (originalUnits : s'.clauses.store.originalUnits = s.clauses.store.originalUnits)
    (additionUnits : s'.clauses.store.additionUnits = s.clauses.store.additionUnits)
    (kept : ∀ (i : Nat) l, s.trail.literals[i]? = some l → s.trail.levelAt i = 0 →
      s'.trail.literals[i]? = some l ∧ s'.trail.levelAt i = 0) : s'.Grounded exempt where
  originalUnits l member counts := by
    obtain ⟨i, found, zero⟩ := grounded.originalUnits l (originalUnits ▸ member) counts
    exact ⟨i, kept i l found zero⟩
  additionUnits l member counts := by
    obtain ⟨i, found, zero⟩ := grounded.additionUnits l (additionUnits ▸ member) counts
    exact ⟨i, kept i l found zero⟩

theorem Grounded.congr (grounded : s.Grounded exempt) (same : s.Resembles s') :
    s'.Grounded exempt :=
  grounded.of_kept same.clauses.originalUnits same.clauses.additionUnits fun _ _ found zero =>
    same.trail ▸ ⟨found, zero⟩

theorem Grounded.extend (grounded : s.Grounded exempt)
    (originalUnits : s'.clauses.store.originalUnits = s.clauses.store.originalUnits)
    (additionUnits : s'.clauses.store.additionUnits = s.clauses.store.additionUnits)
    (extended : s.trail.Extends s'.trail) : s'.Grounded exempt :=
  grounded.of_kept originalUnits additionUnits fun _ _ found zero =>
    ⟨extended.getElem?_eq_some found, (extended.levelAt_eq found).trans zero⟩

theorem Invariant.congr (invariant : s.Invariant formula exempt) (same : s.Resembles s')
    (marked : s'.buffer.Marked) : s'.Invariant formula exempt where
  coherent := invariant.coherent.congr same marked
  mirrors l := by
    rw [same.watches]
    exact (invariant.mirrors l).congr same.clauses
  guarded := same.trail ▸ invariant.guarded.same same.clauses
  grounded := invariant.grounded.congr same
  entailed := invariant.entailed.congr same
  covered := invariant.covered.congr same

theorem Invariant.reset (invariant : s.Invariant formula exempt)
    (consistent : s.status ≠ .unsatisfiable) {status : SolverStatus}
    (other : status ≠ .unsatisfiable) : ({ s with status } : Solver).Invariant formula exempt where
  coherent := { invariant.coherent with }
  mirrors := invariant.mirrors
  guarded := invariant.guarded
  grounded := { invariant.grounded with }
  entailed := { invariant.entailed with refuted := fun impossible => absurd impossible other }
  covered := .inr (invariant.covered.resolve_left consistent)

theorem Invariant.refute (invariant : s.Invariant formula exempt) {larger : List Clause}
    (included : formula ⊆ larger) (refuted : Entails larger []) :
    ({ s with status := .unsatisfiable } : Solver).Invariant larger exempt where
  coherent := { invariant.coherent with }
  mirrors := invariant.mirrors
  guarded := invariant.guarded
  grounded := { invariant.grounded with }
  entailed := { invariant.entailed.mono included with refuted := fun _ => refuted }
  covered := .inl rfl

end Congruence

end Solver

end ClauseLearning
