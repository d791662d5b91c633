import ClauseLearning.Proofs.Choice
import ClauseLearning.Proofs.Coherence
import ClauseLearning.Solver.Decision

namespace ClauseLearning.Solver

structure Gains (s s' : Solver) (l : Literal) (source : Source) : Prop where
  size : s'.atoms.size = s.atoms.size
  order : s.atoms.Offering → s'.atoms.Offering
  assigned : ∀ a, s'.atoms.assignment? a =
    if a = l.natAbs then some ⟨l.polarity, s'.trail.level, some source⟩ else s.atoms.assignment? a
  extends_trail : s.trail.Extends s'.trail
  literals : s'.trail.literals = s.trail.literals.push l
  head : s'.trail.head = s.trail.head
  wellFormed : s'.trail.WellFormed
  clauses : s'.clauses = s.clauses
  buffer : s'.buffer = s.buffer
  status : s'.status = s.status
  learned : s'.learned = s.learned

variable {s s' : Solver} {l : Literal} {source : Source} {formula : List Clause}
  {exempt : ClauseKey → Prop}

namespace Gains

theorem levelAt_last (gains : s.Gains s' l source) :
    s'.trail.levelAt s.trail.literals.size = s'.trail.level := by
  refine Trail.levelAt_eq_level fun start member => ?_
  have := gains.wellFormed.inside start member
  rw [gains.literals, Array.size_push] at this
  omega

theorem last (gains : s.Gains s' l source) :
    s'.trail.literals[s.trail.literals.size]? = some l := by
  rw [gains.literals, Array.getElem?_push, if_pos rfl]

theorem cases_of (gains : s.Gains s' l source) {i : Nat} {m : Literal}
    (found : s'.trail.literals[i]? = some m) :
    (i = s.trail.literals.size ∧ m = l) ∨ s.trail.literals[i]? = some m := by
  rw [gains.literals, Array.getElem?_push] at found
  split at found
  · rename_i last
    exact .inl ⟨last, (Option.some.inj found).symm⟩
  · exact .inr found

end Gains

theorem Coherent.gain (coherent : s.Coherent) (gains : s.Gains s' l source) (nonzero : l ≠ 0)
    (unvalued : s.atoms.assignment? l.natAbs = none)
    (justifies : source.Justifies s'.trail s.clauses.store s.trail.literals.size l) :
    s'.Coherent where
  agrees := coherent.agrees.extend nonzero unvalued gains.assigned gains.literals
    gains.extends_trail.levels gains.levelAt_last
  trail := gains.wellFormed
  justified := by
    rw [gains.clauses]
    exact coherent.justified.extend coherent.agrees unvalued gains.assigned gains.extends_trail
      gains.literals justifies
  orderly := by
    rw [gains.clauses, gains.size]
    exact coherent.orderly
  offering := gains.order coherent.offering
  marked := gains.buffer ▸ coherent.marked
  bounded := gains.size ▸ coherent.bounded

theorem Entailed.gain (entailed : s.Entailed formula) (gains : s.Gains s' l source)
    (fact : s'.trail.level = 0 → Entails formula [l]) : s'.Entailed formula where
  long := gains.clauses ▸ entailed.long
  originalUnits := gains.clauses ▸ entailed.originalUnits
  additionUnits := gains.clauses ▸ entailed.additionUnits
  zero i m found zero := by
    rcases gains.cases_of found with ⟨rfl, rfl⟩ | before
    · exact fact (gains.levelAt_last ▸ zero)
    · rw [gains.extends_trail.levelAt_eq before] at zero
      exact entailed.zero i m before zero
  learned := gains.learned ▸ entailed.learned
  refuted := gains.status ▸ entailed.refuted

theorem Grounded.gain (grounded : s.Grounded exempt) (gains : s.Gains s' l source) :
    s'.Grounded exempt :=
  grounded.extend (by rw [gains.clauses]) (by rw [gains.clauses]) gains.extends_trail

theorem Invariant.gain (invariant : s.Invariant formula exempt) (gains : s.Gains s' l source)
    (nonzero : l ≠ 0) (unvalued : s.atoms.assignment? l.natAbs = none)
    (justifies : source.Justifies s'.trail s.clauses.store s.trail.literals.size l)
    (fact : s'.trail.level = 0 → Entails formula [l]) : s'.Invariant formula exempt where
  coherent := invariant.coherent.gain gains nonzero unvalued justifies
  mirrors := gains.clauses ▸ invariant.mirrors
  guarded := by
    rw [gains.clauses]
    exact invariant.guarded.extend gains.extends_trail gains.head
      invariant.coherent.trail.head_le
  grounded := invariant.grounded.gain gains
  entailed := invariant.entailed.gain gains fact
  covered := invariant.covered.of_eq gains.status gains.clauses

theorem assign_eq (source : Source) (unvalued : s.atoms.Unvalued l.natAbs) :
    ∃ atoms journal,
      s.assign l source = (.assigned, { s with atoms, journal, trail := s.trail.push l }) ∧
        atoms.order = s.atoms.order ∧ atoms.size = s.atoms.size ∧ ∀ a, atoms.assignment? a =
          if a = l.natAbs then some ⟨l.polarity, s.trail.level, some source⟩
          else s.atoms.assignment? a := by
  obtain ⟨atoms, answer, same⟩ :=
    AtomTable.assign_of_unvalued s.trail.level source unvalued.1 unvalued.2
  obtain ⟨journal, noted⟩ := note_eq { s with atoms, trail := s.trail.push l } .trace .valuation
    fun _ => l.text ++ " at level " ++ toString s.trail.level ++ " from " ++ source.text
  exact ⟨atoms, journal, by simp only [assign, answer, noted], same⟩

theorem assign_of_unvalued (coherent : s.Coherent) (source : Source)
    (unvalued : s.atoms.Unvalued l.natAbs) :
    ∃ s', s.assign l source = (.assigned, s') ∧ s.Gains s' l source ∧
      s'.trail = s.trail.push l := by
  obtain ⟨atoms, journal, answer, order, size, assigned⟩ := assign_eq source unvalued
  refine ⟨_, answer, ?_, rfl⟩
  exact {
    size
    order := fun offering => offering.shrink order size fun a none => by
      rw [assigned] at none
      split at none
      · cases none
      · exact none
    assigned
    extends_trail := .push s.trail l
    literals := rfl
    head := rfl
    wellFormed := coherent.trail.push l
    clauses := rfl
    buffer := rfl
    status := rfl
    learned := rfl }

structure Chooses (s s' : Solver) (answer : Option Atom) : Prop where
  unvalued : ∀ a, answer = some a → s.atoms.Unvalued a
  exhausted : answer = none → ∀ a, ¬s.atoms.Unvalued a
  assignments : AtomTable.SameAssignments s.atoms s'.atoms
  offers : s'.atoms.order.Offers (fun b => s.atoms.Unvalued b ∧ answer ≠ some b) s.atoms.size
  clauses : s'.clauses = s.clauses
  trail : s'.trail = s.trail
  buffer : s'.buffer = s.buffer
  status : s'.status = s.status
  learned : s'.learned = s.learned

theorem takeUnvalued_chooses (aligned : s.Aligned) :
    s.Chooses s.takeUnvalued.2 s.takeUnvalued.1 := by
  obtain ⟨unvalued, exhausted, offers⟩ := aligned.offering.takeUnvalued
  exact ⟨unvalued, exhausted, s.atoms.takeUnvalued_same, offers, rfl, rfl, rfl, rfl, rfl⟩

theorem value_valuation (t : AtomTable) (a : Atom) : t.valuation.value a = t.value a := by
  rw [AtomTable.value_eq, AtomTable.assignment?_eq]
  simp only [AtomTable.valuation, Valuation.value, Array.getElem?_map]
  cases t.atoms[a]? <;> rfl

theorem mem_unvaluedAtoms (aligned : s.Aligned) {a : Atom} :
    a ∈ s.atoms.valuation.unvaluedAtoms ↔ s.atoms.Unvalued a := by
  have size : s.atoms.valuation.size = s.atoms.size := by
    simp [AtomTable.valuation, AtomTable.size]
  have positive : s.atoms.Unvalued a → a ≠ 0 := by
    rintro ⟨-, none⟩ rfl
    rw [aligned.agrees.top] at none
    cases none
  have bounds (a count : Nat) : 1 ≤ a ∧ a < 1 + (count - 1) ↔ a ≠ 0 ∧ a < count := by omega
  simp only [Valuation.unvaluedAtoms, Valuation.atoms, List.mem_filter, List.mem_range'_1,
    value_valuation, AtomTable.value_eq, Option.isNone_map, Option.isNone_iff_eq_none, size]
  rw [bounds]
  exact ⟨fun unvalued => ⟨unvalued.1.2, unvalued.2⟩,
    fun unvalued => ⟨⟨positive unvalued, unvalued.1⟩, unvalued.2⟩⟩

theorem drawUnvalued_chooses (aligned : s.Aligned) :
    s.Chooses s.drawUnvalued.2 s.drawUnvalued.1 where
  unvalued _ picked := (mem_unvaluedAtoms aligned).1 (Generator.mem_of_choose _ _ picked)
  exhausted none a unvalued := by
    have member := (mem_unvaluedAtoms aligned).2 unvalued
    rw [Generator.eq_nil_of_choose _ none] at member
    cases member
  assignments := .refl _
  offers := aligned.offering.mono fun _ unvalued => unvalued.1
  clauses := rfl
  trail := rfl
  buffer := rfl
  status := rfl
  learned := rfl

theorem chooseAtom_chooses (aligned : s.Aligned) : s.Chooses s.chooseAtom.2 s.chooseAtom.1 := by
  unfold chooseAtom
  split
  · cases flipped : s.chance s.settings.randomDecisionBias with
    | mk drawn s₁ =>
      have other : s₁ = { s with random := s₁.random } := by
        rw [show s₁ = (s.chance s.settings.randomDecisionBias).2 by rw [flipped]]
        rfl
      have aligned₁ : s₁.Aligned := aligned.congr (other ▸ .of_eq rfl rfl)
      cases drawn with
      | true =>
        have chooses := drawUnvalued_chooses aligned₁
        rw [other] at chooses ⊢
        exact { chooses with }
      | false =>
        have chooses := takeUnvalued_chooses aligned₁
        rw [other] at chooses ⊢
        exact { chooses with }
  · exact takeUnvalued_chooses aligned

theorem choosePolarity_eq (s : Solver) (a : Atom) :
    ∃ polarity random, s.choosePolarity a = (polarity, { s with random }) := by
  unfold choosePolarity
  split
  · exact ⟨_, s.random, rfl⟩
  · exact ⟨_, _, rfl⟩

theorem Chooses.resembles (chooses : s.Chooses s' none) : s.Resembles s' where
  assignments := chooses.assignments
  offering _ := by
    unfold AtomTable.Offering
    rw [chooses.assignments.size_eq]
    refine chooses.offers.mono fun a unvalued => ?_
    exact ⟨⟨chooses.assignments.size_eq ▸ unvalued.1,
      chooses.assignments.assignment?_eq a ▸ unvalued.2⟩, by simp⟩
  clauses := chooses.clauses ▸ .refl _
  orderly := chooses.clauses ▸ fun _ orderly => orderly
  watches := by rw [chooses.clauses]
  trail := chooses.trail
  status := chooses.status
  learned := chooses.learned

structure Opens (s opened : Solver) (l : Literal) : Prop where
  nonzero : l ≠ 0
  unvalued : s.atoms.Unvalued l.natAbs
  assignments : AtomTable.SameAssignments s.atoms opened.atoms
  offers : opened.atoms.order.Offers (fun b => s.atoms.Unvalued b ∧ b ≠ l.natAbs) s.atoms.size
  trail : opened.trail = s.trail.pushLevel
  clauses : opened.clauses = s.clauses
  buffer : opened.buffer = s.buffer
  status : opened.status = s.status
  learned : opened.learned = s.learned

theorem Opens.assigned {opened : Solver} (opens : s.Opens opened l) :
    ∃ atoms journal, opened.assign l .decision =
        (.assigned, { opened with atoms, journal, trail := s.trail.pushLevel.push l }) ∧
      atoms.size = s.atoms.size ∧ atoms.Offering ∧ ∀ a, atoms.assignment? a =
        if a = l.natAbs then some ⟨l.polarity, s.trail.level + 1, some .decision⟩
        else s.atoms.assignment? a := by
  have unvalued : opened.atoms.Unvalued l.natAbs :=
    ⟨opens.assignments.size_eq ▸ opens.unvalued.1,
      (opens.assignments.assignment?_eq _).trans opens.unvalued.2⟩
  have level : s.trail.pushLevel.level = s.trail.level + 1 := Array.size_push _
  obtain ⟨atoms, journal, answer, order, size, assigned⟩ := assign_eq .decision unvalued
  simp only [opens.trail, level, opens.assignments.assignment?_eq,
    opens.assignments.size_eq] at answer size assigned
  refine ⟨atoms, journal, answer, size, ?_, assigned⟩
  unfold AtomTable.Offering
  rw [order, size]
  refine opens.offers.mono fun b unvalued => ?_
  obtain ⟨inside, none⟩ := unvalued
  rw [assigned] at none
  split at none
  · cases none
  · rename_i other
    exact ⟨⟨size ▸ inside, none⟩, other⟩

theorem Opens.gains {opened : Solver} (opens : s.Opens opened l) (coherent : s.Coherent)
    (quiet : s.trail.head = s.trail.literals.size) :
    s.Gains (opened.assign l .decision).2 l .decision ∧
      (opened.assign l .decision).2.trail = s.trail.pushLevel.push l := by
  obtain ⟨atoms, journal, answer, size, offering, assigned⟩ := opens.assigned
  rw [answer]
  refine ⟨?_, rfl⟩
  exact {
    size
    order := fun _ => offering
    assigned := by simpa only [Trail.level_decide] using assigned
    extends_trail := .decide s.trail l
    literals := rfl
    head := rfl
    wellFormed := coherent.trail.decide quiet l
    clauses := opens.clauses
    buffer := opens.buffer
    status := opens.status
    learned := opens.learned }

theorem takeDecision_cases (aligned : s.Aligned) :
    (∃ s', s.takeDecision = (none, s') ∧ (∀ a, ¬s.atoms.Unvalued a) ∧ s.Resembles s' ∧
      s'.buffer = s.buffer) ∨
    ∃ l opened, s.takeDecision = (some l, (opened.assign l .decision).2) ∧ s.Opens opened l := by
  have chooses := chooseAtom_chooses aligned
  cases chosen : s.chooseAtom with
  | mk answer s' =>
    simp only [chosen] at chooses
    cases answer with
    | none =>
      exact .inl ⟨s', by simp only [takeDecision, chosen], chooses.exhausted rfl,
        chooses.resembles, chooses.buffer⟩
    | some a =>
      have unvalued := chooses.unvalued a rfl
      obtain ⟨polarity, random, polarised⟩ := s'.choosePolarity_eq a
      have bounded : a ≤ Atom.max := Nat.le_of_lt_succ (unvalued.1.trans_le aligned.bounded)
      have atom := Literal.natAbs_ofAtom bounded polarity
      generalize literal : Literal.ofAtom a polarity = l at atom
      subst atom
      refine .inr ⟨l, _, by simp only [takeDecision, chosen, polarised, literal]; rfl, ?_⟩
      constructor
      · rintro rfl
        rw [AtomTable.Unvalued, Int.natAbs_zero, aligned.agrees.top] at unvalued
        cases unvalued.2
      · exact unvalued
      · simpa [countDecision, pushLevel] using chooses.assignments
      · have offers : s'.atoms.order.Offers (fun b => s.atoms.Unvalued b ∧ b ≠ l.natAbs)
            s.atoms.size :=
          chooses.offers.mono fun b other =>
            ⟨other.1, fun same => other.2 (Option.some.inj same).symm⟩
        simpa [countDecision, pushLevel] using offers
      · simp [countDecision, pushLevel, chooses.trail]
      · simp [countDecision, pushLevel, chooses.clauses]
      · simp [countDecision, pushLevel, chooses.buffer]
      · simp [countDecision, pushLevel, chooses.status]
      · simp [countDecision, pushLevel, chooses.learned]

theorem takeDecision_spec (coherent : s.Coherent) (quiet : s.trail.head = s.trail.literals.size) :
    (∃ s', s.takeDecision = (none, s') ∧ (∀ a, ¬s.atoms.Unvalued a) ∧ s.Resembles s' ∧
      s'.buffer = s.buffer) ∨
    ∃ l s', s.takeDecision = (some l, s') ∧ s.Gains s' l .decision ∧ l ≠ 0 ∧
      s.atoms.assignment? l.natAbs = none ∧ s'.trail = s.trail.pushLevel.push l := by
  rcases takeDecision_cases coherent.aligned with exhausted | ⟨l, opened, decided, opens⟩
  · exact .inl exhausted
  · obtain ⟨gains, trail⟩ := opens.gains coherent quiet
    exact .inr ⟨l, _, decided, gains, opens.nonzero, opens.unvalued.2, trail⟩

end ClauseLearning.Solver
