import ClauseLearning.Proofs.Assignment
import ClauseLearning.Proofs.Backjump
import ClauseLearning.Proofs.Storing
import ClauseLearning.Solver.Formula

namespace ClauseLearning

namespace Clause

theorem eraseReps_loop {l : Literal} {c seen : Clause} (sorted : (l :: c).Pairwise (· ≤ ·))
    (below : ∀ m ∈ seen, m < l) (strict : seen.Pairwise (· > ·)) :
    (List.eraseRepsBy.loop (· == ·) l c seen).Pairwise (· < ·) ∧
      ∀ m, m ∈ List.eraseRepsBy.loop (· == ·) l c seen ↔ m ∈ seen ∨ m = l ∨ m ∈ c := by
  induction c generalizing l seen with
  | nil =>
    rw [List.eraseRepsBy.loop]
    constructor
    · rw [List.pairwise_reverse]
      exact List.pairwise_cons.2 ⟨below, strict⟩
    · intro m
      simp [or_comm]
  | cons first rest ih =>
    obtain ⟨le, sorted'⟩ := List.pairwise_cons.1 sorted
    rw [List.eraseRepsBy.loop]
    cases same : l == first with
    | true =>
      obtain rfl := eq_of_beq same
      obtain ⟨pairwise, mem⟩ := ih sorted' below strict
      refine ⟨pairwise, fun m => ?_⟩
      rw [mem, List.mem_cons]
      tauto
    | false =>
      have lt : l < first := lt_of_le_of_ne (le first List.mem_cons_self) (ne_of_beq_false same)
      have below' : ∀ m ∈ l :: seen, m < first :=
        List.forall_mem_cons.2 ⟨lt, fun m member => (below m member).trans lt⟩
      obtain ⟨pairwise, mem⟩ := ih sorted' below' (List.pairwise_cons.2 ⟨below, strict⟩)
      refine ⟨pairwise, fun m => ?_⟩
      rw [mem, List.mem_cons, List.mem_cons]
      tauto

theorem normalise_spec (c : Clause) :
    c.normalise.Pairwise (· < ·) ∧ ∀ l, l ∈ c.normalise ↔ l ∈ c := by
  have sorted : (c.mergeSort fun a b => decide (a ≤ b)).Pairwise (· ≤ ·) := by
    refine (List.pairwise_mergeSort ?_ ?_ c).imp fun le => of_decide_eq_true le
    · intro l m o first second
      exact decide_eq_true ((of_decide_eq_true first).trans (of_decide_eq_true second))
    · intro l m
      simpa using le_total l m
  have mem (l : Literal) : l ∈ c.mergeSort (fun a b => decide (a ≤ b)) ↔ l ∈ c :=
    List.mem_mergeSort
  unfold normalise List.eraseReps
  cases shape : c.mergeSort fun a b => decide (a ≤ b) with
  | nil =>
    rw [shape] at mem
    exact ⟨.nil, mem⟩
  | cons l rest =>
    rw [shape] at sorted mem
    obtain ⟨pairwise, same⟩ :=
      eraseReps_loop sorted (by simp) List.Pairwise.nil
    refine ⟨pairwise, fun m => ?_⟩
    rw [← mem, List.eraseRepsBy, same, List.mem_cons]
    simp

theorem nodup_of_sorted {c : Clause} (sorted : c.Pairwise (· < ·)) : c.Nodup :=
  sorted.imp fun lt => lt.ne

theorem normalise_of_sorted {c : Clause} (sorted : c.Pairwise (· < ·)) : c.normalise = c := by
  obtain ⟨sorted', same⟩ := c.normalise_spec
  have perm := (List.perm_ext_iff_of_nodup (nodup_of_sorted sorted') (nodup_of_sorted sorted)).2 same
  exact perm.eq_of_pairwise (fun l m _ _ lt gt => absurd (lt.trans gt) (lt_irrefl l)) sorted' sorted

theorem normalise_singleton (l : Literal) : normalise [l] = [l] :=
  normalise_of_sorted (List.pairwise_singleton _ l)

theorem distinct_of_not_tautology {c : Clause} (nodup : c.Nodup) (nonzero : ∀ l ∈ c, l ≠ 0)
    (proper : c.isTautology = false) : (c.map Int.natAbs).Nodup := by
  have opposite (l : Literal) (member : l ∈ c) (positive : l.polarity = true) : -l ∉ c := by
    intro both
    have := List.any_eq_false.1 proper l member
    simp [positive, both] at this
  refine nodup.map_on fun l first m second same => ?_
  rcases Literal.eq_or_eq_neg same with rfl | rfl
  · rfl
  · cases positive : Literal.polarity l with
    | true => exact absurd second (opposite l first positive)
    | false =>
      have other := Literal.polarity_neg (nonzero l first)
      rw [positive] at other
      refine absurd ?_ (opposite (-l) second other)
      rwa [Int.neg_neg]

theorem checkAtoms_ok {count : Nat} {c : Clause} (checked : c.checkAtoms count = .ok ()) :
    ∀ l ∈ c, l ≠ 0 ∧ l.natAbs < count := by
  induction c with
  | nil => simp
  | cons l rest ih =>
    rw [checkAtoms] at checked
    split at checked
    · cases checked
    · rename_i nonzero
      split at checked
      · cases checked
      · rename_i known
        refine List.forall_mem_cons.2 ⟨⟨?_, Nat.lt_of_not_le known⟩, ih checked⟩
        rintro rfl
        exact nonzero rfl

end Clause

namespace Solver

variable {s s' : Solver} {formula : List Clause} {c : Clause}

structure Settled (formula : List Clause) (s : Solver) : Prop where
  invariant : s.Invariant formula fun _ => False
  complete : s.status = .satisfiable →
    (∀ a, ¬s.atoms.Unvalued a) ∧ s.trail.head = s.trail.literals.size

theorem Settled.congr (settled : s.Settled formula) (same : s.Resembles s')
    (marked : s'.buffer.Marked) : s'.Settled formula where
  invariant := settled.invariant.congr same marked
  complete satisfiable := by
    obtain ⟨valued, quiet⟩ := settled.complete (same.status.symm.trans satisfiable)
    refine ⟨fun a unvalued => ?_, same.trail ▸ quiet⟩
    exact valued a ⟨same.assignments.size_eq ▸ unvalued.1,
      (same.assignments.assignment?_eq a).symm.trans unvalued.2⟩

/-- Whatever holds between calls holds on, for the formula with the accepted clauses, and there is
no way back from unsatisfiability. -/
def Builds (s s' : Solver) (accepted : List Clause) : Prop :=
  ∀ formula, s.Settled formula →
    s'.Settled (formula ++ accepted) ∧ (s.status = .unsatisfiable → s'.status = .unsatisfiable)

def Grows (s s' : Solver) (accepted : List Clause) : Prop :=
  ∀ formula, s.Invariant formula (fun _ => False) →
    s'.Invariant (formula ++ accepted) (fun _ => False) ∧
      (s.status = .unsatisfiable → s'.status = .unsatisfiable) ∧
      (s'.status = .satisfiable → accepted = [] ∧ s.Resembles s')

namespace Grows

theorem builds {accepted : List Clause} (grows : s.Grows s' accepted) : s.Builds s' accepted := by
  intro formula settled
  obtain ⟨invariant, kept, same⟩ := grows formula settled.invariant
  refine ⟨⟨invariant, fun satisfiable => ?_⟩, kept⟩
  exact (settled.congr (same satisfiable).2 invariant.coherent.marked).complete satisfiable

theorem of_resembles (same : s.Resembles s') (buffer : s'.buffer = s.buffer) : s.Grows s' [] := by
  intro formula invariant
  rw [List.append_nil]
  exact ⟨invariant.congr same (buffer ▸ invariant.coherent.marked), same.status.trans,
    fun _ => ⟨rfl, same⟩⟩

theorem refl (s : Solver) : s.Grows s [] := .of_resembles (.refl s) rfl

theorem trans {s'' : Solver} {accepted accepted' : List Clause} (first : s.Grows s' accepted)
    (second : s'.Grows s'' accepted') : s.Grows s'' (accepted ++ accepted') := by
  intro formula invariant
  obtain ⟨invariant', kept, same⟩ := first formula invariant
  obtain ⟨invariant'', kept', same'⟩ := second (formula ++ accepted) invariant'
  rw [← List.append_assoc]
  refine ⟨invariant'', kept' ∘ kept, fun satisfiable => ?_⟩
  obtain ⟨rfl, resembles'⟩ := same' satisfiable
  obtain ⟨rfl, resembles⟩ := same (resembles'.status.symm.trans satisfiable)
  exact ⟨rfl, resembles.trans resembles'⟩

end Grows

theorem note_grows (s : Solver) (level : Level) (topic : Topic) (message : Unit → String) :
    s.Grows (s.note level topic message) [] :=
  .of_resembles (note_resembles ..) (buffer_note ..)

theorem noteFailure_grows (s : Solver) (failure : Failure) :
    s.Grows (s.noteFailure failure) [] := by
  obtain ⟨journal, noted⟩ := s.noteFailure_eq failure
  exact .of_resembles (s.noteFailure_resembles failure) (by rw [noted])

theorem prepare_spec (invariant : s.Invariant formula fun _ => False) :
    s.prepare.Invariant formula (fun _ => False) ∧ s.prepare.trail.level = 0 ∧
      s.prepare.status ≠ .satisfiable ∧ s.prepare.atoms.size = s.atoms.size ∧
      (s.status = .unsatisfiable → s.prepare.status = .unsatisfiable) := by
  have retreats := backjump_retreats invariant.coherent.aligned 0
  have cleared := invariant.backjump 0
  have level : (s.backjump 0).trail.level = 0 := by
    rw [retreats.level]
    exact Nat.zero_min _
  unfold prepare clearDecisions
  simp only
  by_cases unsatisfiable : (s.backjump 0).status = .unsatisfiable
  · rw [if_pos unsatisfiable]
    exact ⟨cleared, level, by simp [unsatisfiable], retreats.size, fun _ => unsatisfiable⟩
  · rw [if_neg unsatisfiable]
    refine ⟨cleared.reset unsatisfiable (by simp), level, by simp, retreats.size, ?_⟩
    exact fun before => absurd (retreats.status.trans before) unsatisfiable

theorem freshAtom_grows (s : Solver) : s.Grows s.freshAtom.2 [] := by
  intro formula invariant
  obtain ⟨prepared, -, status, -, kept⟩ := prepare_spec invariant
  unfold freshAtom
  simp only
  by_cases room : s.prepare.atoms.size ≤ Atom.max
  · obtain ⟨atoms, answer, size, order, same⟩ := AtomTable.fresh_of_le room
    rw [answer, List.append_nil]
    refine ⟨⟨?_, ?_, prepared.guarded, { prepared.grounded with }, { prepared.entailed with },
      prepared.covered⟩, kept, fun satisfiable => absurd satisfiable status⟩
    · obtain ⟨agrees, trail, justified, orderly, offering, marked, bounded⟩ := prepared.coherent
      exact {
        agrees := agrees.congr same
        trail
        justified := justified.congr same
        orderly := orderly.mono fun _ => .mono (size ▸ Nat.le_succ _)
        offering := offering.fresh size order same
        marked
        bounded := size ▸ Nat.succ_le_succ room }
    · intro l
      change s.prepare.clauses.store.Lists l
        ((s.prepare.clauses.watches.grow s.prepare.atoms.size).watchers l).toList
      rw [WatchLists.watchers_grow]
      exact prepared.mirrors l
  · rw [AtomTable.fresh_of_lt (Nat.lt_of_not_le room)]
    obtain ⟨invariant', kept', same⟩ := s.prepare.noteFailure_grows .atomsExhausted formula prepared
    refine ⟨invariant', kept' ∘ kept, fun satisfiable => ?_⟩
    exact absurd ((same satisfiable).2.status.symm.trans satisfiable) status

theorem introduce_grows (count : Nat) (s : Solver) : s.Grows (introduce count s).2 [] := by
  induction count generalizing s with
  | zero => exact .refl s
  | succ count ih =>
    have fresh := s.freshAtom_grows
    rw [introduce]
    cases answer : s.freshAtom with
    | mk result s' =>
      rw [answer] at fresh
      cases result with
      | error failure => exact fresh
      | ok a => exact fresh.trans (ih s')

theorem ensureAtoms_grows (s : Solver) (a : Atom) : s.Grows (s.ensureAtoms a).2 [] :=
  introduce_grows _ s

def accepts (c : Clause) : Except Failure AddStatus → List Clause
  | .ok .added => [c]
  | _ => []

theorem noteOccurrences_resembles (s : Solver) (c : Clause) :
    s.Resembles (c.foldl noteOccurrence s) ∧ (c.foldl noteOccurrence s).buffer = s.buffer := by
  induction c generalizing s with
  | nil => exact ⟨.refl s, rfl⟩
  | cons l rest ih =>
    obtain ⟨later, buffer⟩ := ih (s.noteOccurrence l)
    have noted : s.Resembles (s.noteOccurrence l) :=
      s.atoms_resembles _ (s.atoms.noteOccurrence_same l) fun offering => offering.noteOccurrence l
    exact ⟨noted.trans later, buffer⟩

theorem seed_resembles (s : Solver) (c : Clause) :
    s.Resembles (s.seed c) ∧ (s.seed c).buffer = s.buffer := by
  unfold seed
  split
  · exact s.noteOccurrences_resembles c
  · exact ⟨.refl s, rfl⟩

/-- The reduced clause is what is left of a clause without the literals that are false, all of them
at level zero. -/
structure Reduces (formula : List Clause) (s : Solver) (c reduced : Clause) : Prop where
  distinct : (reduced.map Int.natAbs).Nodup
  known : ∀ l ∈ reduced, l ≠ 0 ∧ l.natAbs < s.atoms.size
  notFalse : ∀ l ∈ reduced, -l ∉ s.trail.literals
  subset : reduced ⊆ c
  stripped : ∀ l ∈ c, l ∈ reduced ∨ l ≠ 0 ∧ Entails formula [-l]

theorem reduces_filter {normal : Clause} (invariant : s.Invariant formula fun _ => False)
    (ground : s.trail.level = 0) (same : ∀ l, l ∈ normal ↔ l ∈ c)
    (distinct : (normal.map Int.natAbs).Nodup)
    (known : ∀ l ∈ normal, l ≠ 0 ∧ l.natAbs < s.atoms.size) :
    s.Reduces formula c (normal.filter fun l => s.atoms.literalValue l != some false) := by
  have agrees := invariant.coherent.agrees
  constructor
  · exact distinct.sublist (List.filter_sublist.map Int.natAbs)
  · exact fun l member => known l (List.mem_of_mem_filter member)
  · intro l member isFalse
    have kept := (List.mem_filter.1 member).2
    rw [agrees.literalValue_of_neg_mem isFalse] at kept
    cases kept
  · exact fun l member => (same l).1 (List.mem_of_mem_filter member)
  · intro l member
    have inNormal := (same l).2 member
    have nonzero := (known l inNormal).1
    by_cases isFalse : s.atoms.literalValue l = some false
    · obtain ⟨i, found⟩ :=
        Array.getElem?_of_mem ((agrees.literalValue_eq_false_iff nonzero).1 isFalse)
      have le := (s.trail.levelAt_le_level i).trans ground.le
      exact .inr ⟨nonzero, invariant.entailed.zero i (-l) found (Nat.le_zero.1 le)⟩
    · exact .inl (List.mem_filter.2 ⟨inNormal, by simpa using isFalse⟩)

theorem Reduces.entails {reduced : Clause} (reduces : s.Reduces formula c reduced) :
    Entails (formula ++ [c]) reduced :=
  Entails.strip (.of_mem (List.mem_append_right _ List.mem_cons_self)) fun l member =>
    (reduces.stripped l member).imp_right fun ⟨nonzero, refuted⟩ =>
      ⟨nonzero, refuted.mono (List.subset_append_left _ _)⟩

theorem Invariant.assign_unit {l : Literal}
    (invariant : s.Invariant formula (· = .originalUnit l)) (ground : s.trail.level = 0)
    (known : l ≠ 0 ∧ l.natAbs < s.atoms.size) (notFalse : -l ∉ s.trail.literals)
    (consequence : Entails formula [l]) :
    (s.assign l (.unit (.originalUnit l))).2.Invariant formula (fun _ => False) ∧
      (s.assign l (.unit (.originalUnit l))).2.status = s.status := by
  obtain ⟨nonzero, inside⟩ := known
  have agrees := invariant.coherent.agrees
  cases assigned : s.atoms.assignment? l.natAbs with
  | some assignment =>
    have isTrue := (agrees.mem_or_neg_mem nonzero assigned).resolve_right notFalse
    have value := agrees.literalValue_of_mem isTrue
    rw [AtomTable.literalValue_eq, assigned, Option.map_some, Option.some.injEq,
      beq_iff_eq] at value
    have answer : s.assign l (.unit (.originalUnit l)) = (.same, s) := by
      unfold assign
      simp only [AtomTable.assign_of_valued _ _ assigned, value, if_true]
    rw [answer]
    obtain ⟨i, found⟩ := Array.getElem?_of_mem isTrue
    have zero := Nat.le_zero.1 ((s.trail.levelAt_le_level i).trans ground.le)
    exact ⟨Invariant.enforce_unit .formula invariant ⟨i, found, zero⟩, rfl⟩
  | none =>
    obtain ⟨s', answer, invariant', status⟩ :=
      Invariant.assert_unit .formula invariant ground nonzero ⟨inside, assigned⟩
        consequence
    rw [unitKey] at answer
    rw [answer]
    exact ⟨invariant', status⟩

theorem Reduces.grow {reduced d : Clause} (reduces : s.Reduces formula c reduced)
    (member : d ∈ formula ++ [c]) :
    d ∈ formula ∨ ClauseOrigin.formula = .formula ∧ reduced ⊆ d := by
  refine (List.mem_append.1 member).imp_right fun last => ⟨rfl, ?_⟩
  rw [List.mem_singleton.1 last]
  exact reduces.subset

theorem Reduces.add_unit {l : Literal} (reduces : s.Reduces formula c [l])
    (invariant : s.Invariant formula fun _ => False) (ground : s.trail.level = 0)
    (room : s.HasRoom) :
    ∃ s', s.addReduced [l] = (.ok .added, s') ∧
      s'.Invariant (formula ++ [c]) (fun _ => False) ∧ s'.status = s.status := by
  obtain ⟨s', answer, invariant', atoms, trail, status⟩ :=
    invariant.insert_unit room .formula none (List.subset_append_left _ _) reduces.entails
      fun d member => (reduces.grow member).imp_right fun ⟨isFormula, subset⟩ =>
        ⟨isFormula, subset List.mem_cons_self⟩
  obtain ⟨assigned, status'⟩ := invariant'.assign_unit (trail ▸ ground)
    (atoms ▸ reduces.known l List.mem_cons_self)
    (trail ▸ reduces.notFalse l List.mem_cons_self) reduces.entails
  exact ⟨_, by simp only [addReduced, answer]; rfl, assigned, status'.trans status⟩

theorem Reduces.add_long {l m : Literal} {rest : Clause}
    (reduces : s.Reduces formula c (l :: m :: rest))
    (invariant : s.Invariant formula fun _ => False)
    (takes : s.clauses.store.Takes (l :: m :: rest) .formula) :
    ∃ s', s.addReduced (l :: m :: rest) = (.ok .added, s') ∧
      s'.Invariant (formula ++ [c]) (fun _ => False) ∧ s'.status = s.status := by
  obtain ⟨key, s', answer, invariant', live, -, trail, status⟩ :=
    invariant.insert_long takes (by simp) reduces.distinct reduces.known none
      (List.subset_append_left _ _) reduces.entails fun d => reduces.grow
  have shaped := invariant'.coherent.orderly.wellFormed.shaped key _ live
  have perm := WatchedClause.ofClause_perm s.atoms.value key (l :: m :: rest)
  refine ⟨s', by simp only [addReduced, answer], invariant'.enforce_long live ?_, status⟩
  apply Trail.GuardsClause.of_not_mem
  intro o watches
  rw [trail]
  exact reduces.notFalse o (perm.mem_iff.1 (shaped.watches_mem watches))

theorem Refuses.keeps_status {origin : ClauseOrigin} {failure : Failure}
    (refuses : s.Refuses c origin failure s') (invariant : s.Invariant formula fun _ => False)
    (status : s.status ≠ .satisfiable) :
    s'.Invariant (formula ++ []) (fun _ => False) ∧
      (s.status = .unsatisfiable → s'.status = .unsatisfiable) ∧ s'.status ≠ .satisfiable := by
  obtain ⟨same, buffer⟩ := refuses.resembles
  rw [List.append_nil]
  exact ⟨invariant.congr same (buffer ▸ invariant.coherent.marked), same.status.trans,
    fun satisfiable => status (same.status.symm.trans satisfiable)⟩

theorem addReduced_spec (invariant : s.Invariant formula fun _ => False)
    (ground : s.trail.level = 0) (status : s.status ≠ .satisfiable) {reduced : Clause}
    (reduces : s.Reduces formula c reduced) :
    (s.addReduced reduced).2.Invariant (formula ++ accepts c (s.addReduced reduced).1)
        (fun _ => False) ∧
      (s.status = .unsatisfiable → (s.addReduced reduced).2.status = .unsatisfiable) ∧
      (s.addReduced reduced).2.status ≠ .satisfiable := by
  -- Nothing left is a refutation, one literal is assigned, and of more none is false.
  match reduced, reduces with
  | [], reduces =>
    have noted := s.note_resembles .info .clauses fun _ => "Empty clause added"
    have invariant' := invariant.congr noted (by rw [buffer_note]; exact invariant.coherent.marked)
    exact ⟨invariant'.refute (List.subset_append_left _ _) reduces.entails, fun _ => rfl,
      by simp [addReduced]⟩
  | [l], reduces =>
    by_cases takes : s.clauses.store.Takes [l] .formula
    · obtain ⟨s', answer, invariant', same⟩ := reduces.add_unit invariant ground takes.room
      rw [answer]
      exact ⟨invariant', same.trans, fun satisfiable => status (same.symm.trans satisfiable)⟩
    · obtain ⟨failure, s', answer, refuses⟩ := insert_refused (by simp) takes none
      simp only [addReduced, answer, accepts]
      exact refuses.keeps_status invariant status
  | l :: m :: rest, reduces =>
    by_cases takes : s.clauses.store.Takes (l :: m :: rest) .formula
    · obtain ⟨s', answer, invariant', same⟩ := reduces.add_long invariant takes
      rw [answer]
      exact ⟨invariant', same.trans, fun satisfiable => status (same.symm.trans satisfiable)⟩
    · obtain ⟨failure, s', answer, refuses⟩ := insert_refused (by simp) takes none
      simp only [addReduced, answer, accepts]
      exact refuses.keeps_status invariant status

theorem addClause_grows (s : Solver) (c : Clause) :
    s.Grows (s.addClause c).2 (accepts c (s.addClause c).1) := by
  obtain ⟨sorted, mem⟩ := c.normalise_spec
  unfold addClause
  simp only
  split
  · exact s.note_grows _ _ _
  · rename_i proper
    cases checked : c.normalise.checkAtoms s.atoms.size with
    | error failure => exact s.noteFailure_grows failure
    | ok =>
      intro formula invariant
      have known := Clause.checkAtoms_ok checked
      have distinct := Clause.distinct_of_not_tautology (Clause.nodup_of_sorted sorted)
        (fun l member => (known l member).1) (by simpa using proper)
      obtain ⟨seeded, buffer⟩ := s.seed_resembles c.normalise
      have seeded' := invariant.congr seeded (buffer ▸ invariant.coherent.marked)
      obtain ⟨prepared, ground, status, size, kept⟩ := prepare_spec seeded'
      have known' : ∀ l ∈ c.normalise,
          l ≠ 0 ∧ l.natAbs < (s.seed c.normalise).prepare.atoms.size := by
        rw [size, seeded.assignments.size_eq]
        exact known
      obtain ⟨invariant', kept', unsatisfied⟩ :=
        addReduced_spec prepared ground status (reduces_filter prepared ground mem distinct known')
      exact ⟨invariant', fun before => kept' (kept (seeded.status.trans before)),
        fun satisfiable => absurd satisfiable unsatisfied⟩

end Solver

end ClauseLearning
