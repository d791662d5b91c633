import ClauseLearning.Proofs.AtomChanges

/-!
What occurrences count. Where they seed the search, each clause that is added has its literals
counted, and nothing else changes a count. The literals are counted before there is known to be room
for the clause, so a clause that is refused for want of room is counted as well.
-/

namespace ClauseLearning

namespace AtomTable

variable {t t' : AtomTable}

theorem occurrences_eq (t : AtomTable) (a : Atom) : t.occurrences a =
    (t.atoms[a]?).elim (0, 0) fun state => (state.negatives, state.positives) := by
  unfold occurrences
  cases t.atoms[a]? <;> rfl

theorem phase_eq (t : AtomTable) (a : Atom) :
    t.phase a = (t.atoms[a]?).elim false AtomState.phase := by
  unfold phase
  cases t.atoms[a]? <;> rfl

def majority (t : AtomTable) (a : Atom) : Bool :=
  decide ((t.occurrences a).1 < (t.occurrences a).2)

@[simp] theorem atoms_raise (t : AtomTable) (a : Atom) : (t.raise a).atoms = t.atoms := by
  unfold raise
  split <;> rfl

theorem Change.occurrences (change : Change t t') (a : Atom) :
    t'.occurrences a = t.occurrences a := by
  simp only [occurrences_eq]
  cases change with
  | fresh =>
    unfold AtomTable.fresh
    simp only
    split
    · simp only [Array.getElem?_push]
      split
      · rename_i last
        rw [last, Array.getElem?_eq_none (Nat.le_refl _)]
        rfl
      · rfl
    · rfl
  | assign l level source =>
    unfold AtomTable.assign
    split
    · rfl
    · rename_i state found
      split
      · simp only [Array.getElem?_setIfInBounds]
        split
        · rename_i same
          rw [← same, found, if_pos (Array.getElem?_eq_some_iff.1 found).1]
          rfl
        · rfl
      · rfl
  | unassign b =>
    simp only [AtomTable.unassign, Array.getElem?_modify]
    split
    · cases t.atoms[a]? <;> rfl
    · rfl
  | takeUnvalued => rfl
  | raise b => rw [atoms_raise]
  | decay => rfl

theorem occurrences_noteOccurrence {l : Literal} (known : l.natAbs < t.size) (a : Atom) :
    (t.noteOccurrence l).occurrences a =
      ((t.occurrences a).1 + [l].countP fun m => m.natAbs = a ∧ m.polarity = false,
        (t.occurrences a).2 + [l].countP fun m => m.natAbs = a ∧ m.polarity = true) := by
  simp only [occurrences_eq, noteOccurrence, if_pos known, atoms_raise, Array.getElem?_modify]
  by_cases same : l.natAbs = a
  · obtain ⟨state, found⟩ : ∃ state, t.atoms[a]? = some state :=
      ⟨_, Array.getElem?_eq_getElem (same ▸ known)⟩
    cases polarity : l.polarity <;> simp [same, found, polarity]
  · simp [same]

theorem majority_noteOccurrence {l : Literal} (known : l.natAbs < t.size) (a : Atom)
    (seeded : a = l.natAbs ∨ t.phase a = t.majority a) :
    (t.noteOccurrence l).phase a = (t.noteOccurrence l).majority a := by
  simp only [majority, occurrences_eq, phase_eq] at seeded ⊢
  simp only [noteOccurrence, if_pos known, atoms_raise, Array.getElem?_modify]
  by_cases same : l.natAbs = a
  · obtain ⟨state, found⟩ : ∃ state, t.atoms[a]? = some state :=
      ⟨_, Array.getElem?_eq_getElem (same ▸ known)⟩
    simp [same, found]
  · simpa only [same, if_false] using seeded.resolve_left (Ne.symm same)

end AtomTable

theorem Literal.eq_neg_iff {l : Int} {a : Nat} :
    l.natAbs = a ∧ polarity l = false ↔ l = -(a : Int) := by
  rw [polarity, decide_eq_false_iff_not]
  omega

theorem Literal.eq_natCast_iff {l : Int} {a : Nat} (nonzero : l ≠ 0) :
    l.natAbs = a ∧ polarity l = true ↔ l = (a : Int) := by
  rw [polarity, decide_eq_true_eq]
  omega

/-- Whether the literals of the clause were counted, which they were if it was added, and also if
only the room or the key for it was missing. -/
def Attempt.isCounted : Attempt → Bool
  | (_, .ok .added) | (_, .error (.clauseLimit _)) | (_, .error .originalKeys) => true
  | _ => false

def tally (l : Literal) (attempts : List Attempt) : Nat :=
  attempts.countP fun attempt => attempt.isCounted && attempt.1.contains l

theorem tally_append (l : Literal) (first second : List Attempt) :
    tally l (first ++ second) = tally l first + tally l second :=
  List.countP_append

namespace Solver

variable {s s' : Solver} {c : Clause}

theorem Evolves.occurrences (evolves : s.Evolves s') (a : Atom) :
    s'.atoms.occurrences a = s.atoms.occurrences a := by
  have kept (t t' : AtomTable) (change : AtomTable.Change t t')
      (same : t.occurrences a = s.atoms.occurrences a) :
      t'.occurrences a = s.atoms.occurrences a :=
    (change.occurrences a).trans same
  exact evolves.keeps kept rfl

theorem occurrences_foldl (known : ∀ l ∈ c, l.natAbs < s.atoms.size) (a : Atom) :
    (c.foldl noteOccurrence s).atoms.occurrences a =
      ((s.atoms.occurrences a).1 + c.countP fun l => l.natAbs = a ∧ l.polarity = false,
        (s.atoms.occurrences a).2 + c.countP fun l => l.natAbs = a ∧ l.polarity = true) := by
  induction c generalizing s with
  | nil => rfl
  | cons l rest ih =>
    have size : (s.noteOccurrence l).atoms.size = s.atoms.size :=
      (s.atoms.noteOccurrence_same l).size_eq
    have later := ih (s := s.noteOccurrence l) fun m member =>
      size ▸ known m (List.mem_cons_of_mem l member)
    have first := AtomTable.occurrences_noteOccurrence (known l List.mem_cons_self) a
    rw [List.foldl_cons, later]
    simp only [noteOccurrence, first, List.countP_cons, List.countP_nil, Prod.mk.injEq]
    constructor <;> omega

theorem occurrences_seed (seeding : s.settings.occurrenceSeeding = true)
    (known : ∀ l ∈ c, l ≠ 0 ∧ l.natAbs < s.atoms.size) (a : Atom) :
    (s.seed c).atoms.occurrences a =
      ((s.atoms.occurrences a).1 + c.count (-(a : Int)),
        (s.atoms.occurrences a).2 + c.count (a : Int)) := by
  have negatives : (c.countP fun l => l.natAbs = a ∧ Literal.polarity l = false) =
      c.count (-(a : Int)) := by
    refine List.countP_congr fun l member => ?_
    rw [decide_eq_true_eq, beq_iff_eq, Literal.eq_neg_iff]
  have positives : (c.countP fun l => l.natAbs = a ∧ Literal.polarity l = true) =
      c.count (a : Int) := by
    refine List.countP_congr fun l member => ?_
    rw [decide_eq_true_eq, beq_iff_eq, Literal.eq_natCast_iff (known l member).1]
  rw [seed, if_pos seeding, occurrences_foldl fun l member => (known l member).2, negatives,
    positives]

theorem isCounted_of_checkAtoms {count : Nat} {failure : Failure}
    (refused : c.checkAtoms count = .error failure) (d : Clause) :
    Attempt.isCounted (d, .error failure) = false := by
  induction c with
  | nil => cases refused
  | cons l rest ih =>
    rw [Clause.checkAtoms] at refused
    split at refused
    · cases refused
      rfl
    · split at refused
      · cases refused
        rfl
      · exact ih refused

theorem isCounted_of_refuses {store store' : ClauseStore} {failure : Failure}
    (refuses : store.Refuses c .formula failure store') (d : Clause) :
    Attempt.isCounted (d, .error failure) = true := by
  cases refuses <;> rfl

theorem isCounted_addReduced (s : Solver) (c d : Clause) :
    Attempt.isCounted (d, (s.addReduced c).1) = true := by
  have refused {s' : Solver} {failure : Failure} (nonempty : c ≠ [])
      (answer : s.insert c .formula none = (.error failure, s')) :
      Attempt.isCounted (d, .error failure) = true := by
    exact isCounted_of_refuses (insert_failed nonempty answer).reason d
  unfold addReduced
  split
  · rfl
  · split <;> rename_i answer
    · exact refused (by simp) answer
    · rfl
  · split <;> rename_i answer
    · exact refused ‹_› answer
    · rfl

theorem addClause_cases (s : Solver) (c : Clause) :
    Attempt.isCounted (c, (s.addClause c).1) = false ∧ (s.addClause c).2.atoms = s.atoms ∨
      Attempt.isCounted (c, (s.addClause c).1) = true ∧
        (∀ l ∈ c.normalise, l ≠ 0 ∧ l.natAbs < s.atoms.size) ∧
        s.addClause c = (s.seed c.normalise).prepare.addReduced (c.normalise.filter fun l =>
          (s.seed c.normalise).prepare.atoms.literalValue l != some false) := by
  unfold addClause
  simp only
  split
  · exact .inl ⟨rfl, s.atoms_note ..⟩
  · split
    · rename_i failure checked
      obtain ⟨journal, noted⟩ := s.noteFailure_eq failure
      exact .inl ⟨isCounted_of_checkAtoms checked c, by rw [noted]⟩
    · rename_i checked
      exact .inr ⟨isCounted_addReduced .., Clause.checkAtoms_ok checked, rfl⟩

def Counts (s : Solver) (attempts : List Attempt) (s' : Solver) : Prop :=
  s.settings.occurrenceSeeding = true → s'.settings.occurrenceSeeding = true ∧
    ∀ a : Nat, s'.atoms.occurrences a =
      ((s.atoms.occurrences a).1 + tally (-(a : Int)) attempts,
        (s.atoms.occurrences a).2 + tally (a : Int) attempts)

theorem Counts.of_evolves (evolves : s.Evolves s')
    (settings : s'.settings = s.settings) : s.Counts [] s' :=
  fun seeding => ⟨settings ▸ seeding, fun a => evolves.occurrences a⟩

theorem Counts.trans {s'' : Solver} {first second : List Attempt} (before : s.Counts first s')
    (after : s'.Counts second s'') : s.Counts (first ++ second) s'' := by
  intro seeding
  obtain ⟨seeding', counts⟩ := before seeding
  obtain ⟨seeding'', counts'⟩ := after seeding'
  refine ⟨seeding'', fun a => ?_⟩
  rw [counts', counts, tally_append, tally_append, Nat.add_assoc, Nat.add_assoc]

theorem addClause_counts (s : Solver) (c : Clause) :
    s.Counts [(c, (s.addClause c).1)] (s.addClause c).2 := by
  intro seeding
  have settings : (s.addClause c).2.settings = s.settings := (s.addClause_serves c).setup.1
  refine ⟨settings ▸ seeding, fun a => ?_⟩
  rcases s.addClause_cases c with ⟨ignored, same⟩ | ⟨counted, known, added⟩
  · simp [tally, ignored, same]
  · obtain ⟨sorted, mem⟩ := c.normalise_spec
    have evolves : (s.seed c.normalise).Evolves (s.addClause c).2 := by
      rw [added]
      exact (evolves_prepare _).trans (evolves_addReduced ..)
    rw [evolves.occurrences, occurrences_seed seeding known, (Clause.nodup_of_sorted sorted).count,
      (Clause.nodup_of_sorted sorted).count]
    simp [tally, counted, mem]

theorem counts_relates : Relates Counts where
  refl s := .of_evolves (.refl s) rfl
  trans := .trans
  note s _ _ _ := .of_evolves (s.evolves_note ..) (s.sameFrame_note ..).setup.1
  ensureAtoms s a := .of_evolves (s.evolves_introduce _) (s.ensureAtoms_serves a).setup.1
  addClause := addClause_counts

theorem sameSetup_applyConsequences (s : Solver) : s.SameSetup s.applyConsequences.2 := by
  have drawn := s.sameFrame_propagate.setup
  unfold applyConsequences
  split
  · rename_i answer
    exact drawn.answered answer
  · rename_i answer
    exact drawn.answered answer
  · rename_i key s' answer
    have counted : s'.SameSetup s'.countConflict := .of_eq rfl rfl
    have analysed := ((drawn.answered answer).trans counted).trans
      (analyse_steps [] s'.countConflict key).1.sameSetup
    split <;> rename_i answer' <;> exact analysed.answered answer'

theorem sameSetup_followConsequences (s : Solver) : s.SameSetup s.followConsequences := by
  have drawn := s.sameSetup_applyConsequences
  unfold followConsequences
  split
  · rename_i answer
    split
    · exact (drawn.answered answer).trans (sameFrame_assign ..).setup
    · exact drawn.answered answer
  · rename_i answer
    exact drawn.answered answer

theorem settings_perform (s : Solver) {call : Call}
    (apart : ∀ settings, call ≠ .configure settings) :
    (s.perform call).settings = s.settings := by
  cases call with
  | freshAtom => exact s.freshAtom_serves.setup.1
  | ensureAtoms a => exact (s.ensureAtoms_serves a).setup.1
  | addClause c => exact (s.addClause_serves c).setup.1
  | readDimacs file => exact (s.readDimacs_serves file).setup.1
  | solve passes => exact (solve_steps [] s passes).sameSetup.1
  | takeDecision => exact s.sameFrame_takeDecision.setup.1
  | propagate => exact s.sameFrame_propagate.setup.1
  | propagateLiteral l => exact (s.sameFrame_propagateLiteral l).setup.1
  | analyse key => exact (analyse_steps [] s key).1.sameSetup.1
  | applyConsequences => exact s.sameSetup_followConsequences.1
  | pushLevel => rfl
  | assign l source => exact (s.sameFrame_assign l source).setup.1
  | backjump n => exact (s.sameFrame_backjump n).setup.1
  | clearDecisions => exact (s.sameFrame_backjump 0).setup.1
  | restart => exact s.sameFrame_restart.setup.1
  | raiseAtom a => rfl
  | decayAtoms => rfl
  | configure settings => exact absurd rfl (apart settings)
  | outside => rfl

def attemptedBy (s : Solver) : Call → List Attempt
  | .addClause c => [(c, (s.addClause c).1)]
  | .readDimacs file => s.linesAttempts (Text.lines file)
  | _ => []

def attemptedByAll : Solver → List Call → List Attempt
  | _, [] => []
  | s, call :: rest => s.attemptedBy call ++ attemptedByAll (s.perform call) rest

def KeepsSeeding (calls : List Call) : Prop :=
  ∀ settings, .configure settings ∈ calls → settings.occurrenceSeeding = true

theorem perform_counts (s : Solver) (call : Call)
    (kept : ∀ settings, call = .configure settings → settings.occurrenceSeeding = true) :
    s.Counts (s.attemptedBy call) (s.perform call) := by
  rcases call.building with ⟨c, rfl⟩ | ⟨file, rfl⟩ | ⟨apart, unread⟩
  · exact s.addClause_counts c
  · exact counts_relates.readDimacs s file
  · have evolves := evolves_perform (s := s) apart unread
    have none : s.attemptedBy call = [] := by
      cases call <;> simp_all [attemptedBy]
    rw [none]
    by_cases configures : ∃ settings, call = .configure settings
    · obtain ⟨settings, rfl⟩ := configures
      exact fun _ => ⟨kept settings rfl, fun a => evolves.occurrences a⟩
    · exact .of_evolves evolves (s.settings_perform (not_exists.1 configures))

theorem performAll_counts (s : Solver) {calls : List Call} (kept : KeepsSeeding calls) :
    s.Counts (s.attemptedByAll calls) (s.performAll calls) := by
  induction calls generalizing s with
  | nil => exact counts_relates.refl s
  | cons call rest ih =>
    have first := s.perform_counts call fun settings configures =>
      kept settings (configures ▸ List.mem_cons_self)
    exact first.trans (ih (s.perform call) fun settings member =>
      kept settings (List.mem_cons_of_mem call member))

/-- The occurrences of a literal are the clauses counted that have it. A tautology and a clause that
is refused, but for want of room or of a key, leave counts, activities and phases as they were. -/
theorem performAll_occurrences {settings : Settings} {calls : List Call}
    (seeding : settings.occurrenceSeeding = true) (kept : KeepsSeeding calls) :
    (∀ a : Nat, ((new settings).performAll calls).atoms.occurrences a =
      (tally (-(a : Int)) ((new settings).attemptedByAll calls),
        tally (a : Int) ((new settings).attemptedByAll calls))) ∧
      ∀ c, Attempt.isCounted (c, (((new settings).performAll calls).addClause c).1) = false →
        (((new settings).performAll calls).addClause c).2.atoms =
          ((new settings).performAll calls).atoms := by
  constructor
  · intro a
    have none : (new settings).atoms.occurrences a = (0, 0) := by
      cases a <;> rfl
    obtain ⟨-, counts⟩ := (new settings).performAll_counts kept seeding
    rw [counts, none, Nat.zero_add, Nat.zero_add]
  · intro c ignored
    rcases ((new settings).performAll calls).addClause_cases c with ⟨-, same⟩ | ⟨counted, -⟩
    · exact same
    · cases ignored.symm.trans counted

def singleClause : Settings := { occurrenceSeeding := true, clauseLimit := 1 }

def overfullCalls : List Call := [.ensureAtoms 2, .addClause [1, 2], .addClause [-2, 1]]

theorem performAll_overfull :
    (new singleClause).performAll overfullCalls =
        ((((new singleClause).ensureAtoms 2).2.addNormal [1, 2]).2.addNormal [-2, 1]).2 ∧
      (new singleClause).attemptedByAll overfullCalls =
        [([1, 2], .ok .added), ([-2, 1], .error (.clauseLimit 1))] ∧
      (new singleClause).acceptedByAll overfullCalls = [[1, 2]] := by
  have normal : Clause.normalise [-2, 1] = [-2, 1] := Clause.normalise_of_sorted (by decide)
  have first : (((new singleClause).ensureAtoms 2).2.addNormal [1, 2]).1 = .ok .added := by
    decide +kernel
  have second : ((((new singleClause).ensureAtoms 2).2.addNormal [1, 2]).2.addNormal [-2, 1]).1 =
      .error (.clauseLimit 1) := by
    decide +kernel
  simp only [performAll, attemptedByAll, acceptedByAll, overfullCalls, List.foldl_cons,
    List.foldl_nil, perform, attemptedBy, acceptedBy, addClause_of_normal _ normalise_pair,
    addClause_of_normal _ normal, first, second]
  exact ⟨trivial, rfl, rfl⟩

theorem overfullCalls_occurrences :
    singleClause.occurrenceSeeding = true ∧ KeepsSeeding overfullCalls ∧
      (∀ a : Nat, ((new singleClause).performAll overfullCalls).atoms.occurrences a =
        (tally (-(a : Int)) [([1, 2], .ok .added), ([-2, 1], .error (.clauseLimit 1))],
          tally (a : Int) [([1, 2], .ok .added), ([-2, 1], .error (.clauseLimit 1))])) ∧
      (((new singleClause).performAll overfullCalls).addClause [-1, 1]).1 = .ok .tautology ∧
      (((new singleClause).performAll overfullCalls).addClause [-1, 1]).2.atoms =
        ((new singleClause).performAll overfullCalls).atoms := by
  have kept : KeepsSeeding overfullCalls := by simp [KeepsSeeding, overfullCalls]
  have normal : Clause.normalise [-1, 1] = [-1, 1] := Clause.normalise_of_sorted (by decide)
  have tautology : (((new singleClause).performAll overfullCalls).addClause [-1, 1]).1 =
      .ok .tautology := by
    rw [addClause_of_normal _ normal]
    rfl
  have seeding : singleClause.occurrenceSeeding = true := rfl
  obtain ⟨counts, ignored⟩ := performAll_occurrences seeding kept
  rw [performAll_overfull.2.1] at counts
  exact ⟨seeding, kept, counts, tautology, ignored _ (by rw [tautology]; rfl)⟩

theorem overfullCalls_not_accepted :
    ((new singleClause).performAll overfullCalls).atoms.occurrences 1 = (0, 2) ∧
      ((new singleClause).performAll overfullCalls).atoms.occurrences 2 = (1, 1) ∧
      (new singleClause).acceptedByAll overfullCalls = [[1, 2]] ∧
      ¬∀ a : Nat, ((new singleClause).performAll overfullCalls).atoms.occurrences a =
        (((new singleClause).acceptedByAll overfullCalls).countP (·.contains (-(a : Int))),
          ((new singleClause).acceptedByAll overfullCalls).countP (·.contains (a : Int))) := by
  obtain ⟨performed, -, accepted⟩ := performAll_overfull
  rw [performed, accepted]
  have positive : ((((new singleClause).ensureAtoms 2).2.addNormal [1, 2]).2.addNormal
      [-2, 1]).2.atoms.occurrences 1 = (0, 2) := by
    decide +kernel
  refine ⟨positive, by decide +kernel, rfl, fun all => ?_⟩
  rw [all 1] at positive
  cases positive

end Solver

end ClauseLearning
