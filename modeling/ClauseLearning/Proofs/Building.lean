import ClauseLearning.Proofs.AtomChanges
import ClauseLearning.Proofs.Surroundings

namespace ClauseLearning

theorem AtomTable.Change.size_le {t t' : AtomTable} (change : Change t t') : t.size ≤ t'.size := by
  cases change with
  | fresh =>
    unfold AtomTable.fresh
    simp only
    split
    · simp [size]
    · exact Nat.le_refl _
  | assign l level source => exact (t.size_assign l level source).ge
  | unassign a => exact (t.size_unassign a).ge
  | takeUnvalued => exact t.takeUnvalued_same.size_eq.ge
  | raise a => exact (t.raise_same a).size_eq.ge
  | decay => exact t.decay_same.size_eq.ge

namespace Solver

variable {s s' t u : Solver}

theorem size_le_perform (s : Solver) (call : Call) : s.atoms.size ≤ (s.perform call).atoms.size :=
  perform_keeps (s.atoms.size ≤ ·.size) (fun _ _ change le => le.trans change.size_le)
    (fun t l le => le.trans (t.noteOccurrence_same l).size_eq.ge) (Nat.le_refl _) call

theorem size_backjump (s : Solver) (n : Nat) : (s.backjump n).atoms.size = s.atoms.size := by
  have cleared (ls : List Literal) (s : Solver) :
      (ls.foldl unassign s).atoms.size = s.atoms.size := by
    induction ls generalizing s with
    | nil => rfl
    | cons l rest ih =>
      rw [List.foldl_cons, ih]
      simp [unassign]
  unfold backjump
  split
  · rfl
  · rw [cleared]
    simp

theorem size_prepare (s : Solver) : s.prepare.atoms.size = s.atoms.size := by
  have size := s.size_backjump 0
  unfold prepare clearDecisions
  simp only
  split <;> exact size

theorem freshAtom_of_room (room : s.atoms.size ≤ Atom.max) :
    ∃ s', s.freshAtom = (.ok s.atoms.size, s') ∧ s'.atoms.size = s.atoms.size + 1 := by
  have size := s.size_prepare
  unfold freshAtom AtomTable.fresh
  simp only [size, if_pos room]
  refine ⟨_, rfl, ?_⟩
  rw [← size]
  simp [modifyWatches, AtomTable.size]

theorem introduce_of_room (count : Nat) (room : s.atoms.size + count ≤ Atom.max + 1) :
    ∃ s', introduce count s = (.ok (), s') ∧ s'.atoms.size = s.atoms.size + count := by
  induction count generalizing s with
  | zero => exact ⟨s, rfl, rfl⟩
  | succ count ih =>
    obtain ⟨s₁, introduced, size₁⟩ := freshAtom_of_room (s := s) (by omega)
    obtain ⟨s₂, answer, size₂⟩ := ih (s := s₁) (by omega)
    refine ⟨s₂, ?_, by omega⟩
    rw [introduce, introduced]
    exact answer

theorem ensureAtoms_of_le {a : Nat} (le : a ≤ Atom.max) :
    ∃ s', s.ensureAtoms a = (.ok (), s') ∧ a < s'.atoms.size := by
  unfold ensureAtoms
  by_cases known : a < s.atoms.size
  · rw [Nat.sub_eq_zero_of_le known]
    exact ⟨s, rfl, known⟩
  · obtain ⟨s', answer, size⟩ := introduce_of_room (s := s) (a + 1 - s.atoms.size) (by omega)
    exact ⟨s', answer, by omega⟩

theorem ensureAtoms_of_lt {a : Nat} (known : a < s.atoms.size) :
    s.ensureAtoms a = (.ok (), s) := by
  rw [ensureAtoms, Nat.sub_eq_zero_of_le known]
  rfl

def SameButJournal (s t : Solver) : Prop := ∃ journal, t = { s with journal }

/-- Both calls answer the same, and leave solvers that differ in what they noted at most. -/
def Echoes {α : Type} (call call' : α × Solver) : Prop :=
  call'.1 = call.1 ∧ call.2.SameButJournal call'.2

namespace SameButJournal

theorem refl (s : Solver) : s.SameButJournal s := ⟨s.journal, rfl⟩

theorem symm (same : s.SameButJournal t) : t.SameButJournal s := by
  obtain ⟨journal, rfl⟩ := same
  exact ⟨s.journal, rfl⟩

theorem trans (first : s.SameButJournal t) (second : t.SameButJournal u) :
    s.SameButJournal u := by
  obtain ⟨journal, rfl⟩ := first
  obtain ⟨journal', rfl⟩ := second
  exact ⟨journal', rfl⟩

theorem note (s : Solver) (level : Level) (topic : Topic) (message : Unit → String) :
    s.SameButJournal (s.note level topic message) := s.note_eq level topic message

theorem atoms (same : s.SameButJournal t) : t.atoms = s.atoms := by
  obtain ⟨journal, rfl⟩ := same
  rfl

end SameButJournal

theorem Echoes.exists_eq {α : Type} {call call' : α × Solver} (echoes : Echoes call call') :
    ∃ a s t, call = (a, s) ∧ call' = (a, t) ∧ s.SameButJournal t :=
  ⟨call.1, call.2, call'.2, rfl, Prod.ext echoes.1 rfl, echoes.2⟩

theorem Unaware.echoes {α : Type} {call : Solver → α × Solver} (unaware : Unaware call)
    (same : s.SameButJournal t) : Echoes (call s) (call t) := by
  obtain ⟨journal, rfl⟩ := same
  obtain ⟨journal', answered⟩ := unaware s { s.surroundings with journal }
  obtain ⟨noted, kept⟩ := unaware.change.surroundings s
  have answer : call { s with journal } = _ := answered
  rw [answer]
  have around : (call s).2.surroundings = { s.surroundings with journal := noted } := kept
  have same : { s.surroundings with journal := journal' } =
      { (call s).2.surroundings with journal := journal' } := by rw [around]
  exact ⟨rfl, journal', congrArg (call s).2.within same⟩

theorem Unheeding.sameButJournal {change : Solver → Solver} (unheeding : Unheeding change)
    (same : s.SameButJournal t) : (change s).SameButJournal (change t) :=
  ((Unaware.answer () unheeding).echoes same).2

namespace SameButJournal

theorem noted (same : s.SameButJournal t) (level : Level) (topic : Topic)
    (message : Unit → String) :
    (s.note level topic message).SameButJournal (t.note level topic message) :=
  (note s level topic message).symm.trans (same.trans (note t level topic message))

theorem prepare (same : s.SameButJournal t) : s.prepare.SameButJournal t.prepare := by
  obtain ⟨journal, cleared⟩ := (backjump_unheeding 0).sameButJournal same
  unfold Solver.prepare clearDecisions
  simp only [cleared]
  split
  · exact ⟨journal, rfl⟩
  · exact ⟨journal, rfl⟩

theorem freshAtom (same : s.SameButJournal t) : Echoes s.freshAtom t.freshAtom := by
  obtain ⟨journal, prepared⟩ := same.prepare
  unfold Solver.freshAtom
  simp only [prepared]
  split
  · exact ⟨rfl, (noteFailure_unheeding _).sameButJournal ⟨journal, rfl⟩⟩
  · exact ⟨rfl, journal, rfl⟩

theorem introduce (same : s.SameButJournal t) (count : Nat) :
    Echoes (Solver.introduce count s) (Solver.introduce count t) := by
  induction count generalizing s t with
  | zero => exact ⟨rfl, same⟩
  | succ count ih =>
    obtain ⟨result, s', t', introduced, introduced', same'⟩ := same.freshAtom.exists_eq
    rw [Solver.introduce, Solver.introduce, introduced, introduced']
    cases result with
    | error failure => exact ⟨rfl, same'⟩
    | ok a => exact ih same'

theorem ensureAtoms (same : s.SameButJournal t) (a : Atom) :
    Echoes (s.ensureAtoms a) (t.ensureAtoms a) := by
  unfold Solver.ensureAtoms
  rw [same.atoms]
  exact same.introduce _

theorem ensureAtoms_of_le (same : s.SameButJournal t) {a : Atom} (le : a ≤ Atom.max) :
    ∃ s' t', s.ensureAtoms a = (.ok (), s') ∧ t.ensureAtoms a = (.ok (), t') ∧
      s'.SameButJournal t' := by
  obtain ⟨result, s', t', answer, answer', same'⟩ := (same.ensureAtoms a).exists_eq
  obtain ⟨s'', ok, -⟩ := Solver.ensureAtoms_of_le (s := s) le
  obtain ⟨rfl, rfl⟩ := Prod.mk.inj (answer.symm.trans ok)
  exact ⟨s', t', answer, answer', same'⟩

theorem seed (same : s.SameButJournal t) (c : Clause) :
    (s.seed c).SameButJournal (t.seed c) := by
  have counted : Unheeding fun s => c.foldl noteOccurrence s :=
    Unheeding.foldl (f := noteOccurrence) (fun l => .of_eq fun _ _ => rfl) c
  obtain ⟨journal, rfl⟩ := same
  by_cases seeding : s.settings.occurrenceSeeding = true
  · have seeded : s.seed c = c.foldl noteOccurrence s := if_pos seeding
    have seeded' : { s with journal }.seed c = c.foldl noteOccurrence { s with journal } :=
      if_pos seeding
    rw [seeded, seeded']
    exact counted.sameButJournal ⟨journal, rfl⟩
  · have unseeded : s.seed c = s := if_neg seeding
    have unseeded' : { s with journal }.seed c = { s with journal } := if_neg seeding
    rw [unseeded, unseeded']
    exact ⟨journal, rfl⟩

theorem addReduced (same : s.SameButJournal t) (c : Clause) :
    Echoes (s.addReduced c) (t.addReduced c) := by
  obtain ⟨result, s', t', stored, stored', same'⟩ :=
    ((insert_unaware c .formula none).echoes same).exists_eq
  match c, result with
  | [], _ =>
    obtain ⟨journal, noted⟩ := same.noted .info .clauses fun _ => "Empty clause added"
    simp only [Solver.addReduced, noted]
    exact ⟨rfl, journal, rfl⟩
  | [l], .error failure =>
    simp only [Solver.addReduced, stored, stored']
    exact ⟨rfl, same'⟩
  | [l], .ok key =>
    simp only [Solver.addReduced, stored, stored']
    exact ⟨rfl, ((assign_unaware l (.unit key)).echoes same').2⟩
  | l :: m :: rest, .error failure =>
    simp only [Solver.addReduced, stored, stored']
    exact ⟨rfl, same'⟩
  | l :: m :: rest, .ok key =>
    simp only [Solver.addReduced, stored, stored']
    exact ⟨rfl, same'⟩

theorem addClause (same : s.SameButJournal t) (c : Clause) :
    Echoes (s.addClause c) (t.addClause c) := by
  unfold Solver.addClause
  simp only [same.atoms]
  split
  · exact ⟨rfl, same.noted ..⟩
  · split
    · exact ⟨rfl, (noteFailure_unheeding _).sameButJournal same⟩
    · have prepared := (same.seed c.normalise).prepare
      simp only [prepared.atoms]
      exact prepared.addReduced _

end SameButJournal

inductive Build where
  | ensureAtoms (a : Atom)
  | addClause (c : Clause)
  deriving DecidableEq, Repr

def Build.clause? : Build → Option Clause
  | ensureAtoms _ => none
  | addClause c => some c

def Build.perform : Build → Solver → Except Failure Unit × Solver
  | ensureAtoms a, s => s.ensureAtoms a
  | addClause c, s =>
    match s.addClause c with
    | (.error failure, s) => (.error failure, s)
    | (.ok _, s) => (.ok (), s)

def build : List Build → Solver → Except Failure Unit × Solver
  | [], s => (.ok (), s)
  | call :: rest, s =>
    match call.perform s with
    | (.error failure, s) => (.error failure, s)
    | (.ok (), s) => build rest s

theorem build_append (first second : List Build) (s : Solver) :
    build (first ++ second) s = match build first s with
      | (.error failure, s) => (.error failure, s)
      | (.ok (), s) => build second s := by
  induction first generalizing s with
  | nil => rfl
  | cons call rest ih =>
    rw [List.cons_append, build, build]
    cases answer : call.perform s with
    | mk result s' =>
      cases result with
      | error failure => rfl
      | ok => exact ih s'

theorem build_singleton (call : Build) (s : Solver) : build [call] s = call.perform s := by
  rw [build]
  cases call.perform s with
  | mk result s' => cases result <;> rfl

theorem size_le_addClause (s : Solver) (c : Clause) :
    s.atoms.size ≤ (s.addClause c).2.atoms.size :=
  s.size_le_perform (.addClause c)

theorem build_of_known {calls : List Build}
    (known : ∀ a, .ensureAtoms a ∈ calls → a < s.atoms.size) :
    build calls s = build ((calls.filterMap Build.clause?).map .addClause) s := by
  induction calls generalizing s with
  | nil => rfl
  | cons call rest ih =>
    obtain ⟨first, later⟩ : (∀ a, call = .ensureAtoms a → a < s.atoms.size) ∧
        ∀ a, .ensureAtoms a ∈ rest → a < s.atoms.size :=
      ⟨fun a isCall => known a (isCall ▸ List.mem_cons_self),
        fun a member => known a (List.mem_cons_of_mem _ member)⟩
    cases call with
    | ensureAtoms a =>
      rw [build, Build.perform, ensureAtoms_of_lt (first a rfl)]
      exact ih later
    | addClause c =>
      have size := s.size_le_addClause c
      have added : Build.clause? (.addClause c) = some c := rfl
      rw [List.filterMap_cons_some added, List.map_cons, build, build, Build.perform]
      cases answer : s.addClause c with
      | mk result s' =>
        rw [answer] at size
        cases result with
        | error failure => rfl
        | ok => exact ih fun a member => (later a member).trans_le size

end Solver

end ClauseLearning
