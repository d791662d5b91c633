import ClauseLearning.Solver.Basic

/-!
Propagation draws the consequences of the literals on the trail. For a literal `l` it visits the
clauses which watch `-l`: each of them watches another literal instead if one is left that is not
false, and otherwise asserts its other watched literal, which may already be true or is a conflict.

Each literal visited is past the head of the trail for good, and each consequence takes an atom
without a value; so propagation ends.
-/

namespace ClauseLearning

inductive Visit where
  | moved
  | kept
  | conflict
  | failed (failure : Failure)

structure Walk where
  solver : Solver
  list : Array ClauseKey
  length : Nat

inductive Propagated where
  | complete
  | conflict (key : ClauseKey)
  deriving DecidableEq, Repr

namespace Solver

/-- The atoms without a value and the literals on the trail; an assignment moves an atom from the
former to the latter. -/
def capacity (s : Solver) : Nat := s.atoms.unvaluedCount + s.trail.literals.size

def SameProgress (s s' : Solver) : Prop :=
  s'.capacity = s.capacity ∧ s'.trail.head = s.trail.head

theorem SameProgress.refl (s : Solver) : s.SameProgress s := ⟨rfl, rfl⟩

theorem SameProgress.trans {s₁ s₂ s₃ : Solver} (first : s₁.SameProgress s₂)
    (second : s₂.SameProgress s₃) : s₁.SameProgress s₃ :=
  ⟨second.1.trans first.1, second.2.trans first.2⟩

theorem SameProgress.of_eq {s s' : Solver} (atoms : s'.atoms = s.atoms)
    (trail : s'.trail = s.trail) : s.SameProgress s' := by
  simp [SameProgress, capacity, atoms, trail]

theorem sameProgress_note (s : Solver) (level : Level) (topic : Topic)
    (message : Unit → String) : s.SameProgress (s.note level topic message) := by
  unfold note
  split
  · exact .of_eq rfl rfl
  · exact .refl s

theorem sameProgress_noteFailure (s : Solver) (failure : Failure) :
    s.SameProgress (s.noteFailure failure) := by
  unfold noteFailure
  split
  · exact .refl s
  · exact s.sameProgress_note ..

theorem sameProgress_assign (s : Solver) (l : Literal) (source : Source) :
    s.SameProgress (s.assign l source).2 := by
  unfold assign
  simp only
  split
  · rename_i atoms assigned
    refine .trans ?_ (sameProgress_note ..)
    have := AtomTable.unvaluedCount_assign assigned
    simp only [SameProgress, capacity, Trail.push, Array.size_push, and_true]
    omega
  · rename_i status atoms notAssigned answer
    have := AtomTable.assign_of_status answer notAssigned
    exact .of_eq this rfl

def imply (s : Solver) (l : Literal) (key : ClauseKey) : Solver :=
  let s := s.note .trace .propagation fun _ => l.text ++ " from " ++ key.text
  let s := (s.assign l (.propagation key)).2
  { s with counters := { s.counters with propagations := s.counters.propagations + 1 } }

theorem sameProgress_imply (s : Solver) (l : Literal) (key : ClauseKey) :
    s.SameProgress (s.imply l key) :=
  .trans (s.sameProgress_note ..) (.trans (sameProgress_assign ..) (.of_eq rfl rfl))

/-- Lets the clause of a key move its watch of `l`, if it has one, and answers with its literal in
front. -/
def moveWatch (s : Solver) (l : Literal) (key : ClauseKey) :
    Except Failure (Option (Option WatchStatus × Literal)) × Solver :=
  match s with
  | { clauses, .. } =>
    match clauses.change key fun c watches =>
        if c.first ≠ l ∧ c.second ≠ l then (none, c, watches)
        else
          match c.moveWatch s.atoms.value l.natAbs watches with
          | (status, c, watches) => (some (status, c.first), c, watches) with
    | (answer, clauses) => (answer, { s with clauses })

def visit (s : Solver) (l : Literal) (key : ClauseKey) : Visit × Solver :=
  match s.moveWatch (-l) key with
  | (.error _, s) => (.failed (.deadWatch (-l) key), s.noteFailure (.deadWatch (-l) key))
  | (.ok none, s) => (.failed (.strayWatch (-l) key), s.noteFailure (.strayWatch (-l) key))
  | (.ok (some (some _, _)), s) => (.moved, s)
  | (.ok (some (none, front)), s) =>
    match s.atoms.literalValue front with
    | some true => (.kept, s)
    | some false =>
      (.conflict, s.note .trace .propagation fun _ =>
        "Conflict on " ++ key.text ++ " from " ++ l.text)
    | none => (.kept, s.imply front key)

theorem moveWatch_of_error {s : Solver} {l : Literal} {key : ClauseKey} {failure : Failure}
    (dead : s.clauses.store.get key = .error failure) :
    s.moveWatch l key = (.error failure, s) := by
  simp only [moveWatch, WatchedStore.change, dead]

theorem moveWatch_of_ok {s : Solver} {l : Literal} {key : ClauseKey} {c : WatchedClause}
    (live : s.clauses.store.get key = .ok c) (watches : ¬(c.first ≠ l ∧ c.second ≠ l)) :
    s.moveWatch l key =
      (.ok (some ((c.moveWatch s.atoms.value l.natAbs s.clauses.watches).1,
          (c.moveWatch s.atoms.value l.natAbs s.clauses.watches).2.1.first)),
        { s with clauses :=
          ⟨s.clauses.store.modify key fun _ =>
              (c.moveWatch s.atoms.value l.natAbs s.clauses.watches).2.1,
            (c.moveWatch s.atoms.value l.natAbs s.clauses.watches).2.2⟩ }) := by
  simp only [moveWatch, WatchedStore.change, live, if_neg watches]

theorem moveWatch_of_stray {s : Solver} {l : Literal} {key : ClauseKey} {c : WatchedClause}
    (live : s.clauses.store.get key = .ok c) (stray : c.first ≠ l ∧ c.second ≠ l) :
    s.moveWatch l key = (.ok none, s.modifyStore (·.modify key fun _ => c)) := by
  simp only [moveWatch, WatchedStore.change, live, if_pos stray]
  rfl

/-- What a visit does. It changes no clause but that of the key. -/
inductive Visits (s : Solver) (l : Literal) (key : ClauseKey) : Visit × Solver → Prop
  | dead (failure : Failure) : Visits s l key (.failed failure, s.noteFailure failure)
  | stray (c : WatchedClause) (failure : Failure) : Visits s l key
      (.failed failure, (s.modifyStore (·.modify key fun _ => c)).noteFailure failure)
  | moved (c : WatchedClause) (watches : WatchLists) : Visits s l key
      (.moved, (s.modifyStore (·.modify key fun _ => c)).modifyWatches fun _ => watches)
  | kept (c : WatchedClause) : Visits s l key (.kept, s.modifyStore (·.modify key fun _ => c))
  | conflict (c : WatchedClause) : Visits s l key
      (.conflict, (s.modifyStore (·.modify key fun _ => c)).note .trace .propagation fun _ =>
        "Conflict on " ++ key.text ++ " from " ++ l.text)
  | implied (c : WatchedClause) (front : Literal) : Visits s l key
      (.kept, (s.modifyStore (·.modify key fun _ => c)).imply front key)

theorem visits_visit (s : Solver) (l : Literal) (key : ClauseKey) :
    s.Visits l key (s.visit l key) := by
  unfold visit
  cases live : s.clauses.store.get key with
  | error failure =>
    simp only [moveWatch_of_error live]
    exact .dead (.deadWatch (-l) key)
  | ok c =>
    by_cases stray : c.first ≠ -l ∧ c.second ≠ -l
    · simp only [moveWatch_of_stray live stray]
      exact .stray c (.strayWatch (-l) key)
    · simp only [moveWatch_of_ok live stray, WatchedClause.moveWatch]
      cases (c.turn (-l).natAbs).replacement? s.atoms.value with
      | some i => exact .moved ((c.turn (-l).natAbs).pointTo i) _
      | none =>
        simp only
        split
        · exact .kept (c.turn (-l).natAbs)
        · exact .conflict (c.turn (-l).natAbs)
        · exact .implied (c.turn (-l).natAbs) _

theorem sameProgress_visit (s : Solver) (l : Literal) (key : ClauseKey) :
    s.SameProgress (s.visit l key).2 := by
  have visits := s.visits_visit l key
  generalize s.visit l key = answer at visits
  cases visits with
  | dead failure => exact s.sameProgress_noteFailure failure
  | stray c failure => exact .trans (.of_eq rfl rfl) (sameProgress_noteFailure ..)
  | moved c watches => exact .of_eq rfl rfl
  | kept c => exact .of_eq rfl rfl
  | conflict c => exact .trans (.of_eq rfl rfl) (sameProgress_note ..)
  | implied c front => exact .trans (.of_eq rfl rfl) (sameProgress_imply ..)

/-- Visits the keys from position `i` on. A key whose watch moved goes behind the others, and the
last of them takes its place. -/
def walk (l : Literal) (w : Walk) (i : Nat) : Except Failure Propagated × Walk :=
  match w with
  | ⟨s, list, length⟩ =>
    if i < length then
      match list[i]? with
      | none => (.ok .complete, ⟨s, list, length⟩)
      | some key =>
        match s.visit l key with
        | (.moved, s) => walk l ⟨s, list.swapIfInBounds i (length - 1), length - 1⟩ i
        | (.kept, s) => walk l ⟨s, list, length⟩ (i + 1)
        | (.conflict, s) => (.ok (.conflict key), ⟨s, list, length⟩)
        | (.failed failure, s) => (.error failure, ⟨s, list, length⟩)
    else (.ok .complete, ⟨s, list, length⟩)
termination_by w.length - i

theorem sameProgress_walk (l : Literal) (w : Walk) (i : Nat) :
    w.solver.SameProgress (walk l w i).2.solver := by
  fun_induction walk l w i with
  | case1 => exact .refl _
  | case2 i s list length inside key found s' answer ih =>
    have := s.sameProgress_visit l key
    rw [answer] at this
    exact this.trans ih
  | case3 i s list length inside key found s' answer ih =>
    have := s.sameProgress_visit l key
    rw [answer] at this
    exact this.trans ih
  | case4 i s list length inside key found s' answer =>
    have := s.sameProgress_visit l key
    rwa [answer] at this
  | case5 i s list length inside key found failure s' answer =>
    have := s.sameProgress_visit l key
    rwa [answer] at this
  | case6 => exact .refl _

def propagateLiteral (s : Solver) (l : Literal) : Except Failure Propagated × Solver :=
  match s with
  | { clauses := ⟨store, watches⟩, .. } =>
    let (list, watches) := watches.take (-l)
    let s := { s with clauses := ⟨store, watches⟩ }
    match walk l ⟨s, list, list.size⟩ 0 with
    | (result, ⟨s, list, length⟩) =>
      (result, s.modifyWatches (·.restore (-l) (list.shrink length)))

theorem sameProgress_propagateLiteral (s : Solver) (l : Literal) :
    s.SameProgress (s.propagateLiteral l).2 := by
  obtain ⟨settings, status, counters, atoms, ⟨store, watches⟩, trail, buffer, schedule, random,
    terminate, polls, learned, journal⟩ := s
  exact .trans (.trans (.of_eq rfl rfl) (sameProgress_walk l _ 0)) (.of_eq rfl rfl)

/-- Draws the consequences of every literal on the trail. The head stays at a literal whose
consequences include a conflict. -/
def propagate (s : Solver) : Except Failure Propagated × Solver :=
  match _next : s.trail.next? with
  | none => (.ok .complete, s)
  | some l =>
    match _answer : s.propagateLiteral l with
    | (.ok .complete, after) => propagate { after with trail := after.trail.advance }
    | (result, after) => (result, after)
termination_by s.capacity - s.trail.head
decreasing_by
  have progress := s.sameProgress_propagateLiteral l
  rw [_answer] at progress
  have inside := (Array.getElem?_eq_some_iff.1 _next).1
  simp only [SameProgress, capacity] at progress
  simp only [capacity, Trail.advance]
  omega

end Solver

end ClauseLearning
