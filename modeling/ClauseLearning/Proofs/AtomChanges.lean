import ClauseLearning.Proofs.Alignment

namespace ClauseLearning

inductive AtomTable.Change : AtomTable → AtomTable → Prop
  | fresh (t : AtomTable) : Change t t.fresh.2
  | assign (t : AtomTable) (l : Literal) (level : Nat) (source : Source) :
      Change t (t.assign l level source).2
  | unassign (t : AtomTable) (a : Atom) : Change t (t.unassign a)
  | takeUnvalued (t : AtomTable) : Change t t.takeUnvalued.2
  | raise (t : AtomTable) (a : Atom) : Change t (t.raise a)
  | decay (t : AtomTable) : Change t t.decay

namespace Solver

/-- The table of atoms went through operations of its own, and nothing else happened to it. -/
structure Evolves (s s' : Solver) : Prop where
  changes : Relation.ReflTransGen AtomTable.Change s.atoms s'.atoms

namespace Evolves

variable {s s' s'' : Solver}

theorem of_eq (atoms : s'.atoms = s.atoms) : s.Evolves s' := ⟨by rw [atoms]⟩

theorem refl (s : Solver) : s.Evolves s := .of_eq rfl

theorem trans (first : s.Evolves s') (second : s'.Evolves s'') : s.Evolves s'' :=
  ⟨first.changes.trans second.changes⟩

theorem after (evolves : s'.Evolves s'') (atoms : s'.atoms = s.atoms) : s.Evolves s'' :=
  .trans (.of_eq atoms) evolves

theorem single (change : AtomTable.Change s.atoms s'.atoms) : s.Evolves s' :=
  ⟨.single change⟩

theorem answered {α : Type} {call : α × Solver} {result : α} (evolved : s.Evolves call.2)
    (answer : call = (result, s')) : s.Evolves s' := by
  rwa [answer] at evolved

theorem keeps {holds : AtomTable → Prop}
    (kept : ∀ t t', AtomTable.Change t t' → holds t → holds t') (evolves : s.Evolves s')
    (start : holds s.atoms) : holds s'.atoms := by
  have lasting {t t' : AtomTable} (changes : Relation.ReflTransGen AtomTable.Change t t')
      (start : holds t) : holds t' := by
    induction changes with
    | refl => exact start
    | tail _ change ih => exact kept _ _ change ih
  exact lasting evolves.changes start

theorem foldl {α : Type} {f : Solver → α → Solver} (each : ∀ (s : Solver) a, s.Evolves (f s a))
    (s : Solver) (xs : List α) : s.Evolves (xs.foldl f s) := by
  induction xs generalizing s with
  | nil => exact .refl s
  | cons x rest ih => exact (each s x).trans (ih (f s x))

end Evolves

section Evolution

variable (s : Solver)

theorem evolves_note (level : Level) (topic : Topic) (message : Unit → String) :
    s.Evolves (s.note level topic message) :=
  .of_eq (s.atoms_note ..)

theorem evolves_noteFailure (failure : Failure) : s.Evolves (s.noteFailure failure) := by
  obtain ⟨journal, noted⟩ := s.noteFailure_eq failure
  rw [noted]
  exact .of_eq rfl

theorem evolves_assign (l : Literal) (source : Source) : s.Evolves (s.assign l source).2 := by
  have changed := AtomTable.Change.assign s.atoms l s.trail.level source
  unfold assign
  simp only
  split <;> rename_i atoms answer <;> rw [answer] at changed
  · have valued : s.Evolves { s with atoms, trail := s.trail.push l } := .single changed
    exact valued.trans (evolves_note ..)
  · exact .single changed

theorem evolves_imply (l : Literal) (key : ClauseKey) : s.Evolves (s.imply l key) :=
  .trans (s.evolves_note ..) (.trans (evolves_assign ..) (.of_eq rfl))

theorem evolves_visit (l : Literal) (key : ClauseKey) : s.Evolves (s.visit l key).2 := by
  have visits := s.visits_visit l key
  generalize s.visit l key = answer at visits
  cases visits with
  | dead failure => exact s.evolves_noteFailure failure
  | stray c failure => exact .after (evolves_noteFailure ..) rfl
  | moved c watches => exact .of_eq rfl
  | kept c => exact .of_eq rfl
  | conflict c => exact .after (evolves_note ..) rfl
  | implied c front => exact .after (evolves_imply ..) rfl

theorem evolves_walk (l : Literal) (w : Walk) (i : Nat) :
    w.solver.Evolves (walk l w i).2.solver :=
  walk_related .refl .trans (evolves_visit · l) w i

theorem evolves_propagateLiteral (l : Literal) : s.Evolves (s.propagateLiteral l).2 := by
  have walked := evolves_walk l ⟨s.modifyWatches fun w => (w.take (-l)).2,
    s.clauses.watches.watchers (-l), (s.clauses.watches.watchers (-l)).size⟩ 0
  rw [propagateLiteral_eq rfl]
  exact .trans (.after walked rfl) (.of_eq rfl)

theorem evolves_propagate : s.Evolves s.propagate.2 :=
  propagate_related .refl .trans evolves_propagateLiteral (fun _ => .of_eq rfl) s

theorem evolves_takeUnvalued : s.Evolves s.takeUnvalued.2 := .single (.takeUnvalued s.atoms)

theorem evolves_chooseAtom : s.Evolves s.chooseAtom.2 := by
  unfold chooseAtom
  split
  · simp only [chance]
    split <;> rename_i answer <;> obtain ⟨-, rfl⟩ := Prod.mk.inj answer
    · exact .of_eq rfl
    · exact .after (evolves_takeUnvalued _) rfl
  · exact s.evolves_takeUnvalued

theorem evolves_choosePolarity (a : Atom) : s.Evolves (s.choosePolarity a).2 := by
  unfold choosePolarity
  split <;> exact .of_eq rfl

theorem evolves_takeDecision : s.Evolves s.takeDecision.2 := by
  have chosen := s.evolves_chooseAtom
  unfold takeDecision
  split
  · rename_i answer
    exact chosen.answered answer
  · rename_i a s' answer
    have counted : s'.Evolves (s'.choosePolarity a).2.countDecision.pushLevel :=
      (s'.evolves_choosePolarity a).trans (.of_eq rfl)
    exact (chosen.answered answer).trans
      (counted.trans ((evolves_note ..).trans (evolves_assign ..)))

theorem evolves_unassign (l : Literal) : s.Evolves (s.unassign l) :=
  .trans (s.evolves_note ..) (.single (.unassign _ l.natAbs))

theorem evolves_backjump (n : Nat) : s.Evolves (s.backjump n) := by
  unfold backjump
  split
  · exact .refl s
  · exact .trans (s.evolves_note ..) (.after (.foldl evolves_unassign _ _) rfl)

theorem evolves_restart : s.Evolves s.restart := by
  obtain ⟨counters, journal, restarted⟩ := s.restart_eq
  rw [restarted]
  exact .trans (s.evolves_backjump 0) (.of_eq rfl)

theorem evolves_restartIfDue : s.Evolves s.restartIfDue.2 := by
  unfold restartIfDue
  simp only
  split
  · exact .after (evolves_restart _) rfl
  · exact .of_eq rfl

theorem Merges.evolves {s s' : Solver} (merges : s.Merges s') : s.Evolves s' := by
  obtain ⟨buffer, journal, raised, rfl⟩ := merges
  exact .of_eq rfl

theorem evolves_raiseAtom (a : Atom) : s.Evolves (s.raiseAtom a) := .single (.raise s.atoms a)

theorem evolves_decayAtoms : s.Evolves s.decayAtoms := .single (.decay s.atoms)

theorem atoms_decayClauses : s.decayClauses.atoms = s.atoms := by
  unfold decayClauses noteRescale
  simp only
  split
  · exact s.atoms_note ..
  · rfl

theorem evolves_rewardAtoms (c : Clause) : s.Evolves (s.rewardAtoms c) := by
  unfold rewardAtoms
  exact (Evolves.foldl evolves_raiseAtom s _).trans
    ((evolves_decayAtoms _).trans (.of_eq (atoms_decayClauses _)))

theorem evolves_insert (c : Clause) (origin : ClauseOrigin) (blockDistance : Option Nat) :
    s.Evolves (s.insert c origin blockDistance).2 := by
  obtain ⟨journal, learned, inserted⟩ := s.insert_eq c origin blockDistance
  rw [inserted]
  exact .of_eq rfl

theorem evolves_assertionLevel (c : Clause) : s.Evolves (s.assertionLevel c).2 := by
  unfold assertionLevel noteError
  simp only
  split
  · exact .refl s
  · exact s.evolves_noteFailure _

theorem evolves_learn (c : Clause) : s.Evolves (s.learn c).2 := by
  match c with
  | [] => exact s.evolves_noteFailure .emptyClause
  | [l] =>
    have stored := (s.evolves_backjump 0).trans (evolves_insert _ [l] .resolution none)
    simp only [learn]
    split <;> rename_i answer <;> exact stored.answered answer
  | l :: m :: rest =>
    have leveled := s.evolves_assertionLevel (l :: m :: rest)
    simp only [learn]
    split
    · rename_i answer
      exact leveled.answered answer
    · rename_i n s' answer
      have stored := ((leveled.answered answer).trans (s'.evolves_backjump n)).trans
        (evolves_insert _ (l :: m :: rest) .resolution
          (some (Clause.blockDistance s'.atoms.level (l :: m :: rest))))
      split <;> rename_i answer' <;> exact stored.answered answer'

theorem evolves_analyse (key : ClauseKey) : s.Evolves (s.analyse key).2 := by
  unfold analyse
  split
  · simp only
    have derived := (s.evolves_note .trace .analysis fun _ =>
      "Analysis of " ++ key.text ++ " at level " ++ toString s.trail.level).trans
        (merges_derive _ key).evolves
    split <;> rename_i answer
    · exact derived.answered answer
    · exact (derived.answered answer).trans
        ((evolves_rewardAtoms ..).trans ((evolves_note ..).trans (evolves_learn ..)))
  · exact s.evolves_note ..

theorem evolves_applyConsequences : s.Evolves s.applyConsequences.2 := by
  have drawn := s.evolves_propagate
  unfold applyConsequences
  split
  · rename_i answer
    exact drawn.answered answer
  · rename_i answer
    exact drawn.answered answer
  · rename_i key s' answer
    have counted : s'.Evolves s'.countConflict := .of_eq rfl
    have analysed := ((drawn.answered answer).trans counted).trans (evolves_analyse _ key)
    split <;> rename_i answer' <;> exact analysed.answered answer'

theorem evolves_shouldStop : s.Evolves s.shouldStop.2 := by
  obtain ⟨journal, polls, same⟩ := s.shouldStop_eq
  rw [same]
  exact .of_eq rfl

theorem evolves_advance : s.Evolves s.advance.2 := by
  have asked := s.evolves_shouldStop
  unfold advance
  split
  · rename_i answer
    exact asked.answered answer
  · rename_i s' answer
    have decided := (asked.answered answer).trans s'.evolves_takeDecision
    split <;> rename_i answer'
    · exact decided.answered answer'
    · exact (decided.answered answer').trans (.of_eq rfl)

theorem evolves_assertLesson (l : Literal) (source : Source) :
    s.Evolves (s.assertLesson l source).2 := by
  have assigned := s.evolves_assign l source
  unfold assertLesson
  split <;> rename_i answer
  · exact assigned.answered answer
  · exact (assigned.answered answer).trans (evolves_noteFailure _ (.noAssertion l))

theorem evolves_reduce : s.Evolves s.reduce.2 := by
  obtain ⟨count, journal, counters, reduced⟩ := s.reduce_eq
  rw [reduced]
  exact .of_eq rfl

theorem evolves_maintain : s.Evolves s.maintain.2 := by
  unfold maintain
  simp only
  split
  · have reduced := s.evolves_restartIfDue.trans (evolves_reduce _)
    split <;> rename_i answer <;> exact reduced.answered answer
  · exact s.evolves_restartIfDue

theorem evolves_heed (l : Literal) (source : Source) : s.Evolves (s.heed l source).2 := by
  have asserted := s.evolves_assertLesson l source
  unfold heed
  split <;> rename_i s' answer
  · exact asserted.answered answer
  · have maintained := (asserted.answered answer).trans s'.evolves_maintain
    split <;> rename_i answer' <;> exact maintained.answered answer'

theorem evolves_pass : s.Evolves s.pass.2 := by
  have drawn := s.countPass.evolves_applyConsequences.after (s := s) rfl
  unfold pass
  split <;> rename_i s' answer
  · exact drawn.answered answer
  · exact (drawn.answered answer).trans s'.evolves_advance
  · exact (drawn.answered answer).trans (.of_eq rfl)
  · exact (drawn.answered answer).trans (evolves_heed ..)
  · exact (drawn.answered answer).trans (evolves_heed ..)

theorem evolves_run (passes : Nat) : s.Evolves (run passes s).2 := by
  induction passes generalizing s with
  | zero => exact .refl s
  | succ passes ih =>
    have passed := s.evolves_pass
    rw [run]
    split <;> rename_i s' answer
    · exact passed.answered answer
    · exact passed.answered answer
    · exact (passed.answered answer).trans (ih s')

theorem evolves_solve (passes : Nat) : s.Evolves (s.solve passes).2 := by
  have searched := (s.start.evolves_run passes).after (s := s) rfl
  unfold solve
  split
  · exact .refl s
  · split <;> rename_i s' answer
    · exact searched.answered answer
    · exact searched.answered answer
    · exact (searched.answered answer).trans (s'.evolves_note ..)

theorem evolves_prepare : s.Evolves s.prepare := by
  unfold prepare clearDecisions
  simp only
  split
  · exact s.evolves_backjump 0
  · exact (s.evolves_backjump 0).trans (.of_eq rfl)

theorem evolves_freshAtom : s.Evolves s.freshAtom.2 := by
  have introduced := AtomTable.Change.fresh s.prepare.atoms
  unfold freshAtom
  simp only
  split <;> rename_i atoms answer <;> rw [answer] at introduced
  · have kept : s.prepare.Evolves { s.prepare with atoms } := .single introduced
    exact s.evolves_prepare.trans (kept.trans (evolves_noteFailure ..))
  · exact s.evolves_prepare.trans (.single introduced)

theorem evolves_introduce (count : Nat) : s.Evolves (introduce count s).2 := by
  induction count generalizing s with
  | zero => exact .refl s
  | succ count ih =>
    have introduced := s.evolves_freshAtom
    rw [introduce]
    split <;> rename_i s' answer
    · exact introduced.answered answer
    · exact (introduced.answered answer).trans (ih s')

theorem evolves_addReduced (c : Clause) : s.Evolves (s.addReduced c).2 := by
  have stored := s.evolves_insert c .formula none
  unfold addReduced
  split
  · exact (s.evolves_note ..).trans (.of_eq rfl)
  · split <;> rename_i answer
    · exact stored.answered answer
    · exact (stored.answered answer).trans (evolves_assign ..)
  · split <;> rename_i answer <;> exact stored.answered answer

theorem evolves_addClause (c : Clause) :
    s.Evolves (s.addClause c).2 ∨ (s.seed c.normalise).Evolves (s.addClause c).2 := by
  unfold addClause
  simp only
  split
  · exact .inl (s.evolves_note ..)
  · split
    · exact .inl (s.evolves_noteFailure _)
    · exact .inr ((evolves_prepare _).trans (evolves_addReduced ..))

theorem evolves_followConsequences : s.Evolves s.followConsequences := by
  have drawn := s.evolves_applyConsequences
  unfold followConsequences
  split
  · rename_i answer
    split
    · exact (drawn.answered answer).trans (evolves_assign ..)
    · exact drawn.answered answer
  · rename_i answer
    exact drawn.answered answer

end Evolution

theorem evolves_perform {s : Solver} {call : Call} (apart : ∀ c, call ≠ .addClause c)
    (unread : ∀ file, call ≠ .readDimacs file) : s.Evolves (s.perform call) := by
  cases call with
  | freshAtom => exact s.evolves_freshAtom
  | ensureAtoms a => exact s.evolves_introduce _
  | addClause c => exact absurd rfl (apart c)
  | readDimacs file => exact absurd rfl (unread file)
  | solve passes => exact s.evolves_solve passes
  | takeDecision => exact s.evolves_takeDecision
  | propagate => exact s.evolves_propagate
  | propagateLiteral l => exact s.evolves_propagateLiteral l
  | analyse key => exact s.evolves_analyse key
  | applyConsequences => exact s.evolves_followConsequences
  | pushLevel => exact .of_eq rfl
  | assign l source => exact s.evolves_assign l source
  | backjump n => exact s.evolves_backjump n
  | clearDecisions => exact s.evolves_backjump 0
  | restart => exact s.evolves_restart
  | raiseAtom a => exact s.evolves_raiseAtom a
  | decayAtoms => exact s.evolves_decayAtoms
  | configure => exact .of_eq rfl
  | outside => exact .of_eq rfl

theorem perform_keeps (holds : AtomTable → Prop)
    (kept : ∀ t t', AtomTable.Change t t' → holds t → holds t')
    (noted : ∀ t l, holds t → holds (t.noteOccurrence l)) {s : Solver} (start : holds s.atoms)
    (call : Call) : holds (s.perform call).atoms := by
  have seeded (s : Solver) (c : Clause) (start : holds s.atoms) : holds (s.seed c).atoms := by
    unfold seed
    split
    · induction c generalizing s with
      | nil => exact start
      | cons l rest ih => exact ih (s.noteOccurrence l) (noted s.atoms l start) ‹_›
    · exact start
  have added (s : Solver) (c : Clause) (start : holds s.atoms) : holds (s.addClause c).2.atoms := by
    rcases s.evolves_addClause c with evolves | evolves
    · exact evolves.keeps kept start
    · exact evolves.keeps kept (seeded s _ start)
  have endures : Endures (holds ·.atoms) :=
    ⟨fun s _ _ _ before => (s.evolves_note ..).keeps kept before,
      fun s _ before => (s.evolves_introduce _).keeps kept before, added⟩
  rcases call.building with ⟨c, rfl⟩ | ⟨file, rfl⟩ | ⟨apart, unread⟩
  · exact added s c start
  · exact endures.readDimacs s file start
  · exact (evolves_perform apart unread).keeps kept start

theorem performAll_keeps (holds : AtomTable → Prop)
    (kept : ∀ t t', AtomTable.Change t t' → holds t → holds t')
    (noted : ∀ t l, holds t → holds (t.noteOccurrence l)) {s : Solver} (start : holds s.atoms)
    (calls : List Call) : holds (s.performAll calls).atoms := by
  induction calls generalizing s with
  | nil => exact start
  | cons call rest ih => exact ih (perform_keeps holds kept noted start call)

end Solver

end ClauseLearning
