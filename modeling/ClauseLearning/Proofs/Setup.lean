import ClauseLearning.Proofs.Run

namespace ClauseLearning

/-- The failure is of the solver itself, whatever it was asked for. -/
def Failure.isInternal : Failure → Bool
  | noAssertion _ | deadWatch .. | strayWatch .. | unitKey | missingClause | missingAddition _
  | staleToken | unitToken | originalToken | unknownIndex | emptyClause | tokensExhausted
  | missingWatch .. | missingWatchList | lostClause _ | missingReason .. | exhaustedTrail
  | unvaluedLiteral _ | backjump _ => true
  | atomsExhausted | unknownAtom _ | topAtom | clauseLimit _ | originalKeys | additionKeys
  | settingValue _ | header | line _ | misplacedHeader _ | atomOutOfRange .. | unreadable _ => false

namespace ClauseStore

/-- An observation of a store which no rearrangement of a clause and no activity enters. -/
structure Steady {α : Type} (observe : ClauseStore → α) : Prop where
  modify : ∀ s key f, observe (s.modify key f) = observe s
  raise : ∀ s key, observe (s.raise key) = observe s
  decay : ∀ s, observe s.decay = observe s

theorem Steady.of_ranks {α : Type} {observe : ClauseStore → α}
    (modify : ∀ s key f, observe (s.modify key f) = observe s)
    (ranks : ∀ s ranks bump, observe { s with ranks, bump } = observe s) : Steady observe where
  modify := modify
  raise s key := by
    cases key with
    | addition i token =>
      simp only [ClauseStore.raise]
      split <;> exact ranks s _ _
    | _ => rfl
  decay s := by
    simp only [ClauseStore.decay]
    split <;> exact ranks s _ _

theorem steady_limit : Steady (·.limit) :=
  .of_ranks (fun _ key _ => by cases key <;> rfl) fun _ _ _ => rfl

theorem steady_blockDistanceBound : Steady (·.blockDistanceBound) :=
  .of_ranks (fun _ key _ => by cases key <;> rfl) fun _ _ _ => rfl

theorem steady_additionCount : Steady (·.additionCount) :=
  .of_ranks (fun _ key _ => by cases key <;> rfl) fun _ _ _ => rfl

theorem steady_totalCount : Steady totalCount :=
  .of_ranks (fun _ key _ => by cases key <;> simp [totalCount, ClauseStore.modify]) fun _ _ _ => rfl

theorem steady_additionsSize : Steady (·.additions.size) :=
  .of_ranks (fun _ key _ => by cases key <;> simp [ClauseStore.modify]) fun _ _ _ => rfl

theorem steady_vacated : Steady (·.vacated) :=
  .of_ranks (fun _ key _ => by cases key <;> rfl) fun _ _ _ => rfl

def Lasting {α : Type} (observe : ClauseStore → α) : Prop :=
  ∀ s originalUnits additionUnits originals additions vacated additionCount ranks,
    observe { s with
      originalUnits, additionUnits, originals, additions, vacated, additionCount, ranks } =
      observe s

theorem lasting_limit : Lasting (·.limit) := fun _ _ _ _ _ _ _ _ => rfl

theorem lasting_blockDistanceBound : Lasting (·.blockDistanceBound) := fun _ _ _ _ _ _ _ _ => rfl

theorem lasting_scale : Lasting fun s => (s.decayRate, s.bump) := fun _ _ _ _ _ _ _ _ => rfl

end ClauseStore

theorem ClauseStore.Refuses.isInternal {s s' : ClauseStore} {c : Clause} {origin : ClauseOrigin}
    {failure : Failure} (refuses : s.Refuses c origin failure s') :
    failure.isInternal = false := by
  cases refuses <;> rfl

namespace WatchedStore

section Observations

variable {α : Type} {observe : ClauseStore → α} (lasting : ClauseStore.Lasting observe)
include lasting

theorem observe_insertOriginal (value : Atom → Option Bool) (s : WatchedStore) (c : Clause) :
    observe (insertOriginal value s c).2.store = observe s.store := by
  unfold insertOriginal
  split
  · exact lasting ..
  · rfl

theorem observe_insertAddition (value : Atom → Option Bool) (s : WatchedStore) (c : Clause)
    (blockDistance : Nat) :
    observe (insertAddition value s c blockDistance).2.store = observe s.store := by
  obtain ⟨store, watches⟩ := s
  simp only [insertAddition]
  split <;> exact lasting ..

theorem observe_insert (value : Atom → Option Bool) (level : Atom → Option Nat) (s : WatchedStore)
    (c : Clause) (origin : ClauseOrigin) (blockDistance : Option Nat) :
    observe (s.insert value level c origin blockDistance).2.store = observe s.store := by
  unfold insert
  split
  · rfl
  · split
    · rfl
    · exact lasting ..
    · exact lasting ..
    · exact observe_insertOriginal lasting value s c
    · exact observe_insertAddition lasting value s c _

theorem observe_detach (s : WatchedStore) (key : ClauseKey) :
    observe (s.detach key).2.store = observe s.store := by
  unfold detach
  split
  · split
    · rfl
    · simp only
      split
      all_goals exact lasting s.store ..
  · rfl

theorem observe_visit (source : Atom → Option Source) (visits count : Nat) (r : Reduction) :
    observe (Reduction.visit source visits count r).2.state.store = observe r.state.store := by
  -- Only a visit that detaches an addition touches the store.
  fun_induction Reduction.visit source visits count r with
  | case6 visits count state ranks kept removed i rest popped c slot key rank isProtected ih =>
    exact ih
  | case7 visits count state ranks kept removed i rest popped c slot key rank unprotected failure
      state' detached =>
    have seen := observe_detach lasting state key
    rwa [detached] at seen
  | case8 visits count state ranks kept removed i rest popped c slot key rank unprotected state'
      detached ih =>
    have seen := observe_detach lasting state key
    rw [detached] at seen
    exact ih.trans seen
  | _ => rfl

theorem observe_reduce (source : Atom → Option Source) (s : WatchedStore) (count : Nat) :
    observe (s.reduce source count).2.store = observe s.store := by
  obtain ⟨store, watches⟩ := s
  have visited := observe_visit lasting source store.ranks.activeCount count
    { state := ⟨{ store with ranks := { blank := {} } }, watches⟩, ranks := store.ranks }
  have bare : _ = observe store := visited.trans (lasting ..)
  simp only [reduce]
  split <;> rename_i answer <;> rw [answer] at bare <;> exact (lasting ..).trans bare

end Observations

end WatchedStore

namespace Solver

def SameSetup (s s' : Solver) : Prop :=
  s'.settings = s.settings ∧ s'.clauses.store.limit = s.clauses.store.limit

namespace SameSetup

variable {s s' s'' : Solver}

theorem refl (s : Solver) : s.SameSetup s := ⟨rfl, rfl⟩

theorem trans (first : s.SameSetup s') (second : s'.SameSetup s'') : s.SameSetup s'' :=
  ⟨second.1.trans first.1, second.2.trans first.2⟩

theorem of_eq (settings : s'.settings = s.settings)
    (limit : s'.clauses.store.limit = s.clauses.store.limit) : s.SameSetup s' :=
  ⟨settings, limit⟩

theorem answered {α : Type} {call : α × Solver} {result : α} (kept : s.SameSetup call.2)
    (answer : call = (result, s')) : s.SameSetup s' := by
  rwa [answer] at kept

end SameSetup

def SameFrame (s s' : Solver) : Prop :=
  s'.settings = s.settings ∧ ∀ {α : Type} (observe : ClauseStore → α), ClauseStore.Steady observe →
    observe s'.clauses.store = observe s.clauses.store

namespace SameFrame

variable {s s' s'' : Solver}

theorem of_eq (settings : s'.settings = s.settings)
    (store : s'.clauses.store = s.clauses.store) : s.SameFrame s' :=
  ⟨settings, fun _ _ => by rw [store]⟩

theorem refl (s : Solver) : s.SameFrame s := .of_eq rfl rfl

theorem trans (first : s.SameFrame s') (second : s'.SameFrame s'') : s.SameFrame s'' :=
  ⟨second.1.trans first.1, fun observe steady =>
    (second.2 observe steady).trans (first.2 observe steady)⟩

theorem answered {α : Type} {call : α × Solver} {result : α} (kept : s.SameFrame call.2)
    (answer : call = (result, s')) : s.SameFrame s' := by
  rwa [answer] at kept

theorem setup (same : s.SameFrame s') : s.SameSetup s' :=
  ⟨same.1, same.2 _ ClauseStore.steady_limit⟩

end SameFrame

section Setup

variable (s : Solver)

theorem sameFrame_note (level : Level) (topic : Topic) (message : Unit → String) :
    s.SameFrame (s.note level topic message) := by
  obtain ⟨journal, noted⟩ := s.note_eq level topic message
  rw [noted]
  exact .of_eq rfl rfl

theorem sameFrame_noteFailure (failure : Failure) : s.SameFrame (s.noteFailure failure) := by
  obtain ⟨journal, noted⟩ := s.noteFailure_eq failure
  rw [noted]
  exact .of_eq rfl rfl

theorem sameFrame_assign (l : Literal) (source : Source) :
    s.SameFrame (s.assign l source).2 := by
  unfold assign
  simp only
  split
  · exact .trans (.of_eq rfl rfl) (sameFrame_note ..)
  · exact .of_eq rfl rfl

theorem sameFrame_imply (l : Literal) (key : ClauseKey) : s.SameFrame (s.imply l key) :=
  .trans (s.sameFrame_note ..) (.trans (sameFrame_assign ..) (.of_eq rfl rfl))

theorem sameFrame_visit (l : Literal) (key : ClauseKey) : s.SameFrame (s.visit l key).2 := by
  have changed (c : WatchedClause) : s.SameFrame (s.modifyStore (·.modify key fun _ => c)) :=
    ⟨rfl, fun _ steady => steady.modify ..⟩
  have visits := s.visits_visit l key
  generalize s.visit l key = answer at visits
  cases visits with
  | dead failure => exact s.sameFrame_noteFailure failure
  | stray c failure => exact .trans (changed c) (sameFrame_noteFailure ..)
  | moved c watches => exact .trans (changed c) (.of_eq rfl rfl)
  | kept c => exact changed c
  | conflict c => exact .trans (changed c) (sameFrame_note ..)
  | implied c front => exact .trans (changed c) (sameFrame_imply ..)

theorem sameFrame_walk (l : Literal) (w : Walk) (i : Nat) :
    w.solver.SameFrame (walk l w i).2.solver :=
  walk_related .refl .trans (sameFrame_visit · l) w i

theorem sameFrame_propagateLiteral (l : Literal) : s.SameFrame (s.propagateLiteral l).2 := by
  have walked := sameFrame_walk l ⟨s.modifyWatches fun w => (w.take (-l)).2,
    s.clauses.watches.watchers (-l), (s.clauses.watches.watchers (-l)).size⟩ 0
  rw [propagateLiteral_eq rfl]
  exact .trans (.trans (.of_eq rfl rfl) walked) (.of_eq rfl rfl)

theorem sameFrame_propagate : s.SameFrame s.propagate.2 :=
  propagate_related .refl .trans sameFrame_propagateLiteral (fun _ => .of_eq rfl rfl) s

theorem sameFrame_chooseAtom : s.SameFrame s.chooseAtom.2 := by
  unfold chooseAtom
  split
  · simp only [chance]
    split <;> rename_i answer <;> obtain ⟨-, rfl⟩ := Prod.mk.inj answer <;> exact .of_eq rfl rfl
  · exact .of_eq rfl rfl

theorem sameFrame_choosePolarity (a : Atom) : s.SameFrame (s.choosePolarity a).2 := by
  unfold choosePolarity
  split <;> exact .of_eq rfl rfl

theorem sameFrame_takeDecision : s.SameFrame s.takeDecision.2 := by
  have chosen := s.sameFrame_chooseAtom
  unfold takeDecision
  split
  · rename_i answer
    exact chosen.answered answer
  · rename_i a s' answer
    have counted : s'.SameFrame (s'.choosePolarity a).2.countDecision.pushLevel :=
      (s'.sameFrame_choosePolarity a).trans (.of_eq rfl rfl)
    exact (chosen.answered answer).trans
      (counted.trans ((sameFrame_note ..).trans (sameFrame_assign ..)))

theorem sameFrame_unassign (l : Literal) : s.SameFrame (s.unassign l) :=
  .trans (s.sameFrame_note ..) (.of_eq rfl rfl)

theorem sameFrame_foldl {α : Type} {f : Solver → α → Solver}
    (kept : ∀ (s : Solver) a, s.SameFrame (f s a)) (xs : List α) : s.SameFrame (xs.foldl f s) := by
  induction xs generalizing s with
  | nil => exact .refl s
  | cons x rest ih => exact (kept s x).trans (ih (f s x))

theorem sameFrame_backjump (n : Nat) : s.SameFrame (s.backjump n) := by
  unfold backjump
  split
  · exact .refl s
  · exact .trans (.trans (s.sameFrame_note ..) (.of_eq rfl rfl))
      (sameFrame_foldl _ sameFrame_unassign _)

theorem sameFrame_assertionLevel (c : Clause) : s.SameFrame (s.assertionLevel c).2 := by
  unfold assertionLevel noteError
  simp only
  split
  · exact .refl s
  · exact s.sameFrame_noteFailure _

theorem sameFrame_shouldStop : s.SameFrame s.shouldStop.2 := by
  obtain ⟨journal, polls, same⟩ := s.shouldStop_eq
  rw [same]
  exact .of_eq rfl rfl

def Merges (s s' : Solver) : Prop :=
  ∃ buffer journal, ∃ raised : List ClauseKey, s' = { s with
    buffer, journal
    clauses := { s.clauses with store := raised.foldl ClauseStore.raise s.clauses.store } }

namespace Merges

variable {s s' s'' : Solver}

theorem of_buffer (s : Solver) (buffer : ResolutionBuffer) : s.Merges { s with buffer } :=
  ⟨buffer, s.journal, [], rfl⟩

theorem refl (s : Solver) : s.Merges s := .of_buffer s s.buffer

theorem trans (first : s.Merges s') (second : s'.Merges s'') : s.Merges s'' := by
  obtain ⟨buffer, journal, raised, rfl⟩ := first
  obtain ⟨buffer', journal', raised', rfl⟩ := second
  exact ⟨buffer', journal', raised ++ raised', by rw [List.foldl_append]⟩

theorem answered {α : Type} {call : α × Solver} {result : α} (merged : s.Merges call.2)
    (answer : call = (result, s')) : s.Merges s' := by
  rwa [answer] at merged

theorem sameFrame (merges : s.Merges s') : s.SameFrame s' := by
  obtain ⟨buffer, journal, raised, rfl⟩ := merges
  refine ⟨rfl, fun observe steady => ?_⟩
  simp only
  induction raised generalizing s with
  | nil => rfl
  | cons key rest ih =>
    rw [List.foldl_cons, ← steady.raise s.clauses.store key]
    exact ih (s := { s with clauses := { s.clauses with store := s.clauses.store.raise key } })

end Merges

theorem merges_note (level : Level) (topic : Topic) (message : Unit → String) :
    s.Merges (s.note level topic message) := by
  obtain ⟨journal, noted⟩ := s.note_eq level topic message
  exact ⟨s.buffer, journal, [], noted⟩

theorem merges_noteFailure (failure : Failure) : s.Merges (s.noteFailure failure) := by
  obtain ⟨journal, noted⟩ := s.noteFailure_eq failure
  exact ⟨s.buffer, journal, [], noted⟩

theorem merges_raiseClause (key : ClauseKey) : s.Merges (s.raiseClause key) := by
  unfold raiseClause noteRescale
  simp only
  split
  · exact (s.merges_note ..).trans ⟨_, _, [key], rfl⟩
  · exact ⟨s.buffer, s.journal, [key], rfl⟩

theorem merges_mergeClause (key : ClauseKey) (current : Nat) :
    s.Merges (s.mergeClause key current).2 := by
  unfold mergeClause
  split
  · exact .refl s
  · split
    · exact .of_buffer ..
    · exact .trans (.of_buffer ..) (merges_raiseClause ..)

theorem merges_resolveBack (current n : Nat) : s.Merges (resolveBack current n s).2 := by
  induction n generalizing s with
  | zero => exact .refl s
  | succ n ih =>
    unfold resolveBack
    simp only
    split
    · split
      · exact .of_buffer ..
      · have noted : s.Merges ({ s with buffer := { s.buffer with
            pending := s.buffer.pending - 1 } }.note .trace .resolution fun _ =>
              "Resolving on " ++ (s.trail.literals.getD n 0).text) :=
          .trans (.of_buffer ..) (merges_note ..)
        generalize Solver.note _ _ _ _ = t at noted ⊢
        split
        · rename_i reason known
          have merged := noted.trans (t.merges_mergeClause reason current)
          split <;> rename_i answer <;> rw [answer] at merged
          · exact merged
          · exact merged.trans (ih _)
        · exact noted
    · exact ih s

theorem merges_derive (key : ClauseKey) : s.Merges (s.derive key).2 := by
  have refreshed : s.Merges { s with buffer := s.buffer.refresh s.atoms.size } := .of_buffer ..
  have merged := refreshed.trans (merges_mergeClause _ key s.trail.level)
  unfold derive
  simp only
  split <;> rename_i s' answer <;> rw [answer] at merged
  · exact merged.trans (merges_noteFailure ..)
  · have resolved := merged.trans (merges_resolveBack s' s.trail.level s'.trail.literals.size)
    split <;> rename_i answer' <;> rw [answer'] at resolved
    · exact resolved.trans (merges_noteFailure ..)
    · exact resolved.trans (.trans (.of_buffer ..) (merges_note ..))

theorem sameFrame_derive (key : ClauseKey) : s.SameFrame (s.derive key).2 :=
  (s.merges_derive key).sameFrame

theorem sameFrame_decayClauses : s.SameFrame s.decayClauses := by
  unfold decayClauses noteRescale
  simp only
  split
  · exact .trans (s.sameFrame_note ..) ⟨rfl, fun _ steady => steady.decay _⟩
  · exact ⟨rfl, fun _ steady => steady.decay _⟩

theorem sameFrame_rewardAtoms (c : Clause) : s.SameFrame (s.rewardAtoms c) := by
  have raised (atoms : List Atom) : s.SameFrame (atoms.foldl raiseAtom s).decayAtoms :=
    (sameFrame_foldl s (f := raiseAtom) (fun _ _ => .of_eq rfl rfl) atoms).trans (.of_eq rfl rfl)
  unfold rewardAtoms
  exact (raised _).trans (sameFrame_decayClauses _)

theorem sameFrame_rewarded {before after : Journal} {key : ClauseKey} {c : Clause}
    (derived : derive { s with journal := before } key = (.ok c, s')) :
    s.SameFrame { s'.rewardAtoms c with journal := after } :=
  (SameFrame.of_eq rfl rfl).trans (((sameFrame_derive _ key).answered derived).trans
    ((s'.sameFrame_rewardAtoms c).trans (.of_eq rfl rfl)))

theorem insert_eq (c : Clause) (origin : ClauseOrigin) (blockDistance : Option Nat) :
    ∃ journal learned, (s.insert c origin blockDistance).2 = { s with
      journal, learned
      clauses := (s.clauses.insert s.atoms.value s.atoms.level c origin blockDistance).2 } := by
  unfold insert
  split <;> rename_i clauses answer <;> rw [answer]
  · obtain ⟨journal, noted⟩ := noteFailure_eq { s with clauses } _
    exact ⟨journal, s.learned, noted⟩
  · rename_i key
    obtain ⟨journal, noted⟩ := note_eq { s with clauses } .trace .clauses fun _ =>
      key.text ++ ": " ++ c.text
    simp only [noted]
    split
    · unfold collect
      split
      · exact ⟨journal, s.learned, rfl⟩
      · exact ⟨journal, _, rfl⟩
    · exact ⟨journal, s.learned, rfl⟩

theorem sameSetup_insert (c : Clause) (origin : ClauseOrigin) (blockDistance : Option Nat) :
    s.SameSetup (s.insert c origin blockDistance).2 := by
  obtain ⟨journal, learned, inserted⟩ := s.insert_eq c origin blockDistance
  rw [inserted]
  exact .of_eq rfl (WatchedStore.observe_insert ClauseStore.lasting_limit ..)

theorem sameFrame_assertLesson (l : Literal) (source : Source) :
    s.SameFrame (s.assertLesson l source).2 := by
  have assigned := s.sameFrame_assign l source
  unfold assertLesson
  split <;> rename_i answer <;> rw [answer] at assigned
  · exact assigned
  · exact assigned.trans (sameFrame_noteFailure ..)

theorem sameFrame_restart : s.SameFrame s.restart :=
  (s.sameFrame_backjump 0).trans (.trans (.of_eq rfl rfl) (sameFrame_note ..))

theorem sameFrame_restartIfDue : s.SameFrame s.restartIfDue.2 := by
  unfold restartIfDue
  simp only
  split
  · exact .trans (.of_eq rfl rfl) (sameFrame_restart _)
  · exact .of_eq rfl rfl

theorem noteRemovals_eq (removed : List ClauseKey) :
    ∃ journal, removed.foldl noteRemoval s = { s with journal } := by
  induction removed generalizing s with
  | nil => exact ⟨s.journal, rfl⟩
  | cons key rest ih =>
    obtain ⟨journal, noted⟩ := s.note_eq .trace .clauses fun _ => "Removed " ++ key.text
    obtain ⟨journal', later⟩ := ih { s with journal }
    exact ⟨journal', by rw [List.foldl_cons, noteRemoval, noted, later]⟩

theorem reduceBy_eq (count : Nat) :
    ∃ journal, (s.reduceBy count).2 =
      { s with journal, clauses := (s.clauses.reduce s.atoms.source count).2 } := by
  unfold reduceBy
  split
  rename_i result removed clauses answer
  obtain ⟨journal, noted⟩ := noteRemovals_eq { s with clauses } removed
  simp only [answer, noted]
  cases result with
  | error failure => exact noteFailure_eq ..
  | ok => exact note_eq ..

theorem reduce_eq :
    ∃ count journal counters, s.reduce.2 =
      { s with journal, counters, clauses := (s.clauses.reduce s.atoms.source count).2 } := by
  unfold reduce
  simp only
  generalize (Float.toUInt64 _).toNat = count
  obtain ⟨journal, reduced⟩ := s.reduceBy_eq count
  split <;> rename_i answer <;> rw [answer] at reduced
  · exact ⟨count, journal, s.counters, reduced⟩
  · exact ⟨count, journal, _, congrArg countReduction reduced⟩

theorem sameSetup_reduce : s.SameSetup s.reduce.2 := by
  obtain ⟨count, journal, counters, reduced⟩ := s.reduce_eq
  rw [reduced]
  exact .of_eq rfl (WatchedStore.observe_reduce ClauseStore.lasting_limit ..)

theorem sameSetup_prepare : s.SameSetup s.prepare := by
  unfold prepare clearDecisions
  simp only
  split
  · exact (s.sameFrame_backjump 0).setup
  · exact ((s.sameFrame_backjump 0).trans (.of_eq rfl rfl)).setup

theorem sameSetup_seed (c : Clause) : s.SameSetup (s.seed c) := by
  unfold seed
  split
  · exact (sameFrame_foldl s (f := noteOccurrence) (fun _ _ => .of_eq rfl rfl) c).setup
  · exact .refl s

/-- The call keeps the setup, and no failure of its answer is internal. -/
structure Serves {α : Type} (result : Except Failure α) (s' : Solver) : Prop where
  setup : s.SameSetup s'
  external : ∀ failure, result = .error failure → failure.isInternal = false

end Setup

section Serves

variable {α : Type} {s s' s'' : Solver} {result : Except Failure α} {failure : Failure}

theorem Serves.ok (setup : s.SameSetup s') (a : α) : s.Serves (.ok a) s' :=
  ⟨setup, fun _ impossible => by cases impossible⟩

theorem Serves.error (setup : s.SameSetup s') (external : failure.isInternal = false) :
    s.Serves (.error failure : Except Failure α) s' :=
  ⟨setup, fun _ same => by cases same; exact external⟩

theorem Serves.after (serves : s'.Serves result s'') (setup : s.SameSetup s') :
    s.Serves result s'' :=
  ⟨setup.trans serves.setup, serves.external⟩

theorem Serves.failed {β : Type} (serves : s.Serves (.error failure : Except Failure α) s') :
    s.Serves (.error failure : Except Failure β) s' :=
  .error serves.setup (serves.external failure rfl)

theorem freshAtom_serves (s : Solver) : s.Serves s.freshAtom.1 s.freshAtom.2 := by
  have prepared := s.sameSetup_prepare
  unfold freshAtom AtomTable.fresh
  simp only
  split <;> rename_i answer
  · split at answer <;> cases answer
    exact .error (prepared.trans (.trans (.of_eq rfl rfl) (sameFrame_noteFailure ..).setup)) rfl
  · refine .ok ?_ _
    exact prepared.trans (.of_eq rfl rfl)

theorem introduce_serves (count : Nat) (s : Solver) :
    s.Serves (introduce count s).1 (introduce count s).2 := by
  induction count generalizing s with
  | zero => exact .ok (.refl s) ()
  | succ count ih =>
    have fresh := s.freshAtom_serves
    rw [introduce]
    cases answer : s.freshAtom with
    | mk result s' =>
      rw [answer] at fresh
      cases result with
      | error failure => exact fresh.failed
      | ok a => exact (ih s').after fresh.setup

theorem ensureAtoms_serves (s : Solver) (a : Atom) :
    s.Serves (s.ensureAtoms a).1 (s.ensureAtoms a).2 :=
  introduce_serves _ s

theorem insert_failed {c : Clause} {origin : ClauseOrigin} {blockDistance : Option Nat}
    (nonempty : c ≠ []) (answer : s.insert c origin blockDistance = (.error failure, s')) :
    s.Refuses c origin failure s' := by
  by_cases takes : s.clauses.store.Takes c origin
  · obtain ⟨_, _, stored⟩ := WatchedStore.insert_stores nonempty takes blockDistance
    obtain ⟨journal, ended⟩ := insert_of_stored stored
    cases answer.symm.trans ended
  · obtain ⟨_, _, ended, refuses⟩ := insert_refused nonempty takes blockDistance
    cases answer.symm.trans ended
    exact refuses

theorem insert_serves (s : Solver) {c : Clause} (nonempty : c ≠ []) (origin : ClauseOrigin)
    (blockDistance : Option Nat) :
    s.Serves (s.insert c origin blockDistance).1 (s.insert c origin blockDistance).2 := by
  refine ⟨s.sameSetup_insert c origin blockDistance, fun failure failed => ?_⟩
  exact (insert_failed nonempty (Prod.ext failed rfl)).reason.isInternal

theorem addReduced_serves (s : Solver) (c : Clause) :
    s.Serves (s.addReduced c).1 (s.addReduced c).2 := by
  have inserted (nonempty : c ≠ []) := s.insert_serves nonempty .formula none
  unfold addReduced
  split
  · refine .ok ?_ _
    exact .trans (s.sameFrame_note ..).setup (.of_eq rfl rfl)
  · replace inserted := inserted (by simp)
    split <;> rename_i answer <;> rw [answer] at inserted
    · exact inserted.failed
    · exact .ok (inserted.setup.trans (sameFrame_assign ..).setup) _
  · rename_i nonempty _
    replace inserted := inserted nonempty
    split <;> rename_i answer <;> rw [answer] at inserted
    · exact inserted.failed
    · exact .ok inserted.setup _

theorem isInternal_of_checkAtoms {c : Clause} {count : Nat}
    (failed : c.checkAtoms count = .error failure) : failure.isInternal = false := by
  induction c with
  | nil => cases failed
  | cons l rest ih =>
    rw [Clause.checkAtoms] at failed
    split at failed
    · cases failed
      rfl
    · split at failed
      · cases failed
        rfl
      · exact ih failed

theorem addClause_serves (s : Solver) (c : Clause) :
    s.Serves (s.addClause c).1 (s.addClause c).2 := by
  unfold addClause
  simp only
  split
  · exact .ok (s.sameFrame_note ..).setup _
  · split <;> rename_i checked
    · exact .error (s.sameFrame_noteFailure _).setup (isInternal_of_checkAtoms checked)
    · exact (addReduced_serves _ _).after ((s.sameSetup_seed _).trans (sameSetup_prepare _))

end Serves

end Solver

namespace Dimacs.Reading

open Solver

theorem endClause_serves (r : Reading) : r.solver.Serves r.endClause.1 r.endClause.2.solver := by
  have added := r.solver.addClause_serves r.clause.reverse
  unfold endClause
  simp only
  split <;> rename_i answer <;> rw [answer] at added
  · exact added.failed
  · exact .ok added.setup _

theorem readWord_serves (r : Reading) (number : Nat) (word : List Char) :
    r.solver.Serves (r.readWord number word).1 (r.readWord number word).2.solver := by
  unfold readWord
  split
  · exact .error (.refl _) rfl
  · rename_i l _
    split
    · exact r.endClause_serves
    · split
      · have ensured := r.solver.ensureAtoms_serves l.natAbs
        split <;> rename_i answer <;> rw [answer] at ensured
        · exact ensured.failed
        · exact .ok ensured.setup _
      · exact .error (.refl _) rfl

theorem readWords_serves (r : Reading) (number : Nat) (words : List (List Char)) :
    r.solver.Serves (r.readWords number words).1 (r.readWords number words).2.solver := by
  induction words generalizing r with
  | nil => exact .ok (.refl _) ()
  | cons word rest ih =>
    have first := r.readWord_serves number word
    rw [readWords]
    split <;> rename_i answer <;> rw [answer] at first
    · exact first.failed
    · exact (ih _).after first.setup

theorem readHeader_serves (r : Reading) (number : Nat) (words : List (List Char)) :
    r.solver.Serves (r.readHeader number words).1 (r.readHeader number words).2.solver := by
  unfold readHeader
  split
  · exact .error (.refl _) rfl
  · split
    · exact .error (.refl _) rfl
    · rename_i atoms clauses _
      have noted := (r.solver.sameFrame_note .info .parse fun _ =>
        "Expecting " ++ toString atoms ++ " atoms and " ++ toString clauses ++ " clauses").setup
      simp only
      generalize r.solver.note _ _ _ = s at noted ⊢
      split
      · have ensured := (s.ensureAtoms_serves atoms).after noted
        split <;> rename_i answer <;> rw [answer] at ensured
        · exact ensured.failed
        · exact .ok ensured.setup _
      · exact .error noted rfl

theorem readLines_serves (r : Reading) (number : Nat) (lines : List Text.Line) :
    r.solver.Serves (r.readLines number lines).1 (r.readLines number lines).2.solver := by
  induction lines generalizing r number with
  | nil => exact .ok (.refl _) ()
  | cons line rest ih =>
    cases line with
    | none => exact .error (.refl _) rfl
    | some text =>
      rw [readLines]
      cases Line.ofText text with
      | blank => exact ih r (number + 1)
      | stop => exact .ok (.refl _) ()
      | header words =>
        have header := r.readHeader_serves number words
        simp only
        split <;> rename_i answer <;> rw [answer] at header
        · exact header.failed
        · exact (ih _ _).after header.setup
      | literals words =>
        have read := readWords_serves { r with started := true } number words
        simp only
        split <;> rename_i answer <;> rw [answer] at read
        · exact read.failed
        · exact (ih _ _).after read.setup

theorem endFile_serves (r : Reading) : r.solver.Serves r.endFile.1 r.endFile.2.solver := by
  unfold endFile
  split
  · exact .ok (.refl _) ()
  · exact r.endClause_serves

theorem sameSetup_summarise (r : Reading) (initial : Nat) :
    r.solver.SameSetup (r.summarise initial).2 := by
  unfold summarise
  simp only
  split
  · exact .refl _
  · split
    · exact .refl _
    · exact (r.solver.sameFrame_note ..).setup

end Dimacs.Reading

namespace Solver

theorem readDimacs_serves (s : Solver) (file : ByteArray) :
    s.Serves (s.readDimacs file).1 (s.readDimacs file).2 := by
  have read := Dimacs.Reading.readLines_serves { solver := s } 1 (Text.lines file)
  unfold readDimacs readDimacsLines
  simp only
  split <;> rename_i r answer <;> rw [answer] at read
  · exact read.failed
  · have ended := r.endFile_serves.after read.setup
    split <;> rename_i answer' <;> rw [answer'] at ended
    · exact ended.failed
    · exact .ok (ended.setup.trans (Dimacs.Reading.sameSetup_summarise ..)) _

theorem Step.sameSetup {before after : Config} (step : Step before after) :
    before.solver.SameSetup after.solver := by
  cases step with
  | outside => exact .of_eq rfl rfl
  | listen => exact .of_eq rfl rfl
  | freshAtom s => exact s.freshAtom_serves.setup
  | ensureAtoms s a => exact (s.ensureAtoms_serves a).setup
  | addClause s c => exact (s.addClause_serves c).setup
  | readDimacs s file => exact (s.readDimacs_serves file).setup
  | start => exact .of_eq rfl rfl
  | draw next answer =>
    exact ((sameFrame_propagateLiteral ..).answered answer).setup.trans (.of_eq rfl rfl)
  | clash next answer => exact ((sameFrame_propagateLiteral ..).answered answer).setup
  | drawFailed next answer => exact ((sameFrame_propagateLiteral ..).answered answer).setup
  | drawn => exact .refl _
  | stop answer => exact ((sameFrame_shouldStop _).answered answer).setup
  | decide answer => exact ((sameFrame_takeDecision _).answered answer).setup
  | satisfy answer => exact ((sameFrame_takeDecision _).answered answer).setup.trans (.of_eq rfl rfl)
  | refute => exact .of_eq rfl rfl
  | derive decided answer =>
    exact ((sameFrame_derive ..).answered answer).setup.trans (sameFrame_rewardAtoms ..).setup
  | deriveFailed decided answer => exact ((sameFrame_derive ..).answered answer).setup
  | retreatUnit s l => exact (s.sameFrame_backjump 0).setup
  | retreat answer =>
    exact ((sameFrame_assertionLevel ..).answered answer).setup.trans (sameFrame_backjump ..).setup
  | retreatFailed answer => exact ((sameFrame_assertionLevel ..).answered answer).setup
  | deriveNothing s => exact (s.sameFrame_noteFailure _).setup
  | storeUnit answer => exact (sameSetup_insert ..).answered answer
  | store answer => exact (sameSetup_insert ..).answered answer
  | storeFailed answer => exact (sameSetup_insert ..).answered answer
  | assertion taught answer => exact ((sameFrame_assertLesson ..).answered answer).setup
  | assertionFailed taught answer => exact ((sameFrame_assertLesson ..).answered answer).setup
  | restart s => exact s.sameFrame_restartIfDue.setup
  | keep => exact .refl _
  | reduce due answer => exact (sameSetup_reduce _).answered answer
  | reduceFailed due answer => exact (sameSetup_reduce _).answered answer

theorem Steps.sameSetup {before after : Config} (steps : Steps before after) :
    before.solver.SameSetup after.solver := by
  induction steps with
  | refl => exact .refl _
  | tail steps step ih => exact ih.trans step.sameSetup

theorem Reachable.sameSetup {settings : Settings} {config : Config}
    (reachable : Reachable settings config) : (new settings).SameSetup config.solver :=
  Steps.sameSetup reachable

end Solver

end ClauseLearning
