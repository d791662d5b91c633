import ClauseLearning.Proofs.ActivityOrder
import ClauseLearning.Proofs.HeapOrder
import ClauseLearning.Proofs.StoreCalls
import Mathlib.Data.List.Infix

/-!
The heap of ranks stays in order, whatever calls are made of a store, as long as the activities of
its additions are numbers. A slot without an addition keeps the rank of its last one, which need
not be a number: it is not on the heap.
-/

namespace ClauseLearning

theorem ClauseRank.comparable {among : ClauseRank → Prop}
    (numbers : ∀ rank, among rank → rank.activity.isNumber = true) :
    IndexedHeap.Comparable among where
  asymm _ _ _ _ less := Activity.lt_asymm less
  between _ b _ _ middle _ less := (Activity.lt_or_lt (numbers b middle) less).symm

namespace IndexedHeap

def Numeric (ranks : IndexedHeap ClauseRank) : Prop :=
  ∀ rank, ranks.ActiveValue rank → rank.activity.isNumber = true

variable {ranks ranks' : IndexedHeap ClauseRank}

theorem Numeric.sortable (numeric : ranks.Numeric) (wellFormed : ranks.WellFormed) :
    ranks.Sortable :=
  ⟨wellFormed, ClauseRank.comparable numeric⟩

theorem Numeric.of_reordered (numeric : ranks'.Numeric) (same : ranks.Reordered ranks')
    (values : ranks'.values = ranks.values) : ranks.Numeric :=
  fun rank active => numeric rank ((same.activeValue_iff values).2 active)

theorem Numeric.of_modifyValue {i : Nat} {f : ClauseRank → ClauseRank}
    (numeric : (ranks.modifyValue i f).Numeric)
    (traces : ∀ rank, (f rank).activity.isNumber = true → rank.activity.isNumber = true) :
    ranks.Numeric := by
  rintro rank ⟨x, active, found⟩
  have changed := ranks.value?_modifyValue i x f
  rw [show ranks.value? x = some rank from found] at changed
  by_cases same : x = i
  · rw [if_pos same] at changed
    exact traces rank (numeric (f rank) ⟨x, active, changed⟩)
  · rw [if_neg same] at changed
    exact numeric rank ⟨x, active, changed⟩

theorem Numeric.of_activate {x : Nat} (numeric : (ranks.activate x).2.Numeric)
    (wellFormed : ranks.WellFormed) : ranks.Numeric := by
  rintro rank ⟨y, active, found⟩
  exact numeric rank ⟨y, (wellFormed.activate x).2 y active, ranks.values_activate x ▸ found⟩

theorem Numeric.modify_ordered {i : Nat} {f : ClauseRank → ClauseRank}
    (numeric : ((ranks.modifyValue i f).settle i).Numeric) (wellFormed : ranks.WellFormed)
    (ordered : ranks.Numeric → ranks.Ordered)
    (traces : ∀ rank, (f rank).activity.isNumber = true → rank.activity.isNumber = true) :
    ((ranks.modifyValue i f).settle i).Ordered := by
  have changed : (ranks.modifyValue i f).Numeric :=
    numeric.of_reordered (settle_reordered _ i) (values_settle ..)
  have before := changed.of_modifyValue traces
  have wellFormed' := (ranks.modifyValue_reordered i f).wellFormed wellFormed
  refine (before.sortable wellFormed).settle_of_values (changed.sortable wellFormed')
    (ordered before) rfl fun y other => ?_
  exact (ranks.value?_modifyValue i y f).trans (if_neg other)

theorem Numeric.mapValues_ordered {f : ClauseRank → ClauseRank}
    (numeric : (ranks.mapValues f).heapify.Numeric) (wellFormed : ranks.WellFormed) :
    (ranks.mapValues f).heapify.Ordered := by
  have changed := numeric.of_reordered (heapify_reordered _) (values_heapify _)
  exact (changed.sortable ((ranks.mapValues_reordered f).wellFormed wellFormed)).heapify_ordered

end IndexedHeap

namespace ClauseStore

variable {s : ClauseStore} {proper : Literal → Prop}

def Numeric (s : ClauseStore) : Prop :=
  ∀ c ∈ s.longAdditions, ∀ rank ∈ s.rank? c.key, rank.activity.isNumber = true

instance (s : ClauseStore) : Decidable s.Numeric := by
  unfold Numeric
  infer_instance

theorem rank?_addition {i token : Nat} {c : WatchedClause}
    (live : s.get (.addition i token) = .ok c) :
    s.rank? (.addition i token) = s.ranks.value? i := by
  simp only [rank?, live]

theorem Orderly.numeric (orderly : s.Orderly proper) (numeric : s.Numeric) : s.ranks.Numeric := by
  rintro rank ⟨i, active, found⟩
  obtain ⟨c, slot⟩ := (orderly.ranked.active i).1 active
  obtain ⟨token, key⟩ := orderly.wellFormed.slotted i c slot
  have listed : c ∈ s.longAdditions := by
    simp only [longAdditions, List.mem_filterMap, id_eq, exists_eq_right]
    exact Array.mem_toList_iff.2 (Array.mem_of_getElem? slot)
  refine numeric c listed rank ?_
  rw [key, rank?_addition (get_addition.2 ⟨slot, key⟩)]
  exact found

theorem raise_ordered (wellFormed : s.ranks.WellFormed) (ordered : s.ranks.Ordered)
    (key : ClauseKey) (numeric : (s.raise key).ranks.Numeric) : (s.raise key).ranks.Ordered := by
  cases key with
  | addition i token =>
    simp only [raise] at numeric ⊢
    by_cases rescales : s.raiseRescales (.addition i token) = true
    · simp only [rescales, if_true] at numeric ⊢
      have wellFormed' : s.rescale.ranks.WellFormed :=
        (IndexedHeap.heapify_reordered _).wellFormed
          ((s.ranks.mapValues_reordered _).wellFormed wellFormed)
      exact numeric.modify_ordered wellFormed'
        (fun before => before.mapValues_ordered wellFormed)
        fun _ => Activity.isNumber_of_combine
    · simp only [rescales] at numeric ⊢
      exact numeric.modify_ordered wellFormed (fun _ => ordered)
        fun _ => Activity.isNumber_of_combine
  | _ => exact ordered

theorem decay_ordered (wellFormed : s.ranks.WellFormed) (ordered : s.ranks.Ordered)
    (numeric : s.decay.ranks.Numeric) : s.decay.ranks.Ordered := by
  unfold decay at numeric ⊢
  simp only at numeric ⊢
  by_cases rescales : s.decayRescales = true
  · rw [if_pos rescales] at numeric ⊢
    exact numeric.mapValues_ordered wellFormed
  · rw [if_neg rescales]
    exact ordered

end ClauseStore

namespace WatchedStore

variable {s : WatchedStore}

theorem ranks_insert (s : WatchedStore) (value : Atom → Option Bool) (level : Atom → Option Nat)
    (c : Clause) (origin : ClauseOrigin) (blockDistance : Option Nat) :
    (s.insert value level c origin blockDistance).2.store.ranks = s.store.ranks ∨
      ∃ i blockDistance', (s.insert value level c origin blockDistance).2.store.ranks =
        ((s.store.ranks.add i ⟨s.store.bump, blockDistance'⟩).2.activate i).2 := by
  unfold insert
  split
  · exact .inl rfl
  · split
    · exact .inl rfl
    · exact .inl rfl
    · exact .inl rfl
    · left
      unfold insertOriginal
      split <;> rfl
    · obtain ⟨store, watches⟩ := s
      simp only [insertAddition]
      split
      · exact .inl rfl
      · exact .inr ⟨_, _, rfl⟩

theorem insert_ordered (wellFormed : s.store.ranks.WellFormed) (ordered : s.store.ranks.Ordered)
    (numeric : s.store.ranks.Numeric) {value : Atom → Option Bool} {level : Atom → Option Nat}
    {c : Clause} {origin : ClauseOrigin} {blockDistance : Option Nat}
    (numeric' : (s.insert value level c origin blockDistance).2.store.ranks.Numeric) :
    (s.insert value level c origin blockDistance).2.store.ranks.Ordered := by
  rcases s.ranks_insert value level c origin blockDistance with same | ⟨i, distance, changed⟩
  · rwa [same]
  · rw [changed] at numeric' ⊢
    obtain ⟨added, -⟩ := IndexedHeap.add_spec wellFormed i ⟨s.store.bump, distance⟩
    have between := numeric'.of_activate added
    have orderedAdded := (numeric.sortable wellFormed).add_ordered ordered
      (between.sortable added).comparable
    exact (between.sortable added).activate_ordered orderedAdded (ClauseRank.comparable numeric')

theorem ranks_detach (s : WatchedStore) (key : ClauseKey) :
    (s.detach key).2.store.ranks = s.store.ranks := by
  unfold detach
  split
  · split
    · rfl
    · simp only
      split <;> rfl
  · rfl

theorem remove_ordered (ordered : s.store.ranks.Ordered) (sortable : s.store.ranks.Sortable)
    (key : ClauseKey) : (s.remove key).2.store.ranks.Ordered := by
  have same := s.ranks_detach key
  unfold remove
  cases detached : s.detach key with
  | mk answer s' =>
    rw [detached] at same
    change s'.store.ranks = s.store.ranks at same
    rw [← same] at sortable ordered
    cases answer with
    | error failure => exact ordered
    | ok _ => exact sortable.remove_ordered ordered key.index

end WatchedStore

namespace Reduction

theorem visit_ranks {P : IndexedHeap ClauseRank → Prop}
    (popMax : ∀ ranks, P ranks → P ranks.popMax.2) (source : Atom → Option Source)
    (visits count : Nat) (r : Reduction) (start : P r.ranks) :
    P (visit source visits count r).2.ranks := by
  have popped {ranks rest : IndexedHeap ClauseRank} {top : Option Nat} (before : P ranks)
      (answer : ranks.popMax = (top, rest)) : P rest := by
    obtain rfl : _ = rest := congrArg Prod.snd answer
    exact popMax ranks before
  fun_induction visit source visits count r with
  | case1 => exact start
  | case2 => exact start
  | case3 visits count state ranks kept removed rest empty => exact popped start empty
  | case4 visits count state ranks kept removed i rest taken => exact popped start taken
  | case5 visits count state ranks kept removed i rest taken => exact popped start taken
  | case6 visits count state ranks kept removed i rest taken c slot key rank isProtected ih =>
    exact ih (popped start taken)
  | case7 visits count state ranks kept removed i rest taken => exact popped start taken
  | case8 visits count state ranks kept removed i rest taken c slot key rank unprotected state'
      detached ih => exact ih (popped start taken)

theorem reactivate_wellFormed {ranks : IndexedHeap ClauseRank} (wellFormed : ranks.WellFormed)
    (kept : List Nat) : (reactivate ranks kept).WellFormed := by
  induction kept with
  | nil => exact wellFormed
  | cons i rest ih => exact (ih.activate i).1

theorem values_reactivate (ranks : IndexedHeap ClauseRank) (kept : List Nat) :
    (reactivate ranks kept).values = ranks.values := by
  induction kept with
  | nil => rfl
  | cons i rest ih => exact ((reactivate ranks rest).values_activate i).trans ih

theorem reactivate_ordered {ranks : IndexedHeap ClauseRank} {kept : List Nat}
    (wellFormed : ranks.WellFormed) (ordered : ranks.Ordered)
    (numeric : (reactivate ranks kept).Numeric) : (reactivate ranks kept).Ordered := by
  induction kept with
  | nil => exact ordered
  | cons i rest ih =>
    have wellFormed' := reactivate_wellFormed wellFormed rest
    have before : (reactivate ranks rest).Numeric := numeric.of_activate wellFormed'
    exact (before.sortable wellFormed').activate_ordered (ih before) (ClauseRank.comparable numeric)

end Reduction

theorem WatchedStore.reduce_ordered {s : WatchedStore} (sortable : s.store.ranks.Sortable)
    (ordered : s.store.ranks.Ordered) {source : Atom → Option Source} {count : Nat}
    (numeric : (s.reduce source count).2.store.ranks.Numeric) :
    (s.reduce source count).2.store.ranks.Ordered := by
  obtain ⟨store, watches⟩ := s
  have visited := Reduction.visit_ranks (P := fun ranks => ranks.Sortable ∧ ranks.Ordered)
    (fun _ inOrder => ⟨inOrder.1.popMax, inOrder.1.popMax_ordered inOrder.2⟩) source
    store.ranks.activeCount count
    { state := ⟨{ store with ranks := { blank := {} } }, watches⟩, ranks := store.ranks }
    ⟨sortable, ordered⟩
  simp only [reduce] at numeric ⊢
  split at numeric
  · rename_i answer
    rw [answer] at visited
    exact visited.2
  · rename_i answer
    rw [answer] at visited
    exact Reduction.reactivate_ordered visited.1.wellFormed visited.2 numeric

namespace Solver

theorem observe_propagateLiteral {α : Type} (observe : ClauseStore → α)
    (unaware : ∀ s key f, observe (ClauseStore.modify s key f) = observe s) (s : Solver)
    (l : Literal) :
    observe (s.propagateLiteral l).2.clauses.store = observe s.clauses.store := by
  have failed (s : Solver) (failure : Failure) :
      observe (s.noteFailure failure).clauses.store = observe s.clauses.store := by
    obtain ⟨journal, noted⟩ := s.noteFailure_eq failure
    rw [noted]
  have visited (s : Solver) (key : ClauseKey) :
      observe (s.visit l key).2.clauses.store = observe s.clauses.store := by
    have visits := s.visits_visit l key
    generalize s.visit l key = answer at visits
    cases visits with
    | dead failure => exact failed s failure
    | stray c failure => exact (failed ..).trans (unaware ..)
    | moved c watches => exact unaware ..
    | kept c => exact unaware ..
    | conflict c => simp only [clauses_note, modifyStore, unaware]
    | implied c front => simp only [clauses_imply, modifyStore, unaware]
  have walked := walk_related
    (R := fun s s' => observe s'.clauses.store = observe s.clauses.store)
    (fun _ => rfl) (fun first second => second.trans first) visited
    ⟨s.modifyWatches fun w => (w.take (-l)).2, s.clauses.watches.watchers (-l),
      (s.clauses.watches.watchers (-l)).size⟩ 0
  rw [propagateLiteral_eq rfl]
  exact walked

theorem ranks_propagateLiteral (s : Solver) (l : Literal) :
    (s.propagateLiteral l).2.clauses.store.ranks = s.clauses.store.ranks :=
  observe_propagateLiteral (·.ranks) (fun _ key _ => by cases key <;> rfl) s l

end Solver

namespace RecordedStore

variable {limit : Nat} {r : RecordedStore}

theorem Sound.perform_ordered (sound : r.Sound limit) (ordered : r.state.store.ranks.Ordered)
    (numeric : r.state.store.Numeric) {call : StoreCall}
    (numeric' : (r.perform call).state.store.Numeric) :
    (r.perform call).state.store.ranks.Ordered := by
  have wellFormed := sound.orderly.ranked.wellFormed
  have numbers := sound.orderly.numeric numeric
  have sortable := numbers.sortable wellFormed
  have numbers' := (sound.perform call).orderly.numeric numeric'
  cases call with
  | insert value level c distinct origin blockDistance =>
    have after : (r.perform (.insert value level c distinct origin blockDistance)).state =
        (r.state.insert value level c origin blockDistance).2 := by
      simp only [RecordedStore.perform]
      split <;> rename_i answer <;> rw [answer]
    rw [after] at numbers' ⊢
    exact WatchedStore.insert_ordered wellFormed ordered numbers numbers'
  | remove key =>
    have after : (r.perform (.remove key)).state = (r.state.remove key).2 := by
      simp only [RecordedStore.perform]
      split <;> rename_i answer <;> rw [answer]
    rw [after]
    exact WatchedStore.remove_ordered ordered sortable key
  | reduce source count => exact WatchedStore.reduce_ordered sortable ordered numbers'
  | raise key => exact ClauseStore.raise_ordered wellFormed ordered key numbers'
  | decay => exact ClauseStore.decay_ordered wellFormed ordered numbers'
  | propagate s l =>
    exact ({ s with clauses := r.state } : Solver).ranks_propagateLiteral l ▸ ordered

theorem Sound.performAll_ordered (sound : r.Sound limit) (ordered : r.state.store.ranks.Ordered)
    {calls : List StoreCall}
    (numeric : ∀ earlier ∈ calls.inits, (r.performAll earlier).state.store.Numeric) :
    (r.performAll calls).state.store.ranks.Ordered := by
  induction calls generalizing r with
  | nil => exact ordered
  | cons call rest ih =>
    have first (tail : List StoreCall) : [] ∈ tail.inits := (List.mem_inits ..).2 List.nil_prefix
    have next (earlier : List StoreCall) (member : earlier ∈ rest.inits) :
        ((r.perform call).performAll earlier).state.store.Numeric := by
      rw [List.mem_inits] at member
      exact numeric (call :: earlier) ((List.mem_inits ..).2 ((List.prefix_cons_inj call).2 member))
    exact ih (sound.perform call)
      (sound.perform_ordered ordered (numeric [] (first _)) (next [] (first _))) next

end RecordedStore

end ClauseLearning
