import ClauseLearning.Proofs.Completeness
import ClauseLearning.Proofs.Soundness

/-!
A search without an end. A restart takes back the assignment that a learned clause is the reason
for, so a reduction that follows at once may remove the clause: if it does so after every conflict,
the search is each time back where it began.
-/

namespace ClauseLearning

theorem Array.two_le_size {α : Type} {xs : Array α} {x y : α} (first : x ∈ xs) (second : y ∈ xs)
    (apart : x ≠ y) : 2 ≤ xs.size := by
  obtain ⟨i, atFirst⟩ := Array.getElem?_of_mem first
  obtain ⟨j, atSecond⟩ := Array.getElem?_of_mem second
  have inside := (Array.getElem?_eq_some_iff.1 atFirst).1
  have within := (Array.getElem?_eq_some_iff.1 atSecond).1
  by_contra few
  obtain rfl : i = j := by omega
  exact apart (Option.some.inj (atFirst.symm.trans atSecond))

theorem Clause.exists_others {c : Clause} (wide : 3 ≤ c.length) (distinct : c.Nodup) (l : Literal) :
    ∃ m ∈ c, ∃ o ∈ c, m ≠ l ∧ o ≠ l ∧ m ≠ o := by
  match c, wide with
  | a :: b :: d :: rest, _ =>
    by_cases first : a = l
    · exact ⟨b, by simp, d, by simp, by grind⟩
    · by_cases second : b = l
      · exact ⟨a, by simp, d, by simp, by grind⟩
      · exact ⟨a, by simp, b, by simp, by grind⟩

namespace ResolutionBuffer

theorem two_le_countP_range {p : Nat → Bool} {n i j : Nat} (inside : i < n) (within : j < n)
    (apart : i ≠ j) (first : p i = true) (second : p j = true) :
    2 ≤ (List.range n).countP p := by
  rw [List.countP_eq_length_filter]
  have nodup : [i, j].Nodup := by simp [apart]
  have part : [i, j] ⊆ (List.range n).filter p := by
    intro k member
    rcases List.mem_pair.1 member with rfl | rfl <;> simp [*]
  exact (List.subperm_of_subset nodup part).length_le

theorem Collected.two_le_pending {b b' : ResolutionBuffer} {t : AtomTable} {trail : Trail} {n : Nat}
    {c : Clause} {l : Literal} (collected : b'.Collected trail t.size n)
    (merges : b.Merges b' trail c)
    (high : ∀ i < trail.literals.size, 0 < trail.levelAt i) (wide : 3 ≤ c.length)
    (distinct : c.Nodup) (false : ∀ m ∈ c, m ≠ l → ∃ i < n, trail.literals[i]? = some (-m))
    (unsettled : b'.settled = #[]) : 2 ≤ b'.pending := by
  have isOpen (m : Literal) (member : m ∈ c) (other : m ≠ l) :
      ∃ i < n, trail.literals[i]? = some (-m) ∧ b'.isOpenAt trail i = true := by
    obtain ⟨i, inside, found⟩ := false m member other
    have isMerged : b'.isMerged (-m).natAbs = true := by
      rw [Int.natAbs_neg]
      refine (merges.covered m member).resolve_right ?_
      rintro ⟨j, located, zero⟩
      exact (high j (Array.getElem?_eq_some_iff.1 located).1).ne' zero
    refine ⟨i, inside, found, (isOpenAt_iff found).2 ⟨?_, isMerged⟩⟩
    by_contra lower
    have settled := collected.lower i (-m) found isMerged
      ((trail.levelAt_le_level i).lt_of_ne lower)
    rw [unsettled] at settled
    exact Array.not_mem_empty _ settled
  obtain ⟨m, literal, o, literal', other, other', apart⟩ := Clause.exists_others wide distinct l
  obtain ⟨i, inside, found, first⟩ := isOpen m literal other
  obtain ⟨j, within, located, second⟩ := isOpen o literal' other'
  rw [collected.pending]
  refine two_le_countP_range inside within ?_ first second
  rintro rfl
  exact apart (Int.neg_inj.1 (Option.some.inj (found.symm.trans located)))

end ResolutionBuffer

namespace ClauseStore

def Wide (s : ClauseStore) : Prop := ∀ key c, s.get key = .ok c → 3 ≤ c.clause.length

variable {s s' : ClauseStore}

theorem Wide.congr (wide : s.Wide) (same : s.SameClauses s') : s'.Wide :=
  fun key c live => wide key c ((same.get_eq key).symm.trans live)

theorem Wide.rearrange (wide : s.Wide) (same : s.Rearranged s') : s'.Wide := by
  intro key c' live
  obtain ⟨c, before, perm⟩ := same.back key c' live
  exact (wide key c before).trans perm.length_eq.ge

end ClauseStore

namespace Solver

variable {s s' : Solver} {formula : List Clause} {l : Literal} {key : ClauseKey} {n : Nat}

def High (s : Solver) : Prop := ∀ i < s.trail.literals.size, 0 < s.trail.levelAt i

theorem High.congr (high : s.High) (trail : s'.trail = s.trail) : s'.High := by
  unfold High
  rwa [trail]

theorem High.size_eq_zero (high : s.High) (zero : s.trail.level = 0) :
    s.trail.literals.size = 0 := by
  by_contra nonempty
  have := high 0 (Nat.pos_of_ne_zero nonempty)
  have := s.trail.levelAt_le_level 0
  omega

theorem Coherent.nodup_clause (coherent : s.Coherent) {c : WatchedClause}
    (live : s.clauses.store.get key = .ok c) : c.clause.Nodup :=
  .of_map _ (coherent.orderly.wellFormed.shaped key c live).distinct

theorem Retraces.settled_ne_empty {i : Nat} (way : Retraces formula n s i l s')
    (high : s.High) (wide : s.clauses.store.Wide)
    (ample : s.buffer.settled = #[] → 2 ≤ s.buffer.pending) : s'.buffer.settled ≠ #[] := by
  -- Each reason has two more literals: where one literal is left, a lower level has another.
  induction way with
  | finish resolving found isOpen last =>
    have retired := resolving.collected.retire
    rw [if_pos isOpen] at retired
    intro unsettled
    obtain ⟨j, before, other⟩ := retired.exists_isOpenAt (Nat.sub_pos_of_lt (ample unsettled))
    exact last j before other
  | skip _ _ _ _ ih => exact ih high wide ample
  | resolve resolving found isOpen other known live implies same merges rest ih =>
    have high' := high.congr same.trail
    rw [← same.trail] at merges implies
    exact ih high' (wide.congr same.clauses) (rest.resolving.collected.two_le_pending merges high'
      (wide _ _ live) (resolving.coherent.nodup_clause live) implies.earlier)

theorem derive_long {rest : Clause} (conflicting : s.Conflicting key) (coherent : s.Coherent)
    (entailed : s.Entailed formula) (decided : 0 < s.trail.level) (high : s.High)
    (wide : s.clauses.store.Wide) (answer : s.derive key = (.ok (l :: rest), s')) : rest ≠ [] := by
  obtain ⟨s₁, merged, same, resolving, isOpen, c, live, false, merges⟩ :=
    conflicting.resolving coherent entailed decided
  have high' : s₁.High := high.congr same.trail
  rw [← same.trail] at merges false decided resolving
  have before (m : Literal) (member : m ∈ c.clause) :
      ∃ i < s₁.trail.literals.size, s₁.trail.literals[i]? = some (-m) := by
    obtain ⟨i, found⟩ := Array.getElem?_of_mem (false m member)
    exact ⟨i, (Array.getElem?_eq_some_iff.1 found).1, found⟩
  have ample := resolving.collected.two_le_pending merges high' (wide key c live)
    (coherent.nodup_clause live) (l := 0) fun m member _ => before m member
  obtain ⟨i, uip, s₂, resolved, way⟩ := resolving.retraces (Nat.le_refl _) isOpen decided
  obtain ⟨rest', derived, perm, -⟩ := derive_of_resolved merged same.trail resolved
  obtain ⟨⟨⟩, -⟩ := Prod.mk.inj (answer.symm.trans derived)
  rintro rfl
  exact way.settled_ne_empty high' (wide.congr same.clauses) ample
    (Array.toList_eq_nil_iff.1 perm.nil_eq.symm)

end Solver

namespace ClauseStore

structure Unlearned (s : ClauseStore) : Prop where
  none : ∀ i token c, s.get (.addition i token) ≠ .ok c
  count : s.additionCount = 0

structure Lone (s : ClauseStore) (i blockDistance : Nat) : Prop where
  stored : ∃ token c, s.get (.addition i token) = .ok c
  only : ∀ j token c, s.get (.addition j token) = .ok c → j = i
  count : s.additionCount = 1
  rank : (s.ranks.value? i).map ClauseRank.blockDistance = some blockDistance

structure SameBase (s s' : ClauseStore) : Prop where
  originalUnits : s'.originalUnits = s.originalUnits
  additionUnits : s'.additionUnits = s.additionUnits
  originals : s'.originals = s.originals
  limit : s'.limit = s.limit
  blockDistanceBound : s'.blockDistanceBound = s.blockDistanceBound

variable {s s' s'' : ClauseStore}

theorem SameBase.trans (first : s.SameBase s') (second : s'.SameBase s'') : s.SameBase s'' where
  originalUnits := second.originalUnits.trans first.originalUnits
  additionUnits := second.additionUnits.trans first.additionUnits
  originals := second.originals.trans first.originals
  limit := second.limit.trans first.limit
  blockDistanceBound := second.blockDistanceBound.trans first.blockDistanceBound

theorem SameBase.totalCount_eq (same : s.SameBase s') (unlearned : s.Unlearned)
    (unlearned' : s'.Unlearned) : s'.totalCount = s.totalCount := by
  simp only [totalCount, same.originalUnits, same.additionUnits, same.originals, unlearned.count,
    unlearned'.count]

theorem Wide.unlearn (wide : s.Wide) (same : s.SameBase s') (unlearned : s'.Unlearned) :
    s'.Wide := by
  intro key c live
  cases key with
  | originalUnit l => exact absurd live get_originalUnit
  | additionUnit l => exact absurd live get_additionUnit
  | addition i token => exact absurd live (unlearned.none i token c)
  | original i =>
    rw [get_original, same.originals] at live
    exact wide (.original i) c (get_original.2 live)

theorem Lone.popMax {proper : Literal → Prop} {i blockDistance : Nat} (lone : s.Lone i blockDistance)
    (orderly : s.Orderly proper) :
    ∃ rest c, s.ranks.popMax = (some i, rest) ∧ s.additions[i]? = some (some c) ∧
      ((rest.value? i).getD {}).blockDistance = blockDistance := by
  obtain ⟨token, c, live⟩ := lone.stored
  have onHeap := (orderly.ranked.active i).2 ⟨c, (get_addition.1 live).1⟩
  cases popped : s.ranks.popMax with
  | mk top rest =>
    cases top with
    | none =>
      have empty := IndexedHeap.popMax_none (congrArg Prod.fst popped)
      exact absurd (Array.size_pos_of_mem onHeap) (Nat.not_lt.2 empty.le)
    | some j =>
      obtain ⟨active, -⟩ := IndexedHeap.popMax_some (congrArg Prod.fst popped)
      obtain ⟨d, slot⟩ := (orderly.ranked.active j).1 active
      obtain ⟨token', key⟩ := orderly.wellFormed.slotted j d slot
      obtain rfl := lone.only j token' d (get_addition.2 ⟨slot, key⟩)
      obtain ⟨rank, ranked, rfl⟩ := Option.map_eq_some_iff.1 lone.rank
      have values := s.ranks.values_popMax
      rw [popped] at values
      refine ⟨rest, d, rfl, slot, ?_⟩
      rw [IndexedHeap.value?, values, ← IndexedHeap.value?, ranked, Option.getD_some]

end ClauseStore

theorem Reduction.visit_none (source : Atom → Option Source) (visits : Nat) (r : Reduction) :
    Reduction.visit source visits 0 r = (.ok (), r) := by
  cases visits <;> simp [Reduction.visit]

namespace WatchedStore

open ClauseStore

variable {s s' : WatchedStore} {proper : Literal → Prop} {i blockDistance : Nat}

theorem insertAddition_lone (value : Atom → Option Bool) (orderly : s.store.Orderly proper)
    (left : s.store.HasKey .resolution) (unlearned : s.store.Unlearned) (c : Clause)
    (blockDistance : Nat) :
    s.store.SameBase (insertAddition value s c blockDistance).2.store ∧
      ∃ i, (insertAddition value s c blockDistance).2.store.Lone i blockDistance := by
  obtain ⟨i, token, vacated, le, free, -, inserted⟩ :=
    insertAddition_addLong orderly.vacant left value c blockDistance
  let stored := WatchedClause.ofClause value (.addition i token) c
  have isStored : Stored s.store (s.store.addLong i stored vacated blockDistance) stored :=
    stored_addition le free rfl rfl rfl
  rw [inserted]
  refine ⟨⟨rfl, rfl, rfl, rfl, rfl⟩, i, ⟨token, stored, isStored.live⟩, fun j token' d live => ?_,
    congrArg (· + 1) unlearned.count, ?_⟩
  · rcases (isStored.get_iff _ _).1 live with ⟨same, -⟩ | before
    · exact (ClauseKey.addition.inj same).1
    · exact absurd before (unlearned.none j token' d)
  · exact congrArg (Option.map _) (value?_addLong orderly.ranked le stored vacated blockDistance)

theorem additionCount_detach {key : ClauseKey} (detached : s.detach key = (.ok (), s')) :
    s'.store.additionCount = s.store.additionCount - 1 := by
  unfold detach at detached
  split at detached
  · split at detached
    · cases detached
    · simp only at detached
      split at detached <;> cases detached
      rfl
  · cases detached

theorem reduce_lone {source : Atom → Option Source} (orderly : s.store.Orderly proper)
    (mirrors : s.Mirrors) (lone : s.store.Lone i blockDistance)
    (above : s.store.blockDistanceBound < blockDistance) (unreasoned : ∀ a, source a = none) :
    (s.reduce source 1).2.store.Unlearned := by
  obtain ⟨store, watches⟩ := s
  have reducing := Reducing.start source orderly mirrors
  obtain ⟨rest, c, popped, slot, distance⟩ := lone.popMax orderly
  obtain ⟨visits, active⟩ : ∃ visits, store.ranks.activeCount = visits + 1 :=
    Nat.exists_eq_succ_of_ne_zero
      (Array.size_pos_of_mem ((orderly.ranked.active i).2 ⟨c, slot⟩)).ne'
  have unprotected : ¬Reduction.isProtected source { store with ranks := { blank := {} } }
      ((rest.value? i).getD {}) c.key := by
    rw [Reduction.isProtected, distance, decide_eq_false (Nat.not_le.2 above), Bool.false_or,
      isReason]
    split
    · simp [unreasoned]
    · simp
  obtain ⟨state, detached, reducing'⟩ := reducing.detach popped slot unprotected
  have count : state.store.additionCount = 0 := by
    rw [additionCount_detach detached, lone.count]
  have reduced :
      (reduce source ⟨store, watches⟩ 1).2.store = { state.store with ranks := rest } := by
    simp only [reduce, active, Reduction.visit, popped, slot, if_neg unprotected, detached,
      Reduction.visit_none]
    rfl
  rw [reduced]
  refine ⟨fun k token e live => ?_, count⟩
  have found : state.store.additions[k]? = some (some e) := (get_addition.1 live).1
  obtain ⟨-, -, order, -⟩ := reducing.popped_spec popped
  -- Whatever is left was another addition, for it is on the heap still.
  have stays : k ∈ rest.order :=
    ((reducing'.active k).2 ⟨e, found⟩).resolve_right List.not_mem_nil
  obtain ⟨before, other⟩ := (order k).1 stays
  obtain ⟨e', slot'⟩ := (orderly.ranked.active k).1 before
  obtain ⟨token', key⟩ := orderly.wellFormed.slotted k e' slot'
  exact other (lone.only k token' e' (get_addition.2 ⟨slot', key⟩))

end WatchedStore

theorem Clause.blockDistance_pos {level : Atom → Option Nat} {l : Literal} {n : Nat} (rest : Clause)
    (valued : level l.natAbs = some n) : 0 < Clause.blockDistance level (l :: rest) := by
  have levels : (l :: rest).filterMap (fun m => level m.atom) =
      n :: rest.filterMap fun m => level m.atom :=
    List.filterMap_cons_some valued
  refine Nat.lt_min.2 ⟨?_, by decide⟩
  rw [levels, List.eraseDups_cons, List.length_cons]
  exact Nat.succ_pos _

namespace Solver

variable {s s' : Solver} {formula : List Clause} {l : Literal} {rest : Clause} {key : ClauseKey}
  {proper : Literal → Prop} {i blockDistance : Nat}

theorem insert_lone (orderly : s.clauses.store.Orderly proper)
    (unlearned : s.clauses.store.Unlearned) (long : rest ≠ [])
    (inserted : s.insert (l :: rest) .resolution (some blockDistance) = (.ok key, s')) :
    s.clauses.store.SameBase s'.clauses.store ∧ ∃ i, s'.clauses.store.Lone i blockDistance := by
  obtain ⟨m, rest, rfl⟩ := List.exists_cons_of_ne_nil long
  have takes := takes_of_insert (List.cons_ne_nil l (m :: rest)) inserted
  have lone := WatchedStore.insertAddition_lone s.atoms.value orderly
    (takes.key (Nat.le_add_left 2 _)) unlearned (l :: m :: rest) blockDistance
  have stored := stored_of_insert inserted
  unfold WatchedStore.insert at stored
  simp only [if_neg (Nat.not_le.2 takes.room), Option.getD_some] at stored
  rwa [stored] at lone

theorem reduce_forgets (invariant : s.Invariant formula fun _ => False)
    (lone : s.clauses.store.Lone i blockDistance)
    (above : s.clauses.store.blockDistanceBound < blockDistance)
    (empty : s.trail.literals.size = 0)
    (share : (Float.ofNat 1 * s.settings.reductionRatio).toUInt64.toNat = 1) :
    s.clauses.store.SameBase s.reduce.2.clauses.store ∧ s.reduce.2.clauses.store.Unlearned := by
  have unreasoned (a : Atom) : s.atoms.source a = none := by
    cases known : s.atoms.source a with
    | none => rfl
    | some source =>
      obtain ⟨i, l, found, -⟩ := invariant.coherent.agrees.exists_getElem? known
      exact absurd (Array.getElem?_eq_some_iff.1 found).1 (by omega)
  have orderly := invariant.coherent.orderly
  have unlearned := WatchedStore.reduce_lone orderly invariant.mirrors lone above unreasoned
  have limit := WatchedStore.observe_reduce ClauseStore.lasting_limit s.atoms.source s.clauses 1
  have distance :=
    WatchedStore.observe_reduce ClauseStore.lasting_blockDistanceBound s.atoms.source s.clauses 1
  obtain ⟨removed, clauses, answer, -, -, -, -, originalUnits, additionUnits, originals⟩ :=
    WatchedStore.reduce_spec s.atoms.source orderly invariant.mirrors 1
  have reduced : s.reduce.2.clauses = clauses := by
    obtain ⟨journal, once⟩ := s.reduceBy_eq 1
    replace once := congrArg Solver.clauses once
    rw [answer] at once
    unfold reduce
    simp only [lone.count, share]
    split <;> rename_i reduced <;> rw [reduced] at once <;> exact once
  rw [answer] at unlearned limit distance
  rw [reduced]
  exact ⟨⟨originalUnits, additionUnits, originals, limit, distance⟩, unlearned⟩

/-- There is nothing to draw consequences from but wide clauses of the formula, and only what was
decided is on the first levels of the trail. -/
structure Idle (s : Solver) : Prop where
  wide : s.clauses.store.Wide
  unlearned : s.clauses.store.Unlearned
  room : s.HasRoom
  high : s.High
  shallow : s.trail.level ≤ 1 → s.trail.literals.size ≤ 1

/-- Every conflict is followed by a restart, and by a reduction that removes what it taught. -/
structure Forgetful (s : Solver) : Prop where
  restarts : s.schedule.conflict = (true, s.schedule)
  interval : s.settings.reductionInterval = 1
  share : (Float.ofNat 1 * s.settings.reductionRatio).toUInt64.toNat = 1
  blockDistanceBound : s.clauses.store.blockDistanceBound = 0

theorem Forgetful.congr (forgetful : s.Forgetful) (schedule : s'.schedule = s.schedule)
    (settings : s'.settings = s.settings) (bound : s'.clauses.store.blockDistanceBound =
      s.clauses.store.blockDistanceBound) : s'.Forgetful where
  restarts := schedule ▸ forgetful.restarts
  interval := settings ▸ forgetful.interval
  share := settings ▸ forgetful.share
  blockDistanceBound := bound.trans forgetful.blockDistanceBound

theorem Idle.mem_of_implied (idle : s.Idle) (coherent : s.Coherent)
    (few : s.trail.literals.size ≤ 1) (implied : s.Implied l) : l ∈ s.trail.literals := by
  induction implied with
  | given member => exact Array.mem_toList_iff.1 member
  | @unit c l member literal others ih =>
    obtain ⟨d, stored, rfl⟩ := List.mem_map.1 member
    have live := coherent.orderly.wellFormed.mem_longClauses.1 stored
    obtain ⟨m, inside, o, inside', other, other', apart⟩ :=
      Clause.exists_others (idle.wide _ d live) (coherent.nodup_clause live) l
    have two := Array.two_le_size (ih m inside other) (ih o inside' other') fun same =>
      apart (Int.neg_inj.1 same)
    exact absurd few (Nat.not_le.2 two)

theorem Idle.size_le (idle : s.Idle) (coherent : s.Coherent) (few : s.trail.literals.size ≤ 1)
    (draws : s.Draws s') (agrees : s'.atoms.Agrees s'.trail) :
    s'.trail.literals.size ≤ s.trail.literals.size := by
  have part : s'.trail.literals.toList ⊆ s.trail.literals.toList := fun l member =>
    Array.mem_toList_iff.2 (idle.mem_of_implied coherent few
      (draws.implied l (Array.mem_toList_iff.1 member)))
  simpa using (List.subperm_of_subset agrees.nodup part).length_le

theorem Idle.level_of_conflict (idle : s.Idle) (coherent : s.Coherent) (draws : s.Draws s')
    (coherent' : s'.Coherent) (conflicting : s'.Conflicting key) : 1 < s.trail.level := by
  by_contra low
  have few := idle.shallow (Nat.le_of_not_lt low)
  obtain ⟨c, live, isFalse, -⟩ := conflicting
  obtain ⟨m, inside, o, inside', -, -, apart⟩ := Clause.exists_others
    (idle.wide.rearrange draws.rearranged key c live) (coherent'.nodup_clause live) 0
  have two := Array.two_le_size (isFalse m inside) (isFalse o inside') fun same =>
    apart (Int.neg_inj.1 same)
  have le := idle.size_le coherent few draws coherent'.agrees
  omega

theorem Idle.draw (idle : s.Idle) (coherent : s.Coherent) (draws : s.Draws s')
    (coherent' : s'.Coherent) (frame : s.SameFrame s') :
    s'.clauses.store.Wide ∧ s'.clauses.store.Unlearned ∧ s'.HasRoom ∧ s'.High := by
  refine ⟨idle.wide.rearrange draws.rearranged, ⟨fun i token c live => ?_, ?_⟩,
    frame.hasRoom_iff.2 idle.room, fun i inside => ?_⟩
  · obtain ⟨c', before, -⟩ := draws.rearranged.back _ c live
    exact idle.unlearned.none i token c' before
  · exact (frame.2 _ ClauseStore.steady_additionCount).trans idle.unlearned.count
  · by_cases old : i < s.trail.literals.size
    · exact (idle.high i old).trans_eq (draws.extends_trail.levels i old).symm
    -- What was drawn is of the current level, and on level zero nothing was.
    have current : s'.trail.levelAt i = s.trail.level := by
      rw [← draws.level]
      refine Trail.levelAt_eq_level fun start member => ?_
      have := coherent.trail.inside start (draws.starts ▸ member)
      omega
    rw [current]
    by_contra zero
    have empty := idle.high.size_eq_zero (Nat.eq_zero_of_not_pos zero)
    have := idle.size_le coherent (by omega) draws coherent'.agrees
    omega

theorem Idle.decide {s₁ : Solver} (idle : s.Idle) (coherent : s.Coherent) (draws : s.Draws s₁)
    (watched : s₁.Watched) (gains : s₁.Gains s' l .decision)
    (trail : s'.trail = s₁.trail.pushLevel.push l) (frame : s.SameFrame s₁) : s'.Idle := by
  obtain ⟨wide, unlearned, room, high⟩ := idle.draw coherent draws watched.coherent frame
  have deeper := draws.level_decide trail
  have size : s'.trail.literals.size = s₁.trail.literals.size + 1 := by
    rw [gains.literals, Array.size_push]
  have room' : s'.HasRoom := by
    rw [HasRoom, gains.clauses]
    exact room
  refine ⟨gains.clauses ▸ wide, gains.clauses ▸ unlearned, room', fun i inside => ?_, fun low => ?_⟩
  · by_cases old : i < s₁.trail.literals.size
    · exact (high i old).trans_eq (gains.extends_trail.levels i old).symm
    · obtain rfl : i = s₁.trail.literals.size := by omega
      rw [gains.levelAt_last, deeper]
      exact Nat.succ_pos _
  · have empty := idle.high.size_eq_zero (by omega)
    have := idle.size_le coherent (by omega) draws watched.coherent.agrees
    omega

theorem Learns.long {level : Nat} (learns : s.Learns formula l rest level s')
    (wide : s.clauses.store.Wide) (high : s.High) : rest ≠ [] := by
  obtain ⟨key, t, t', same, searching, conflicting, derived⟩ := learns.resolved
  exact derive_long conflicting searching.invariant.coherent searching.invariant.entailed
    (same.trail ▸ learns.derived.decided) (high.congr same.trail) (wide.congr same.clauses) derived

theorem Learns.lone {level : Nat} (learns : s.Learns formula l rest level s')
    (wide : s.clauses.store.Wide) (unlearned : s.clauses.store.Unlearned) (high : s.High) :
    s.clauses.store.SameBase s'.clauses.store ∧
      ∃ i blockDistance, s'.clauses.store.Lone i blockDistance ∧ 0 < blockDistance := by
  have long := learns.long wide high
  obtain ⟨t, key, distance, same, frame, searching, measured, inserted⟩ := learns.stored
  obtain rfl := measured long
  have retreats := backjump_retreats searching.invariant.coherent.aligned level
  have unlearned' : (t.backjump level).clauses.store.Unlearned := by
    rw [retreats.clauses]
    refine ⟨fun i token c live => unlearned.none i token c ?_, ?_⟩
    · exact (same.clauses.get_eq _).symm.trans live
    · exact (frame.2 _ ClauseStore.steady_additionCount).trans unlearned.count
  obtain ⟨base, i, lone⟩ := insert_lone (searching.invariant.backjump level).coherent.orderly
    unlearned' long inserted
  rw [retreats.clauses] at base
  have before : s.clauses.store.SameBase t.clauses.store :=
    ⟨same.clauses.originalUnits, same.clauses.additionUnits, same.clauses.originals,
      frame.2 _ ClauseStore.steady_limit, frame.2 _ ClauseStore.steady_blockDistanceBound⟩
  obtain ⟨j, found, -⟩ := learns.derived.current
  have valued := searching.invariant.coherent.agrees.level_of_getElem? (same.trail ▸ found)
  rw [Int.natAbs_neg] at valued
  exact ⟨before.trans base, i, _, lone, Clause.blockDistance_pos rest valued⟩

theorem High.learn {s₂ : Solver} {source : Source} {level : Nat} (high : s.High)
    (coherent : s.Coherent) (learns : s.Learns formula l rest level s₂) (positive : 0 < level)
    (asserted : s₂.assertLesson l source = (.ok (), s')) : s'.High := by
  have trail : s'.trail = (s.trail.cut level).push l := by
    rw [(assertLesson_ok asserted).1, learns.trail.1]
  rw [High, trail]
  intro i inside
  rw [Trail.levelAt_push]
  by_cases kept : i < (s.trail.cut level).literals.size
  · have found := Array.getElem?_eq_getElem kept
    rw [Trail.getElem?_cut coherent.aligned.trail] at found
    split at found
    · rename_i le
      rw [Trail.levelAt_cut coherent.aligned.trail le]
      exact high i (Array.getElem?_eq_some_iff.1 found).1
    · cases found
  · have current : (s.trail.cut level).levelAt i = (s.trail.cut level).level := by
      refine Trail.levelAt_eq_level fun start member => ?_
      exact ((coherent.trail.cut level).inside start member).le.trans (Nat.le_of_not_lt kept)
    rw [current, Trail.level_cut]
    exact Nat.lt_min.2 ⟨positive, learns.derived.decided⟩

theorem High.maintain (high : s.High) (searching : s.Searching formula) (forgetful : s.Forgetful)
    (lone : s.clauses.store.Lone i blockDistance) (positive : 0 < blockDistance)
    (maintained : s.maintain = (.ok (), s')) :
    s'.trail.literals.size = 0 ∧ s.clauses.store.SameBase s'.clauses.store ∧
      s'.clauses.store.Unlearned := by
  have coherent := searching.invariant.coherent
  have retreats := restartIfDue_retreats coherent (congrArg Prod.fst forgetful.restarts)
  have invariant := (restartIfDue_spec searching.invariant).1
  have settings : s.restartIfDue.2.settings = s.settings := s.sameFrame_restartIfDue.1
  have due : s.restartIfDue.2.reductionIsDue = true := by
    simp [reductionIsDue, settings, forgetful.interval, Nat.mod_one]
  -- The restart takes every literal back, for none is of level zero.
  have empty : s.restartIfDue.2.trail.literals.size = 0 := by
    by_contra nonempty
    obtain ⟨m, found⟩ : ∃ m, s.restartIfDue.2.trail.literals[0]? = some m :=
      ⟨_, Array.getElem?_eq_getElem (Nat.pos_of_ne_zero nonempty)⟩
    obtain ⟨before, zero, -⟩ := retreats.of_found coherent.aligned found
    exact absurd (high 0 (Array.getElem?_eq_some_iff.1 before).1) (Nat.not_lt.2 zero)
  rw [← retreats.clauses] at lone
  have above : s.restartIfDue.2.clauses.store.blockDistanceBound < blockDistance := by
    rw [retreats.clauses, forgetful.blockDistanceBound]
    exact positive
  have forgets := reduce_forgets invariant lone above empty (settings ▸ forgetful.share)
  have trail := (sameTrail_reduce s.restartIfDue.2).1
  obtain rfl : s.restartIfDue.2.reduce.2 = s' := by
    unfold Solver.maintain at maintained
    simp only [due, if_true] at maintained
    split at maintained <;> rename_i reduced <;> cases maintained
    rw [reduced]
  rw [trail, ← retreats.clauses]
  exact ⟨empty, forgets⟩

theorem Idle.pass (idle : s.Idle) (forgetful : s.Forgetful) (searching : s.Searching formula)
    (answer : s.pass = (.ok .ongoing, s')) : s'.Idle ∧ s'.Forgetful := by
  have coherent := searching.invariant.coherent
  cases searching.pass_cases answer with
  | @decision s₁ l draws watched _ gains trail frame settings schedule _ =>
    refine ⟨idle.decide coherent draws watched gains trail frame,
      forgetful.congr schedule settings ?_⟩
    rw [gains.clauses]
    exact frame.2 _ ClauseStore.steady_blockDistanceBound
  | @lesson s₁ s₂ s₃ key l rest level source draws frame clash learns asserted heeding settings
      schedule _ maintained =>
    obtain ⟨wide, unlearned, room, high⟩ :=
      idle.draw coherent draws clash.1.invariant.coherent frame
    -- One addition is there after the conflict, and none after the reduction.
    obtain ⟨base, i, blockDistance, lone, positive⟩ := learns.lone wide unlearned high
    have raised := high.learn clash.1.invariant.coherent learns
      (learns.positive (learns.long wide high)) asserted
    rw [← (assertLesson_ok asserted).2.2] at base lone
    have forgetful' : s₃.Forgetful := forgetful.congr schedule settings
      (base.blockDistanceBound.trans (frame.2 _ ClauseStore.steady_blockDistanceBound))
    obtain ⟨empty, base', unlearned'⟩ :=
      raised.maintain heeding forgetful' lone positive maintained
    have same := base.trans base'
    have room' : s'.HasRoom := by
      rw [HasRoom, same.totalCount_eq unlearned unlearned', same.limit]
      exact room
    have schedule' : s'.schedule = s₃.schedule := by
      obtain ⟨journal, told⟩ := s₃.maintain_surroundings
      rw [maintained] at told
      exact (congrArg Surroundings.schedule told).trans (congrArg Prod.snd forgetful'.restarts)
    have settings' := (Steps.sameSetup (pass_steps formula s)).1
    rw [answer] at settings'
    refine ⟨⟨wide.unlearn same unlearned', unlearned', room', fun i inside => ?_, fun _ => ?_⟩,
      forgetful.congr (schedule'.trans schedule) settings' ?_⟩
    · exact absurd inside (empty ▸ Nat.not_lt_zero i)
    · exact empty.le.trans (Nat.zero_le 1)
    · exact same.blockDistanceBound.trans (frame.2 _ ClauseStore.steady_blockDistanceBound)

theorem Idle.pass_goesOn (idle : s.Idle) (searching : s.Searching formula)
    (undisturbed : s.Undisturbed) (unsatisfiable : ∀ v : World, ¬v.Models formula) :
    s.pass.1 = .ok .ongoing ∨
      s.pass.1 = .error .additionKeys ∧ s.pass.2.HasRoom ∧ ¬s.pass.2.store.HasKey .resolution := by
  have passed := Steps.good (pass_steps formula s) searching
  match answer : s.pass with
  | (.error failure, s') =>
    have fails := pass_fails searching
    rw [answer] at fails
    obtain ⟨rfl, room, spent⟩ := fails.spent_of_hasRoom idle.room rfl
    exact .inr ⟨rfl, room, spent⟩
  | (.ok .ongoing, s') => exact .inl rfl
  | (.ok .finished, s') =>
    exfalso
    rw [answer] at passed
    rcases undisturbed.pass_finished answer with satisfiable | ⟨-, key, s₁, drawn, undecided⟩
    · obtain ⟨v, models⟩ := (Settled.hasModel passed satisfiable).satisfiable
      exact unsatisfiable v models
    · obtain ⟨s₂, draws, watched, ⟨ended, -⟩ | ⟨key', ended, conflicting⟩⟩ :=
        propagate_spec searching.countPass.invariant.watched
      · cases drawn.symm.trans ended
      · cases drawn.symm.trans ended
        -- A conflict takes two decisions, so it is not one of the formula alone.
        have high := idle.level_of_conflict searching.invariant.coherent { draws with }
          watched.coherent conflicting
        have low : s₁.trail.level = 0 := by
          simpa [Trail.hasDecision, Trail.level] using undecided
        rw [draws.level] at low
        exact absurd high (low ▸ Nat.not_lt_zero 1)

theorem Idle.run (idle : s.Idle) (forgetful : s.Forgetful) (searching : s.Searching formula)
    (undisturbed : s.Undisturbed) (unsatisfiable : ∀ v : World, ¬v.Models formula) (passes : Nat) :
    (Solver.run passes s).2.HasRoom ∧ ((Solver.run passes s).1 = .ok false ∨
      (Solver.run passes s).1 = .error .additionKeys ∧
        ¬(Solver.run passes s).2.store.HasKey .resolution) := by
  induction passes generalizing s with
  | zero => exact ⟨idle.room, .inl rfl⟩
  | succ passes ih =>
    rcases idle.pass_goesOn searching undisturbed unsatisfiable with ongoing | ⟨failed, room, spent⟩
    · have answer : s.pass = (.ok .ongoing, s.pass.2) := Prod.ext ongoing rfl
      obtain ⟨idle', forgetful'⟩ := idle.pass forgetful searching answer
      rw [Solver.run, answer]
      exact ih idle' forgetful' (searching.pass_ongoing answer) (undisturbed.pass answer)
    · have answer : s.pass = (.error .additionKeys, s.pass.2) := Prod.ext failed rfl
      rw [Solver.run, answer]
      exact ⟨room, .inr ⟨rfl, spent⟩⟩

theorem Idle.of_originals (empty : s.trail.literals.size = 0) (room : s.HasRoom)
    (none : s.store.additions.size = 0) (count : s.store.additionCount = 0)
    (wide : ∀ c ∈ s.store.originals, 3 ≤ c.clause.length) : s.Idle where
  wide
    | .originalUnit _, _, live => absurd live ClauseStore.get_originalUnit
    | .additionUnit _, _, live => absurd live ClauseStore.get_additionUnit
    | .original _, c, live => wide c (Array.mem_of_getElem? (ClauseStore.get_original.1 live))
    | .addition _ _, _, live => by
      have inside := (Array.getElem?_eq_some_iff.1 (ClauseStore.get_addition.1 live).1).1
      exact absurd inside (none ▸ Nat.not_lt_zero _)
  unlearned.none i _ _ live := by
    have inside := (Array.getElem?_eq_some_iff.1 (ClauseStore.get_addition.1 live).1).1
    exact absurd inside (none ▸ Nat.not_lt_zero i)
  unlearned.count := count
  room
  high i inside := absurd inside (empty ▸ Nat.not_lt_zero i)
  shallow _ := empty.le.trans (Nat.zero_le 1)

/-- No number of passes is enough for a forgetful solver to answer, though it never lacks room, if
there is no model to come upon. -/
theorem reachable_diverges {settings : Settings}
    (reachable : Reachable settings ⟨formula, .between, s⟩) (unsettled : s.isSettled = false)
    (undisturbed : s.start.Undisturbed) (idle : s.start.Idle) (forgetful : s.start.Forgetful)
    (unsatisfiable : ∀ v : World, ¬v.Models formula) (passes : Nat) :
    (s.solve passes).2.HasRoom ∧ ((s.solve passes).1 = .ok none ∨
      (s.solve passes).1 = .error .additionKeys ∧
        ¬(s.solve passes).2.store.HasKey .resolution) := by
  have searching : s.start.Searching formula := Settled.begin reachable.good unsettled
  have run := idle.run forgetful searching undisturbed unsatisfiable passes
  rw [solve_of_unsettled unsettled]
  match answer : Solver.run passes s.start with
  | (.error failure, s') =>
    rw [answer] at run
    refine ⟨run.1, run.2.imp (fun ongoing => ?_) fun ⟨failed, spent⟩ => ⟨?_, spent⟩⟩
    · cases ongoing
    · cases failed
      rfl
  | (.ok true, s') =>
    rw [answer] at run
    rcases run.2 with ongoing | ⟨failed, -⟩
    · cases ongoing
    · cases failed
  | (.ok false, s') =>
    rw [answer] at run
    exact ⟨run.1, .inl rfl⟩

def forgetting : Settings :=
  { restartPolicy := .geometric 1 1.0, reductionInterval := 1, reductionRatio := 1.0,
    blockDistanceBound := 0 }

def forgettingSigns : Solver := ((new forgetting).ensureAtoms 3).2.addAllNormal allSigns

theorem forgettingSigns_reachable :
    Reachable forgetting ⟨allSigns, .between, forgettingSigns⟩ := by
  have atoms : Reachable forgetting ⟨[], .between, ((new forgetting).ensureAtoms 3).2⟩ :=
    .single (.ensureAtoms (new forgetting) 3)
  exact atoms.addAllNormal normalise_allSigns (by decide +kernel)

theorem allSigns_unsatisfiable (v : World) : ¬v.Models allSigns := by
  cases first : v 1 <;> cases second : v 2 <;> cases third : v 3 <;>
    simp [World.Models, allSigns, Clause.HoldsIn, Literal.HoldsIn, Literal.polarity, *]

theorem forgettingSigns_diverges :
    forgetting.conflictLimit = 0 ∧ forgetting.timeLimit = 0 ∧
      forgettingSigns.terminate.isNone = true ∧ ∀ passes,
        (forgettingSigns.solve passes).2.HasRoom ∧
          ((forgettingSigns.solve passes).1 = .ok none ∨
            (forgettingSigns.solve passes).1 = .error .additionKeys ∧
              ¬(forgettingSigns.solve passes).2.store.HasKey .resolution) := by
  have unpolled : forgettingSigns.terminate.isNone = true := by decide +kernel
  have unsettled : forgettingSigns.isSettled = false := by decide +kernel
  have room : forgettingSigns.start.store.totalCount < forgettingSigns.start.store.limit := by
    decide +kernel
  have originals : forgettingSigns.start.trail.literals.size = 0 ∧
      forgettingSigns.start.store.additions.size = 0 ∧
      forgettingSigns.start.store.additionCount = 0 ∧
      ∀ c ∈ forgettingSigns.start.store.originals, 3 ≤ c.clause.length := by decide +kernel
  have idle : forgettingSigns.start.Idle :=
    .of_originals originals.1 room originals.2.1 originals.2.2.1 originals.2.2.2
  have undisturbed : forgettingSigns.start.Undisturbed := by
    refine ⟨rfl, rfl, fun stop terminate => ?_⟩
    have stays : forgettingSigns.terminate = some stop := terminate
    simp [stays] at unpolled
  have forgetful : forgettingSigns.start.Forgetful :=
    ⟨by rfl, rfl, by decide +kernel, by decide +kernel⟩
  exact ⟨rfl, rfl, unpolled, reachable_diverges forgettingSigns_reachable unsettled undisturbed idle
    forgetful allSigns_unsatisfiable⟩

end Solver

end ClauseLearning
