import ClauseLearning.Proofs.Backjump
import ClauseLearning.Proofs.WatchedStore

namespace ClauseLearning

open ClauseStore

/-- A reduction has removed clauses from a store, of which the reasons are still there. The slots in
use are those on the heap and those which were set aside. -/
structure Reducing (source : Atom → Option Source) (s : ClauseStore) (proper : Literal → Prop)
    (r : Reduction) : Prop where
  wellFormed : r.state.store.WellFormed proper
  vacant : r.state.store.Vacant
  mirrors : r.state.Mirrors
  ranks : r.ranks.WellFormed
  size : r.ranks.values.size = r.state.store.additions.size
  active : ∀ i, i ∈ r.ranks.order ∨ i ∈ r.kept ↔ ∃ c, r.state.store.additions[i]? = some (some c)
  apart : ∀ i ∈ r.kept, i ∉ r.ranks.order
  fewer : ∀ key c, r.state.store.get key = .ok c → s.get key = .ok c
  reasons : ∀ key c, s.get key = .ok c → source c.first.natAbs = some (.propagation key) →
    r.state.store.get key = .ok c
  originalUnits : r.state.store.originalUnits = s.originalUnits
  additionUnits : r.state.store.additionUnits = s.additionUnits
  originals : r.state.store.originals = s.originals

namespace Reducing

variable {source : Atom → Option Source} {s : ClauseStore} {proper : Literal → Prop}
  {state : WatchedStore} {ranks rest : IndexedHeap ClauseRank} {kept : List Nat}
  {removed : List ClauseKey} {i : Nat} {c : WatchedClause}

theorem slot (reducing : Reducing source s proper ⟨state, ranks, kept, removed⟩)
    (popped : ranks.popMax = (some i, rest)) : ∃ c, state.store.additions[i]? = some (some c) :=
  (reducing.active i).1 (.inl (IndexedHeap.popMax_some (congrArg Prod.fst popped)).1)

theorem popped_spec (reducing : Reducing source s proper ⟨state, ranks, kept, removed⟩)
    (popped : ranks.popMax = (some i, rest)) : rest.WellFormed ∧ i ∈ ranks.order ∧
      (∀ j, j ∈ rest.order ↔ j ∈ ranks.order ∧ j ≠ i) ∧
        rest.values.size = ranks.values.size := by
  obtain ⟨onHeap, heap, order, size, -⟩ := reducing.ranks.without_of_popMax popped
  exact ⟨heap, onHeap, order, size⟩

theorem setAside (reducing : Reducing source s proper ⟨state, ranks, kept, removed⟩)
    (popped : ranks.popMax = (some i, rest)) :
    Reducing source s proper ⟨state, rest, i :: kept, removed⟩ := by
  obtain ⟨heap, onHeap, order, size⟩ := reducing.popped_spec popped
  have active := reducing.active
  have apart := reducing.apart
  exact { reducing with
    ranks := heap
    size := size.trans reducing.size
    active := fun j => by grind
    apart := fun j member => by grind }

theorem detach (reducing : Reducing source s proper ⟨state, ranks, kept, removed⟩)
    (popped : ranks.popMax = (some i, rest)) (slot : state.store.additions[i]? = some (some c))
    {rank : ClauseRank} (unprotected : ¬Reduction.isProtected source state.store rank c.key) :
    ∃ state', state.detach c.key = (.ok (), state') ∧
      Reducing source s proper ⟨state', rest, kept, c.key :: removed⟩ := by
  obtain ⟨heap, onHeap, order, size⟩ := reducing.popped_spec popped
  obtain ⟨token, key⟩ := reducing.wellFormed.slotted i c slot
  have live : state.store.get (.addition i token) = .ok c := get_addition.2 ⟨slot, key⟩
  obtain ⟨state', detached, isRemoved, wellFormed, vacant, mirrors, originalUnits, additionUnits,
    originals, sameSize, slots⟩ :=
    WatchedStore.detach_spec live reducing.wellFormed reducing.vacant reducing.mirrors
  rw [← key] at detached isRemoved live
  have active := reducing.active
  have apart := reducing.apart
  refine ⟨state', detached, {
    wellFormed
    vacant
    mirrors
    ranks := heap
    size := (size.trans reducing.size).trans sameSize.symm
    active := fun j => by grind
    apart := fun j member => by grind
    fewer := fun other d live' => reducing.fewer other d ((isRemoved other d).1 live').2
    reasons := fun other d live' isReason => ?_
    originalUnits := originalUnits.trans reducing.originalUnits
    additionUnits := additionUnits.trans reducing.additionUnits
    originals := originals.trans reducing.originals }⟩
  have before := reducing.reasons other d live' isReason
  apply (isRemoved other d).2 ⟨_, before⟩
  rintro rfl
  obtain rfl := Except.ok.inj (live.symm.trans before)
  apply unprotected
  simp only [Reduction.isProtected, ClauseStore.isReason, live, isReason, decide_true, Bool.or_true]

theorem visit (visits count : Nat) {r : Reduction} (reducing : Reducing source s proper r) :
    ∃ r', Reduction.visit source visits count r = (.ok (), r') ∧ Reducing source s proper r' := by
  induction visits generalizing count r with
  | zero => exact ⟨r, by rw [Reduction.visit], reducing⟩
  | succ visits ih =>
    cases count with
    | zero => exact ⟨r, by rw [Reduction.visit]; simp, reducing⟩
    | succ count =>
      obtain ⟨state, ranks, kept, removed⟩ := r
      cases popped : ranks.popMax with
      | mk top rest =>
        cases top with
        | none =>
          have same : rest = ranks := IndexedHeap.eq_of_popMax_none popped
          exact ⟨⟨state, ranks, kept, removed⟩, by simp only [Reduction.visit, popped, same],
            reducing⟩
        | some i =>
          obtain ⟨c, slot⟩ := reducing.slot popped
          simp only [Reduction.visit, popped, slot]
          split
          · exact ih (count + 1) (reducing.setAside popped)
          · rename_i unprotected
            obtain ⟨state', detached, reducing'⟩ := reducing.detach popped slot unprotected
            rw [detached]
            exact ih count reducing'

theorem start (source : Atom → Option Source) (orderly : s.Orderly proper) {watches : WatchLists}
    (mirrors : (⟨s, watches⟩ : WatchedStore).Mirrors) :
    Reducing source s proper
      { state := ⟨{ s with ranks := { blank := {} } }, watches⟩, ranks := s.ranks } := by
  have same : s.SameClauses { s with ranks := { blank := {} } } := ⟨rfl, rfl, rfl, rfl⟩
  exact {
    wellFormed := same.wellFormed orderly.wellFormed
    vacant := { orderly.vacant with }
    mirrors := mirrors.congr same
    ranks := orderly.ranked.wellFormed
    size := orderly.ranked.size
    active := fun i => by simpa using orderly.ranked.active i
    apart := fun i member => absurd member List.not_mem_nil
    fewer := fun key c live => (same.get_eq key).symm.trans live
    reasons := fun key c live _ => (same.get_eq key).trans live
    originalUnits := rfl
    additionUnits := rfl
    originals := rfl }

end Reducing

namespace Reduction

theorem reactivate_spec {ranks : IndexedHeap ClauseRank} (wellFormed : ranks.WellFormed)
    {kept : List Nat} (known : ∀ i ∈ kept, i < ranks.values.size) :
    (reactivate ranks kept).WellFormed ∧
      (∀ i, i ∈ (reactivate ranks kept).order ↔ i ∈ kept ∨ i ∈ ranks.order) ∧
      (reactivate ranks kept).values.size = ranks.values.size := by
  induction kept with
  | nil => exact ⟨wellFormed, fun i => by simp [reactivate], rfl⟩
  | cons i rest ih =>
    obtain ⟨wellFormed', order, size⟩ := ih fun j member => known j (List.mem_cons_of_mem i member)
    have room : i < (reactivate ranks rest).values.size := by
      rw [size]
      exact known i List.mem_cons_self
    obtain ⟨activated, active, size'⟩ := IndexedHeap.activate_spec wellFormed' room
    refine ⟨activated, fun j => ?_, size'.trans size⟩
    rw [List.mem_cons, or_assoc, ← order]
    exact active j

end Reduction

theorem WatchedStore.reduce_spec (source : Atom → Option Source) {s : WatchedStore}
    {proper : Literal → Prop} (orderly : s.store.Orderly proper) (mirrors : s.Mirrors) (count : Nat) :
    ∃ removed s', s.reduce source count = ((.ok (), removed), s') ∧ s'.store.Orderly proper ∧
      s'.Mirrors ∧ (∀ key c, s'.store.get key = .ok c → s.store.get key = .ok c) ∧
      (∀ key c, s.store.get key = .ok c → source c.first.natAbs = some (.propagation key) →
        s'.store.get key = .ok c) ∧
      s'.store.originalUnits = s.store.originalUnits ∧
      s'.store.additionUnits = s.store.additionUnits ∧
      s'.store.originals = s.store.originals := by
  obtain ⟨store, watches⟩ := s
  have same (s : ClauseStore) (ranks : IndexedHeap ClauseRank) :
      s.SameClauses { s with ranks } := ⟨rfl, rfl, rfl, rfl⟩
  obtain ⟨⟨⟨store', watches'⟩, ranks, kept, removed⟩, answer, reducing⟩ :=
    (Reducing.start source orderly mirrors).visit store.ranks.activeCount count
  have known : ∀ i ∈ kept, i < ranks.values.size := by
    intro i member
    obtain ⟨c, slot⟩ := (reducing.active i).1 (.inr member)
    have size : ranks.values.size = store'.additions.size := reducing.size
    rw [size]
    exact (Array.getElem?_eq_some_iff.1 slot).1
  obtain ⟨wellFormed, order, size⟩ := Reduction.reactivate_spec reducing.ranks known
  refine ⟨removed.reverse, ⟨{ store' with ranks := Reduction.reactivate ranks kept }, watches'⟩, ?_,
    ⟨(same store' _).wellFormed reducing.wellFormed, { reducing.vacant with }, wellFormed,
      size.trans reducing.size, fun i => ?_⟩, reducing.mirrors.congr (same store' _), ?_, ?_,
    reducing.originalUnits, reducing.additionUnits, reducing.originals⟩
  · simp only [WatchedStore.reduce] at answer ⊢
    rw [answer]
  · rw [order, or_comm]
    exact reducing.active i
  · exact fun key c live => reducing.fewer key c (((same store' _).get_eq key).symm.trans live)
  · exact fun key c live isReason =>
      ((same store' _).get_eq key).trans (reducing.reasons key c live isReason)

namespace Solver

variable {s : Solver} {formula : List Clause}

theorem noteRemovals_resembles (s : Solver) (removed : List ClauseKey) :
    s.Resembles (removed.foldl noteRemoval s) ∧
      (removed.foldl noteRemoval s).buffer = s.buffer := by
  induction removed generalizing s with
  | nil => exact ⟨.refl s, rfl⟩
  | cons key rest ih =>
    obtain ⟨later, buffer⟩ := ih (s.noteRemoval key)
    exact ⟨(note_resembles ..).trans later, buffer.trans (buffer_note ..)⟩

theorem reduceBy_spec (invariant : s.Invariant formula fun _ => False) (count : Nat) :
    ∃ removed s', s.reduceBy count = (.ok removed, s') ∧
      s'.Invariant formula (fun _ => False) ∧ s'.status = s.status := by
  obtain ⟨coherent, mirrors, guarded, grounded, entailed, covered⟩ := invariant
  obtain ⟨removed, clauses, answer, orderly, mirrors', fewer, reasons, originalUnits, additionUnits,
    originals⟩ := WatchedStore.reduce_spec s.atoms.source coherent.orderly mirrors count
  have reduced : ({ s with clauses } : Solver).Invariant formula fun _ => False := by
    refine ⟨?_, mirrors', ?_, ?_, ?_, ?_⟩
    · exact { coherent with
        justified := coherent.justified.store fun key c live _ isReason =>
          ⟨c, reasons key c live isReason, rfl, .refl _⟩
        orderly }
    · exact fun key c live => guarded key c (fewer key c live)
    · exact ⟨originalUnits ▸ grounded.originalUnits, additionUnits ▸ grounded.additionUnits⟩
    · exact { entailed with
        long := fun key c live => entailed.long key c (fewer key c live)
        originalUnits := originalUnits ▸ entailed.originalUnits
        additionUnits := additionUnits ▸ entailed.additionUnits }
    · unfold Covers ClauseStore.originalClauses at covered ⊢
      rw [originalUnits, originals]
      exact covered
  obtain ⟨noted, buffer⟩ := noteRemovals_resembles { s with clauses } removed
  have summed := noted.trans (note_resembles (removed.foldl noteRemoval { s with clauses }) .info
    .reduction fun _ => "Removed " ++ toString removed.length ++ " additions")
  refine ⟨removed.length, _, by simp only [reduceBy, answer], reduced.congr summed ?_, summed.status⟩
  rw [buffer_note, buffer]
  exact coherent.marked

theorem reduce_spec (invariant : s.Invariant formula fun _ => False) :
    ∃ removed s', s.reduce = (.ok removed, s') ∧ s'.Invariant formula (fun _ => False) ∧
      s'.status = s.status := by
  obtain ⟨removed, s', answer, reduced, status⟩ := reduceBy_spec invariant
    (Float.ofNat s.clauses.store.additionCount * s.settings.reductionRatio).toUInt64.toNat
  exact ⟨removed, s'.countReduction, by simp only [reduce, answer],
    reduced.of_eq rfl rfl rfl rfl rfl rfl, status⟩

end Solver

end ClauseLearning
