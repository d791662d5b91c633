import ClauseLearning.DecisionOrder
import ClauseLearning.Proofs.IndexedHeap

namespace ClauseLearning

structure ActivityOrder.Offers (unvalued : Atom → Prop) (stop : Nat) (o : ActivityOrder) : Prop where
  wellFormed : o.heap.WellFormed
  room : ∀ a, 0 < a → a < stop → a < o.heap.values.size
  onHeap : ∀ a, unvalued a → a ∈ o.heap.order

def DecisionOrder.Offers (unvalued : Atom → Prop) (stop : Nat) : DecisionOrder → Prop
  | byActivity o => o.Offers unvalued stop
  | byNumber cursor => ∀ a, unvalued a → cursor ≤ a

namespace ActivityOrder

variable {unvalued : Atom → Prop} {stop : Nat} {o : ActivityOrder}

theorem Offers.reordered (offers : o.Offers unvalued stop) {o' : ActivityOrder}
    (same : o.heap.Reordered o'.heap) : o'.Offers unvalued stop where
  wellFormed := same.wellFormed offers.wellFormed
  room a positive below := by
    rw [same.size_values]
    exact offers.room a positive below
  onHeap a fresh := same.mem_iff.2 (offers.onHeap a fresh)

theorem rescale_reordered (o : ActivityOrder) : o.heap.Reordered o.rescale.heap :=
  (o.heap.mapValues_reordered _).trans (IndexedHeap.heapify_reordered _)

theorem raise_reordered (o : ActivityOrder) (a : Atom) : o.heap.Reordered (o.raise a).heap := by
  unfold raise
  simp only
  split
  · exact o.rescale_reordered.trans
      ((IndexedHeap.modifyValue_reordered _ _ _).trans (IndexedHeap.settle_reordered _ _))
  · exact (IndexedHeap.modifyValue_reordered _ _ _).trans (IndexedHeap.settle_reordered _ _)

theorem decay_reordered (o : ActivityOrder) : o.heap.Reordered o.decay.heap := by
  unfold decay
  simp only
  split
  · exact rescale_reordered _
  · exact .refl _

theorem Offers.offer (offers : o.Offers unvalued stop) {a : Atom} (known : a < o.heap.values.size) :
    (o.offer a).Offers (fun b => b = a ∨ unvalued b) stop := by
  obtain ⟨wellFormed, mem, size⟩ := IndexedHeap.activate_spec offers.wellFormed known
  refine ⟨wellFormed, fun b positive below => ?_, fun b fresh => (mem b).2 ?_⟩
  · exact size ▸ offers.room b positive below
  · exact fresh.imp_right (offers.onHeap b)

theorem Offers.add (offers : o.Offers unvalued stop) :
    (o.add stop).Offers (fun b => b = stop ∨ unvalued b) (stop + 1) := by
  obtain ⟨wellFormed, mem, size⟩ := IndexedHeap.add_spec offers.wellFormed stop (0.0 : Activity)
  have grown : ActivityOrder.Offers unvalued (stop + 1)
      { o with heap := (o.heap.add stop 0.0).2 } := by
    refine ⟨wellFormed, fun b _ below => ?_, fun b fresh => (mem b).2 (offers.onHeap b fresh)⟩
    rw [size]
    exact Nat.lt_of_lt_of_le below (Nat.le_max_right _ _)
  refine grown.offer ?_
  rw [size]
  exact Nat.lt_of_lt_of_le (Nat.lt_succ_self _) (Nat.le_max_right _ _)

theorem takeFrom_spec (isOpen : Atom → Bool) (count : Nat) (heap : IndexedHeap Activity)
    (wellFormed : heap.WellFormed) (enough : heap.order.size ≤ count)
    (onHeap : ∀ a, isOpen a = true → a ∈ heap.order) :
    (takeFrom isOpen count heap).2.WellFormed ∧
      (takeFrom isOpen count heap).2.values.size = heap.values.size ∧
      (∀ a, (takeFrom isOpen count heap).1 = some a → isOpen a = true) ∧
      ∀ b, isOpen b = true → (takeFrom isOpen count heap).1 ≠ none ∧
        ((takeFrom isOpen count heap).1 = some b ∨ b ∈ (takeFrom isOpen count heap).2.order) := by
  -- On the bound: whatever is taken off the heap leaves it one smaller.
  induction count generalizing heap with
  | zero =>
    refine ⟨wellFormed, rfl, by simp [takeFrom], fun b open_b => ?_⟩
    have := Array.size_pos_of_mem (onHeap b open_b)
    omega
  | succ count ih =>
    cases popped : heap.popMax with
    | mk top rest =>
      cases top with
      | none =>
        have empty : heap.order.size = 0 := IndexedHeap.popMax_none (by rw [popped])
        have closed (b : Atom) (open_b : isOpen b = true) : False := by
          have := Array.size_pos_of_mem (onHeap b open_b)
          omega
        have same : rest = heap := IndexedHeap.eq_of_popMax_none popped
        simp only [takeFrom, popped, same]
        exact ⟨wellFormed, trivial, by simp, fun b open_b => (closed b open_b).elim⟩
      | some a =>
        obtain ⟨active, wellFormed', mem, size, fewer⟩ := wellFormed.without_of_popMax popped
        simp only [takeFrom, popped]
        by_cases open_a : isOpen a = true
        · rw [if_pos open_a]
          refine ⟨wellFormed', size, fun b same => ?_, fun b open_b => ?_⟩
          · obtain rfl := Option.some.inj same
            exact open_a
          · refine ⟨by simp, ?_⟩
            by_cases same : a = b
            · exact .inl (congrArg some same)
            · exact .inr ((mem b).2 ⟨onHeap b open_b, Ne.symm same⟩)
        · rw [if_neg open_a]
          have onRest (b : Atom) (open_b : isOpen b = true) : b ∈ rest.order := by
            refine (mem b).2 ⟨onHeap b open_b, ?_⟩
            rintro rfl
            exact open_a open_b
          have := ih rest wellFormed' (by omega) onRest
          rwa [size] at this

end ActivityOrder

namespace DecisionOrder

variable {unvalued : Atom → Prop} {stop : Nat} {o : DecisionOrder}

theorem Offers.mono (offers : o.Offers unvalued stop) {fewer : Atom → Prop}
    (included : ∀ a, fewer a → unvalued a) : o.Offers fewer stop := by
  cases o with
  | byActivity o =>
    exact ⟨offers.wellFormed, offers.room, fun a fresh => offers.onHeap a (included a fresh)⟩
  | byNumber cursor => exact fun a fresh => offers a (included a fresh)

theorem Offers.new (heuristic : DecisionHeuristic) (bump decay : Activity) :
    (new heuristic bump decay).Offers (fun _ => False) 1 := by
  cases heuristic with
  | activity =>
    refine ⟨⟨fun i x => ?_, rfl⟩, fun a positive below => by omega, fun a impossible =>
      impossible.elim⟩
    simp [ActivityOrder.new]
  | fixedOrder => exact fun a impossible => impossible.elim

theorem Offers.add (offers : o.Offers unvalued stop) :
    (o.add stop).Offers (fun b => b = stop ∨ unvalued b) (stop + 1) := by
  cases o with
  | byActivity o => exact ActivityOrder.Offers.add offers
  | byNumber cursor =>
    rintro a (rfl | fresh)
    · exact Nat.min_le_right _ _
    · exact (Nat.min_le_left _ _).trans (offers a fresh)

theorem Offers.release (offers : o.Offers unvalued stop) {a : Atom} (positive : 0 < a)
    (below : a < stop) : (o.release a).Offers (fun b => b = a ∨ unvalued b) stop := by
  cases o with
  | byActivity o => exact ActivityOrder.Offers.offer offers (offers.room a positive below)
  | byNumber cursor =>
    rintro b (rfl | fresh)
    · exact Nat.min_le_right _ _
    · exact (Nat.min_le_left _ _).trans (offers b fresh)

theorem Offers.raise (offers : o.Offers unvalued stop) (a : Atom) :
    (o.raise a).Offers unvalued stop := by
  cases o with
  | byActivity o => exact ActivityOrder.Offers.reordered offers (o.raise_reordered a)
  | byNumber cursor => exact offers

theorem Offers.decay (offers : o.Offers unvalued stop) : o.decay.Offers unvalued stop := by
  cases o with
  | byActivity o => exact ActivityOrder.Offers.reordered offers o.decay_reordered
  | byNumber cursor => exact offers

theorem firstOpen_spec (isOpen : Atom → Bool) (stop a : Nat) :
    (firstOpen isOpen stop a < stop → isOpen (firstOpen isOpen stop a) = true) ∧
      ∀ b, a ≤ b → b < stop → isOpen b = true → firstOpen isOpen stop a ≤ b := by
  fun_induction firstOpen isOpen stop a with
  | case1 a inside open_a => exact ⟨fun _ => open_a, fun b le _ _ => le⟩
  | case2 a inside closed ih =>
    refine ⟨ih.1, fun b le below open_b => ih.2 b ?_ below open_b⟩
    rcases Nat.eq_or_lt_of_le le with rfl | later
    · exact absurd open_b closed
    · exact later
  | case3 a outside => exact ⟨fun inside => absurd inside outside, fun b le below _ => by omega⟩

theorem take_spec {isOpen : Atom → Bool} (offers : o.Offers (isOpen · = true) stop)
    (bounded : ∀ a, isOpen a = true → a < stop) :
    (∀ a, (o.take isOpen stop).1 = some a → isOpen a = true) ∧
      ((o.take isOpen stop).1 = none → ∀ a, isOpen a = false) ∧
      (o.take isOpen stop).2.Offers
        (fun b => isOpen b = true ∧ (o.take isOpen stop).1 ≠ some b) stop := by
  cases o with
  | byActivity o =>
    obtain ⟨wellFormed, size, taken, left⟩ := ActivityOrder.takeFrom_spec isOpen
      o.heap.activeCount o.heap offers.wellFormed (Nat.le_refl _) offers.onHeap
    refine ⟨taken, fun none a => ?_, wellFormed, fun a positive below => ?_, fun b fresh => ?_⟩
    · by_contra open_a
      exact (left a (by simpa using open_a)).1 none
    · exact size ▸ offers.room a positive below
    · exact (left b fresh.1).2.resolve_left fresh.2
  | byNumber cursor =>
    obtain ⟨first, least⟩ := firstOpen_spec isOpen stop cursor
    have below (b : Atom) (open_b : isOpen b = true) : firstOpen isOpen stop cursor ≤ b :=
      least b (offers b open_b) (bounded b open_b) open_b
    refine ⟨fun a taken => ?_, fun none a => ?_, fun b fresh => below b fresh.1⟩
    · simp only [take] at taken
      split at taken
      · rename_i inside
        obtain rfl := Option.some.inj taken
        exact first inside
      · cases taken
    · simp only [take] at none
      split at none
      · cases none
      · by_contra open_a
        rw [Bool.not_eq_false] at open_a
        exact absurd ((below a open_a).trans_lt (bounded a open_a)) ‹_›

def heuristic : DecisionOrder → DecisionHeuristic
  | byActivity _ => .activity
  | byNumber _ => .fixedOrder

@[simp] theorem heuristic_new (heuristic : DecisionHeuristic) (bump decay : Activity) :
    (new heuristic bump decay).heuristic = heuristic := by
  cases heuristic <;> rfl

@[simp] theorem heuristic_add (o : DecisionOrder) (a : Atom) :
    (o.add a).heuristic = o.heuristic := by
  cases o <;> rfl

@[simp] theorem heuristic_release (o : DecisionOrder) (a : Atom) :
    (o.release a).heuristic = o.heuristic := by
  cases o <;> rfl

@[simp] theorem heuristic_take (o : DecisionOrder) (isOpen : Atom → Bool) (stop : Nat) :
    (o.take isOpen stop).2.heuristic = o.heuristic := by
  cases o <;> rfl

@[simp] theorem heuristic_raise (o : DecisionOrder) (a : Atom) :
    (o.raise a).heuristic = o.heuristic := by
  cases o <;> simp only [raise, heuristic]

@[simp] theorem heuristic_decay (o : DecisionOrder) : o.decay.heuristic = o.heuristic := by
  cases o <;> simp only [decay, heuristic]

theorem take_le {isOpen : Atom → Bool} (offers : o.Offers (isOpen · = true) stop)
    (bounded : ∀ a, isOpen a = true → a < stop) (fixed : o.heuristic = .fixedOrder) {a b : Atom}
    (taken : (o.take isOpen stop).1 = some a) (open_b : isOpen b = true) : a ≤ b := by
  cases o with
  | byActivity o => cases fixed
  | byNumber cursor =>
    simp only [take] at taken
    split at taken
    · obtain rfl := Option.some.inj taken
      exact (firstOpen_spec isOpen stop cursor).2 b (offers b open_b) (bounded b open_b) open_b
    · cases taken

end DecisionOrder

end ClauseLearning
