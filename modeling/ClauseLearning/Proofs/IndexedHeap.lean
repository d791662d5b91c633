import ClauseLearning.IndexedHeap
import Mathlib.Data.List.Sort

namespace ClauseLearning

theorem getElem?_swapIfInBounds {α : Type} {xs : Array α} {i j : Nat} {x y : α}
    (first : xs[i]? = some x) (second : xs[j]? = some y) (k : Nat) :
    (xs.swapIfInBounds i j)[k]? = if k = j then some x else if k = i then some y else xs[k]? := by
  obtain ⟨inside, rfl⟩ := Array.getElem?_eq_some_iff.1 first
  obtain ⟨within, rfl⟩ := Array.getElem?_eq_some_iff.1 second
  rw [Array.swapIfInBounds, dif_pos inside, dif_pos within, Array.getElem?_swap]
  by_cases last : k = j
  · rw [if_pos last.symm, if_pos last]
  · rw [if_neg (Ne.symm last), if_neg last]
    by_cases front : k = i
    · rw [if_pos front.symm, if_pos front]
    · rw [if_neg (Ne.symm front), if_neg front]

namespace IndexedHeap

variable {α : Type}

/-- Each index of the order stands where its position says, and no other index has a position. -/
structure WellFormed (h : IndexedHeap α) : Prop where
  placed : ∀ (i x : Nat), h.order[i]? = some x ↔ h.position[x]? = some (some i)
  size_position : h.position.size = h.values.size

theorem position?_eq_some {h : IndexedHeap α} {x i : Nat} :
    h.position? x = some i ↔ h.position[x]? = some (some i) := by
  simp [position?, Option.join_eq_some_iff]

namespace WellFormed

variable {h : IndexedHeap α}

theorem position?_eq_none (wellFormed : h.WellFormed) {x : Nat} :
    h.position? x = none ↔ x ∉ h.order := by
  rw [Option.eq_none_iff_forall_ne_some, Array.mem_iff_getElem?, not_exists]
  refine forall_congr' fun i => not_congr ?_
  rw [position?_eq_some, wellFormed.placed]

theorem isActive_iff (wellFormed : h.WellFormed) {x : Nat} :
    h.isActive x = true ↔ x ∈ h.order := by
  rw [isActive, Option.isSome_iff_ne_none, ne_eq, wellFormed.position?_eq_none, not_not]

end WellFormed

structure Reordered (h h' : IndexedHeap α) : Prop where
  wellFormed : h.WellFormed → h'.WellFormed
  perm : h'.order.toList.Perm h.order.toList
  size_values : h'.values.size = h.values.size
  blank : h'.blank = h.blank

namespace Reordered

variable {h h' h'' : IndexedHeap α}

theorem refl (h : IndexedHeap α) : Reordered h h := ⟨id, .refl _, rfl, rfl⟩

theorem trans (first : Reordered h h') (second : Reordered h' h'') : Reordered h h'' :=
  ⟨second.wellFormed ∘ first.wellFormed, second.perm.trans first.perm,
    second.size_values.trans first.size_values, second.blank.trans first.blank⟩

theorem mem_iff (same : Reordered h h') {x : Nat} : x ∈ h'.order ↔ x ∈ h.order := by
  simpa using same.perm.mem_iff (a := x)

theorem size_order (same : Reordered h h') : h'.order.size = h.order.size := by
  simpa using same.perm.length_eq

end Reordered

theorem WellFormed.swap {h : IndexedHeap α} (wellFormed : h.WellFormed) (i j : Nat) :
    (h.swap i j).WellFormed := by
  obtain ⟨placed, size⟩ := wellFormed
  unfold IndexedHeap.swap
  split
  · rename_i x y first second
    have insideX := (Array.getElem?_eq_some_iff.1 ((placed i x).1 first)).1
    have insideY := (Array.getElem?_eq_some_iff.1 ((placed j y).1 second)).1
    refine ⟨fun k z => ?_, by simpa using size⟩
    simp only [getElem?_swapIfInBounds first second, Array.getElem?_setIfInBounds,
      Array.size_setIfInBounds, insideX, insideY, if_true]
    have onlyX (k : Nat) (found : h.order[k]? = some x) : k = i :=
      Option.some.inj (Option.some.inj (((placed k x).1 found).symm.trans ((placed i x).1 first)))
    have onlyY (k : Nat) (found : h.order[k]? = some y) : k = j :=
      Option.some.inj (Option.some.inj (((placed k y).1 found).symm.trans ((placed j y).1 second)))
    have other := placed k z
    by_cases isY : y = z
    · subst isY
      have := onlyY k
      have := onlyX j
      grind
    · by_cases isX : x = z
      · subst isX
        have := onlyX k
        grind
      · grind
  · exact ⟨placed, size⟩

theorem swap_reordered (h : IndexedHeap α) (i j : Nat) : Reordered h (h.swap i j) where
  wellFormed wellFormed := wellFormed.swap i j
  perm := by
    unfold IndexedHeap.swap
    split
    · simp only [Array.swapIfInBounds]
      split
      · split
        · exact (Array.swap_perm _ _).toList
        · exact .refl _
      · exact .refl _
    · exact .refl _
  size_values := by
    unfold IndexedHeap.swap
    split <;> rfl
  blank := by
    unfold IndexedHeap.swap
    split <;> rfl

section Sifts

variable [LT α] [DecidableLT α]

theorem siftDown_reordered (h : IndexedHeap α) (i : Nat) : Reordered h (h.siftDown i) := by
  fun_induction siftDown h i with
  | case1 h i best moved ih => exact (h.swap_reordered i best).trans ih
  | case2 h i best unmoved => exact .refl h

theorem siftUp_reordered (h : IndexedHeap α) (i : Nat) : Reordered h (h.siftUp i) := by
  fun_induction siftUp h i with
  | case1 h i inner parent rises ih => exact (h.swap_reordered i parent).trans ih
  | case2 h i inner parent stays => exact .refl h
  | case3 h i top => exact .refl h

theorem settle_reordered (h : IndexedHeap α) (x : Nat) : Reordered h (h.settle x) := by
  unfold settle
  split
  · exact .refl h
  · simp only
    split
    · exact siftUp_reordered h _
    · exact (siftUp_reordered h _).trans (siftDown_reordered _ _)

theorem heapify_reordered (h : IndexedHeap α) : Reordered h h.heapify := by
  have below (n : Nat) (h : IndexedHeap α) : Reordered h (heapifyBelow n h) := by
    induction n generalizing h with
    | zero => exact .refl h
    | succ n ih => exact (h.siftDown_reordered n).trans (ih _)
  exact below _ h

end Sifts

theorem setValue_reordered (h : IndexedHeap α) (x : Nat) (value : α) :
    Reordered h (h.setValue x value) where
  wellFormed wellFormed := ⟨wellFormed.placed, by simpa [setValue] using wellFormed.size_position⟩
  perm := .refl _
  size_values := by simp [setValue]
  blank := rfl

theorem modifyValue_reordered (h : IndexedHeap α) (x : Nat) (f : α → α) :
    Reordered h (h.modifyValue x f) where
  wellFormed wellFormed := ⟨wellFormed.placed, by simpa [modifyValue] using wellFormed.size_position⟩
  perm := .refl _
  size_values := by simp [modifyValue]
  blank := rfl

theorem mapValues_reordered (h : IndexedHeap α) (f : α → α) : Reordered h (h.mapValues f) where
  wellFormed wellFormed := ⟨wellFormed.placed, by simpa [mapValues] using wellFormed.size_position⟩
  perm := .refl _
  size_values := by simp [mapValues]
  blank := rfl

theorem values_swap (h : IndexedHeap α) (i j : Nat) : (h.swap i j).values = h.values := by
  unfold swap
  split <;> rfl

theorem setValue_eq (h : IndexedHeap α) (x : Nat) (value : α) :
    h.setValue x value = h.modifyValue x fun _ => value := by
  have values : h.values.setIfInBounds x value = h.values.modify x fun _ => value :=
    Array.ext_getElem? fun i => by
      rw [Array.getElem?_modify, Array.getElem?_setIfInBounds]
      grind
  rw [setValue, modifyValue, values]

theorem value?_modifyValue (h : IndexedHeap α) (x y : Nat) (f : α → α) :
    (h.modifyValue x f).value? y = if y = x then (h.value? y).map f else h.value? y := by
  rw [value?, value?, modifyValue, Array.getElem?_modify]
  by_cases same : x = y
  · rw [if_pos same, if_pos same.symm]
  · rw [if_neg same, if_neg (Ne.symm same)]

section Values

variable [LT α] [DecidableLT α]

theorem values_siftDown (h : IndexedHeap α) (i : Nat) : (h.siftDown i).values = h.values := by
  fun_induction siftDown h i with
  | case1 h i best moved ih => exact ih.trans (h.values_swap i best)
  | case2 h i best unmoved => rfl

theorem values_siftUp (h : IndexedHeap α) (i : Nat) : (h.siftUp i).values = h.values := by
  fun_induction siftUp h i with
  | case1 h i inner parent rises ih => exact ih.trans (h.values_swap i parent)
  | case2 h i inner parent stays => rfl
  | case3 h i top => rfl

theorem values_settle (h : IndexedHeap α) (x : Nat) : (h.settle x).values = h.values := by
  unfold settle
  split
  · rfl
  · simp only
    split
    · exact values_siftUp h _
    · exact (values_siftDown _ _).trans (values_siftUp h _)

theorem values_heapify (h : IndexedHeap α) : h.heapify.values = h.values := by
  have below (n : Nat) (h : IndexedHeap α) : (heapifyBelow n h).values = h.values := by
    induction n generalizing h with
    | zero => rfl
    | succ n ih => exact (ih _).trans (h.values_siftDown n)
  exact below _ h

theorem values_activate (h : IndexedHeap α) (x : Nat) : (h.activate x).2.values = h.values := by
  unfold activate
  split
  · exact (values_siftDown _ _).trans (values_siftUp h _)
  · split
    · exact values_siftUp _ _
    · rfl

theorem values_remove (h : IndexedHeap α) (x : Nat) : (h.remove x).2.values = h.values := by
  unfold remove
  split
  · rfl
  · simp only
    split
    · rfl
    · exact (values_siftUp _ _).trans (values_siftDown _ _)

theorem values_popMax (h : IndexedHeap α) : h.popMax.2.values = h.values := by
  unfold popMax
  split
  · rfl
  · exact values_remove h _

theorem blank_activate (h : IndexedHeap α) (x : Nat) : (h.activate x).2.blank = h.blank := by
  unfold activate
  split
  · exact ((siftUp_reordered h _).trans (siftDown_reordered _ _)).blank
  · split
    · exact (siftUp_reordered _ _).blank
    · rfl

theorem blank_remove (h : IndexedHeap α) (x : Nat) : (h.remove x).2.blank = h.blank := by
  unfold remove
  split
  · rfl
  · simp only
    split
    · rfl
    · exact ((siftDown_reordered _ _).trans (siftUp_reordered _ _)).blank

theorem value?_add (h : IndexedHeap α) {x : Nat} (le : x ≤ h.values.size) (value : α) :
    (h.add x value).2.value? x = some value := by
  unfold add value?
  split
  · rename_i inside
    simp only [values_settle, setValue]
    exact Array.getElem?_setIfInBounds_self_of_lt inside
  · rename_i outside
    have last : x = h.values.size := le.antisymm (Nat.le_of_not_lt outside)
    subst last
    simp

end Values

section Holes

variable {h : IndexedHeap α}

theorem WellFormed.push (wellFormed : h.WellFormed) {x : Nat} (known : x < h.values.size)
    (absent : x ∉ h.order) :
    ({ h with
      order := h.order.push x
      position := h.position.setIfInBounds x (some h.order.size) } : IndexedHeap α).WellFormed := by
  have inside : x < h.position.size := wellFormed.size_position ▸ known
  refine ⟨fun i y => ?_, by simpa using wellFormed.size_position⟩
  have placed := wellFormed.placed i y
  simp only [Array.getElem?_push, Array.getElem?_setIfInBounds]
  by_cases same : x = y
  · subst same
    have : h.order[i]? ≠ some x := fun found => absent (Array.mem_of_getElem? found)
    grind
  · have within : h.order[i]? = some y → i < h.order.size :=
      fun found => (Array.getElem?_eq_some_iff.1 found).1
    grind

structure Without (h h' : IndexedHeap α) (x : Nat) : Prop where
  wellFormed : h'.WellFormed
  mem_iff : ∀ y, y ∈ h'.order ↔ y ∈ h.order ∧ y ≠ x
  size_values : h'.values.size = h.values.size
  size_order : h'.order.size + 1 = h.order.size

theorem Without.reordered {h' h'' : IndexedHeap α} {x : Nat} (without : h.Without h' x)
    (same : Reordered h' h'') : h.Without h'' x where
  wellFormed := same.wellFormed without.wellFormed
  mem_iff y := same.mem_iff.trans (without.mem_iff y)
  size_values := same.size_values.trans without.size_values
  size_order := by rw [same.size_order, without.size_order]

theorem WellFormed.unique (wellFormed : h.WellFormed) {i j x : Nat}
    (first : h.order[i]? = some x) (second : h.order[j]? = some x) : i = j := by
  have placed := (wellFormed.placed i x).1 first
  have placed' := (wellFormed.placed j x).1 second
  exact Option.some.inj (Option.some.inj (placed.symm.trans placed'))

theorem WellFormed.drop_last (wellFormed : h.WellFormed) {hole x : Nat}
    (found : h.order[hole]? = some x) (isLast : hole = h.order.size - 1) :
    h.Without { h with
      order := h.order.pop
      position := h.position.setIfInBounds x none } x := by
  have inside := (Array.getElem?_eq_some_iff.1 found).1
  have order (i : Nat) : h.order.pop[i]? = if i = hole then none else h.order[i]? := by
    rw [Array.getElem?_pop]
    have outside : h.order.size ≤ i → h.order[i]? = none := Array.getElem?_eq_none
    grind
  refine ⟨⟨fun i y => ?_, by simpa using wellFormed.size_position⟩, fun y => ?_, rfl, ?_⟩
  · have placed := wellFormed.placed i y
    simp only [order, Array.getElem?_setIfInBounds]
    have := wellFormed.unique (i := i) (j := hole) (x := y)
    grind
  · simp only [Array.mem_iff_getElem?, order]
    constructor
    · rintro ⟨i, located⟩
      have := wellFormed.unique (i := i) (j := hole) (x := x)
      grind
    · rintro ⟨⟨i, located⟩, other⟩
      exact ⟨i, by grind⟩
  · simp only [Array.size_pop]
    omega

theorem WellFormed.fill_hole (wellFormed : h.WellFormed) {hole x moved : Nat}
    (found : h.order[hole]? = some x) (notLast : hole ≠ h.order.size - 1)
    (atLast : h.order[h.order.size - 1]? = some moved) :
    h.Without { h with
      order := (h.order.setIfInBounds hole moved).pop
      position := (h.position.setIfInBounds x none).setIfInBounds moved (some hole) } x := by
  have inside := (Array.getElem?_eq_some_iff.1 found).1
  have atMoved := (wellFormed.placed _ _).1 atLast
  have knownMoved := (Array.getElem?_eq_some_iff.1 atMoved).1
  have order (i : Nat) : (h.order.setIfInBounds hole moved).pop[i]? =
      if i = h.order.size - 1 then none else if i = hole then some moved else h.order[i]? := by
    rw [Array.getElem?_pop, Array.size_setIfInBounds, Array.getElem?_setIfInBounds]
    have outside : h.order.size ≤ i → h.order[i]? = none := Array.getElem?_eq_none
    grind
  refine ⟨⟨fun i y => ?_, by simpa using wellFormed.size_position⟩, fun y => ?_, rfl, ?_⟩
  · have placed := wellFormed.placed i y
    simp only [order, Array.getElem?_setIfInBounds, Array.size_setIfInBounds]
    -- By whose place is asked for: that of the last index, of the one taken out, or of another.
    by_cases isMoved : moved = y
    · subst isMoved
      have := wellFormed.unique (i := i) (j := h.order.size - 1) (x := moved)
      grind
    · by_cases isX : x = y
      · subst isX
        have := wellFormed.unique (i := i) (j := hole) (x := x)
        grind
      · grind
  · simp only [Array.mem_iff_getElem?, order]
    constructor
    · rintro ⟨i, located⟩
      have := wellFormed.unique (i := i) (j := hole) (x := x)
      have := wellFormed.unique (i := hole) (j := h.order.size - 1) (x := x)
      grind
    · rintro ⟨⟨i, located⟩, other⟩
      by_cases last : i = h.order.size - 1
      · exact ⟨hole, by grind⟩
      · exact ⟨i, by grind⟩
  · simp only [Array.size_pop, Array.size_setIfInBounds]
    omega

end Holes

section Membership

variable [LT α] [DecidableLT α] {h : IndexedHeap α}

theorem add_spec (wellFormed : h.WellFormed) (x : Nat) (value : α) :
    (h.add x value).2.WellFormed ∧ (∀ y, y ∈ (h.add x value).2.order ↔ y ∈ h.order) ∧
      (h.add x value).2.values.size = max h.values.size (x + 1) := by
  unfold add
  by_cases known : x < h.values.size
  · rw [if_pos known]
    have same := (h.setValue_reordered x value).trans ((h.setValue x value).settle_reordered x)
    refine ⟨same.wellFormed wellFormed, fun y => same.mem_iff, ?_⟩
    rw [same.size_values]
    omega
  · rw [if_neg known]
    refine ⟨⟨fun i y => ?_, ?_⟩, fun y => Iff.rfl, ?_⟩
    · have inside : h.position[y]? = some (some i) → y < h.position.size :=
        fun found => (Array.getElem?_eq_some_iff.1 found).1
      have placed := wellFormed.placed i y
      simp only [Array.getElem?_append, Array.getElem?_replicate]
      split
      · exact placed
      · rename_i outside
        rw [placed]
        constructor
        · exact fun found => absurd (inside found) outside
        · intro found
          split at found <;> simp at found
    · have := wellFormed.size_position
      simp only [Array.size_append, Array.size_replicate, Array.size_push]
      omega
    · simp only [Array.size_append, Array.size_replicate, Array.size_push]
      omega

theorem activate_spec (wellFormed : h.WellFormed) {x : Nat} (known : x < h.values.size) :
    (h.activate x).2.WellFormed ∧ (∀ y, y ∈ (h.activate x).2.order ↔ y = x ∨ y ∈ h.order) ∧
      (h.activate x).2.values.size = h.values.size := by
  unfold activate
  cases position : h.position? x with
  | some i =>
    have same := (h.siftUp_reordered i).trans ((h.siftUp i).siftDown_reordered i)
    have active : x ∈ h.order :=
      Array.mem_of_getElem? ((wellFormed.placed i x).2 (position?_eq_some.1 position))
    refine ⟨same.wellFormed wellFormed, fun y => ?_, same.size_values⟩
    rw [same.mem_iff]
    exact ⟨.inr, fun member => member.elim (fun equal => equal ▸ active) id⟩
  | none =>
    simp only [if_pos known]
    have absent := wellFormed.position?_eq_none.1 position
    have same := siftUp_reordered { h with
      order := h.order.push x
      position := h.position.setIfInBounds x (some h.order.size) } h.order.size
    refine ⟨same.wellFormed (wellFormed.push known absent), fun y => same.mem_iff.trans ?_,
      same.size_values⟩
    rw [Array.mem_push, or_comm]

theorem activate_of_le (wellFormed : h.WellFormed) {x : Nat} (unknown : h.values.size ≤ x) :
    (h.activate x).2 = h := by
  have outside : h.position[x]? = none :=
    Array.getElem?_eq_none (wellFormed.size_position ▸ unknown)
  simp only [activate, position?, outside, Option.join_none, if_neg (Nat.not_lt.2 unknown)]

theorem WellFormed.activate (wellFormed : h.WellFormed) (x : Nat) :
    (h.activate x).2.WellFormed ∧ ∀ y ∈ h.order, y ∈ (h.activate x).2.order := by
  rcases Nat.lt_or_ge x h.values.size with known | unknown
  · obtain ⟨wellFormed', mem, -⟩ := activate_spec wellFormed known
    exact ⟨wellFormed', fun y active => (mem y).2 (.inr active)⟩
  · rw [activate_of_le wellFormed unknown]
    exact ⟨wellFormed, fun y active => active⟩

theorem WellFormed.mem_activate (wellFormed : h.WellFormed) {x y : Nat}
    (active : y ∈ (h.activate x).2.order) : y = x ∨ y ∈ h.order := by
  rcases Nat.lt_or_ge x h.values.size with known | unknown
  · obtain ⟨-, mem, -⟩ := activate_spec wellFormed known
    exact (mem y).1 active
  · rw [activate_of_le wellFormed unknown] at active
    exact .inr active

theorem remove_spec (wellFormed : h.WellFormed) {x : Nat} (active : x ∈ h.order) :
    h.Without (h.remove x).2 x := by
  obtain ⟨hole, found⟩ := Array.getElem?_of_mem active
  have inside := (Array.getElem?_eq_some_iff.1 found).1
  unfold remove
  simp only [position?_eq_some.2 ((wellFormed.placed hole x).1 found)]
  by_cases isLast : hole = h.order.size - 1
  · rw [if_pos isLast]
    exact wellFormed.drop_last found isLast
  · rw [if_neg isLast]
    obtain ⟨moved, atLast⟩ : ∃ moved, h.order[h.order.size - 1]? = some moved :=
      ⟨_, Array.getElem?_eq_getElem (by omega)⟩
    have getD : h.order.getD (h.order.size - 1) x = moved := by simp [atLast]
    rw [getD]
    apply (wellFormed.fill_hole found isLast atLast).reordered
    exact (siftDown_reordered _ hole).trans (siftUp_reordered _ hole)

theorem remove_of_not_mem (wellFormed : h.WellFormed) {x : Nat} (absent : x ∉ h.order) :
    (h.remove x).2 = h := by
  simp only [remove, wellFormed.position?_eq_none.2 absent]

theorem mem_remove_iff (wellFormed : h.WellFormed) {x y : Nat} :
    y ∈ (h.remove x).2.order ↔ y ∈ h.order ∧ y ≠ x := by
  by_cases active : x ∈ h.order
  · exact (remove_spec wellFormed active).mem_iff y
  · rw [remove_of_not_mem wellFormed active]
    exact ⟨fun member => ⟨member, fun same => active (same ▸ member)⟩, And.left⟩

theorem WellFormed.remove (wellFormed : h.WellFormed) (x : Nat) : (h.remove x).2.WellFormed := by
  by_cases active : x ∈ h.order
  · exact (remove_spec wellFormed active).wellFormed
  · rwa [remove_of_not_mem wellFormed active]

theorem WellFormed.popMax (wellFormed : h.WellFormed) : h.popMax.2.WellFormed := by
  unfold IndexedHeap.popMax
  split
  · exact wellFormed
  · exact wellFormed.remove _

theorem popMax_none (empty : (h.popMax).1 = none) : h.order.size = 0 := by
  unfold popMax at empty
  split at empty
  · rename_i none
    simpa [max?] using none
  · cases empty

theorem eq_of_popMax_none {rest : IndexedHeap α} (popped : h.popMax = (none, rest)) :
    rest = h := by
  unfold popMax at popped
  split at popped <;> cases popped
  rfl

theorem popMax_some {x : Nat} (popped : h.popMax.1 = some x) :
    x ∈ h.order ∧ h.popMax.2 = (h.remove x).2 := by
  unfold popMax at popped ⊢
  split at popped
  · cases popped
  · rename_i top found
    obtain rfl := Option.some.inj popped
    exact ⟨Array.mem_of_getElem? found, rfl⟩

theorem WellFormed.without_of_popMax (wellFormed : h.WellFormed) {x : Nat} {rest : IndexedHeap α}
    (popped : h.popMax = (some x, rest)) : x ∈ h.order ∧ h.Without rest x := by
  obtain ⟨active, removed⟩ := popMax_some (congrArg Prod.fst popped)
  rw [popped] at removed
  obtain rfl : rest = _ := removed
  exact ⟨active, remove_spec wellFormed active⟩

end Membership

end IndexedHeap

end ClauseLearning
