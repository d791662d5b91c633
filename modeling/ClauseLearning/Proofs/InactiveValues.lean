import ClauseLearning.Proofs.OpenCalls

namespace ClauseLearning

namespace IndexedHeap

variable {α : Type} {h : IndexedHeap α} {x : Nat} {f : α → α}

theorem order_modifyValue (h : IndexedHeap α) (x : Nat) (f : α → α) :
    (h.modifyValue x f).order = h.order := rfl

theorem position?_modifyValue (h : IndexedHeap α) (x : Nat) (f : α → α) (y : Nat) :
    (h.modifyValue x f).position? y = h.position? y := rfl

theorem swap_modifyValue (h : IndexedHeap α) (x : Nat) (f : α → α) (i j : Nat) :
    (h.modifyValue x f).swap i j = (h.swap i j).modifyValue x f := by
  simp only [swap, order_modifyValue]
  split <;> rfl

variable [LT α] [DecidableLT α]

theorem above_modifyValue (absent : x ∉ h.order) (i j : Nat) :
    (h.modifyValue x f).above i j = h.above i j := by
  have kept {i y : Nat} (found : h.order[i]? = some y) :
      (h.modifyValue x f).values[y]? = h.values[y]? := by
    have apart : x ≠ y := fun same => absent (same ▸ Array.mem_of_getElem? found)
    rw [modifyValue, Array.getElem?_modify, if_neg apart]
  unfold above
  rw [order_modifyValue]
  cases first : h.order[i]? with
  | none => rfl
  | some y =>
    cases second : h.order[j]? with
    | none => rfl
    | some z => simp only [precedes, kept first, kept second]

theorem topmost_modifyValue (absent : x ∉ h.order) (i : Nat) :
    (h.modifyValue x f).topmost i = h.topmost i := by
  simp only [topmost, above_modifyValue absent, order_modifyValue]
  rfl

theorem siftDown_modifyValue (absent : x ∉ h.order) (i : Nat) :
    (h.modifyValue x f).siftDown i = (h.siftDown i).modifyValue x f := by
  fun_induction siftDown h i with
  | case1 h i best moved ih =>
    rw [siftDown]
    simp only [topmost_modifyValue absent]
    rw [dif_pos moved, swap_modifyValue]
    exact ih fun member => absent ((swap_reordered h i best).mem_iff.1 member)
  | case2 h i best unmoved =>
    rw [siftDown]
    simp only [topmost_modifyValue absent]
    rw [dif_neg unmoved]

theorem siftUp_modifyValue (absent : x ∉ h.order) (i : Nat) :
    (h.modifyValue x f).siftUp i = (h.siftUp i).modifyValue x f := by
  fun_induction siftUp h i with
  | case1 h i inner parent rises ih =>
    rw [siftUp, dif_pos inner]
    simp only [above_modifyValue absent]
    rw [if_pos rises, swap_modifyValue]
    exact ih fun member => absent ((swap_reordered h i parent).mem_iff.1 member)
  | case2 h i inner parent stays =>
    rw [siftUp, dif_pos inner]
    simp only [above_modifyValue absent]
    rw [if_neg stays]
  | case3 h i top => rw [siftUp, dif_neg top]

theorem settle_of_not_mem (wellFormed : h.WellFormed) (absent : x ∉ h.order) : h.settle x = h := by
  simp only [settle, wellFormed.position?_eq_none.2 absent]

theorem resift_modifyValue (absent : x ∉ h.order) (i : Nat) :
    (((h.modifyValue x f).siftDown i).siftUp i) = ((h.siftDown i).siftUp i).modifyValue x f := by
  rw [siftDown_modifyValue absent, siftUp_modifyValue]
  exact fun member => absent ((siftDown_reordered h i).mem_iff.1 member)

theorem remove_modifyValue (wellFormed : h.WellFormed) (absent : x ∉ h.order) (y : Nat) :
    (h.modifyValue x f).remove y = ((h.remove y).1, (h.remove y).2.modifyValue x f) := by
  unfold remove
  rw [position?_modifyValue]
  cases position : h.position? y with
  | none => rfl
  | some hole =>
    have found : h.order[hole]? = some y :=
      (wellFormed.placed hole y).2 (position?_eq_some.1 position)
    simp only [order_modifyValue]
    by_cases isLast : hole = h.order.size - 1
    · rw [if_pos isLast]
      exact if_pos isLast
    · have inside := (Array.getElem?_eq_some_iff.1 found).1
      obtain ⟨moved, atLast⟩ : ∃ moved, h.order[h.order.size - 1]? = some moved :=
        ⟨_, Array.getElem?_eq_getElem (by omega)⟩
      have getD : h.order.getD (h.order.size - 1) y = moved := by simp [atLast]
      have filled := wellFormed.fill_hole found isLast atLast
      rw [if_neg isLast, getD]
      exact (if_neg isLast).trans (congrArg (true, ·)
        (resift_modifyValue (fun member => absent ((filled.mem_iff x).1 member).1) hole))

theorem popMax_modifyValue (wellFormed : h.WellFormed) (absent : x ∉ h.order) :
    (h.modifyValue x f).popMax = (h.popMax.1, h.popMax.2.modifyValue x f) := by
  have top : (h.modifyValue x f).max? = h.max? := rfl
  unfold popMax
  rw [top]
  cases h.max? with
  | none => rfl
  | some y => simp only [remove_modifyValue wellFormed absent]

theorem activate_modifyValue (absent : x ∉ h.order) {y : Nat} (apart : x ≠ y) :
    (h.modifyValue x f).activate y = ((h.activate y).1, (h.activate y).2.modifyValue x f) := by
  unfold activate
  rw [position?_modifyValue]
  cases h.position? y with
  | some i =>
    simp only
    rw [siftUp_modifyValue absent, siftDown_modifyValue]
    exact fun member => absent ((siftUp_reordered h i).mem_iff.1 member)
  | none =>
    have size : (h.modifyValue x f).values.size = h.values.size := by simp [modifyValue]
    simp only [size, order_modifyValue]
    by_cases known : y < h.values.size
    · let pushed : IndexedHeap α := { h with
        order := h.order.push y
        position := h.position.setIfInBounds y (some h.order.size) }
      have absent' : x ∉ pushed.order := by simpa [pushed] using ⟨absent, apart⟩
      simp only [if_pos known]
      exact congrArg (true, ·) (siftUp_modifyValue absent' h.order.size)
    · simp only [if_neg known]

end IndexedHeap

namespace Reduction

open IndexedHeap

variable {x : Nat} {f : ClauseRank → ClauseRank}

def modifyRank (r : Reduction) (x : Nat) (f : ClauseRank → ClauseRank) : Reduction :=
  { r with ranks := r.ranks.modifyValue x f }

structure Unvisited (r : Reduction) (x : Nat) : Prop where
  wellFormed : r.ranks.WellFormed
  absent : x ∉ r.ranks.order
  unkept : x ∉ r.kept

theorem Unvisited.popMax {state : WatchedStore} {ranks rest : IndexedHeap ClauseRank}
    {kept : List Nat} {removed : List ClauseKey} {i : Nat}
    (unvisited : Unvisited ⟨state, ranks, kept, removed⟩ x)
    (popped : ranks.popMax = (some i, rest)) :
    rest.WellFormed ∧ x ∉ rest.order ∧ x ≠ i ∧
      (rest.modifyValue x f).value? i = rest.value? i ∧
      (ranks.modifyValue x f).popMax = (some i, rest.modifyValue x f) := by
  obtain ⟨onHeap, wellFormed, order, -⟩ := unvisited.wellFormed.without_of_popMax popped
  have apart : x ≠ i := fun same => unvisited.absent (same ▸ onHeap)
  refine ⟨wellFormed, fun member => unvisited.absent ((order x).1 member).1, apart, ?_, ?_⟩
  · rw [value?_modifyValue, if_neg (Ne.symm apart)]
  · rw [popMax_modifyValue unvisited.wellFormed unvisited.absent, popped]

theorem visit_modifyRank (source : Atom → Option Source) (visits count : Nat) (r : Reduction) :
    r.Unvisited x → visit source visits count (r.modifyRank x f) =
        ((visit source visits count r).1, (visit source visits count r).2.modifyRank x f) ∧
      (visit source visits count r).2.Unvisited x := by
  -- The changed rank is not on the heap, so both visits take the same turns.
  fun_induction visit source visits count r with
  | case1 => exact fun unvisited => ⟨by rw [visit], unvisited⟩
  | case2 visits r positive => exact fun unvisited => ⟨by rw [visit]; exact positive, unvisited⟩
  | case3 visits count state ranks kept removed rest empty =>
    intro unvisited
    have popped := popMax_modifyValue (f := f) unvisited.wellFormed unvisited.absent
    rw [empty] at popped
    obtain rfl := eq_of_popMax_none empty
    exact ⟨by simp only [modifyRank, visit, popped], unvisited⟩
  | case4 visits count state ranks kept removed i rest popped none =>
    intro unvisited
    obtain ⟨wellFormed, absent, -, -, popped'⟩ := unvisited.popMax (f := f) popped
    exact ⟨by simp only [modifyRank, visit, popped', none], wellFormed, absent, unvisited.unkept⟩
  | case5 visits count state ranks kept removed i rest popped none =>
    intro unvisited
    obtain ⟨wellFormed, absent, -, -, popped'⟩ := unvisited.popMax (f := f) popped
    exact ⟨by simp only [modifyRank, visit, popped', none], wellFormed, absent, unvisited.unkept⟩
  | case6 visits count state ranks kept removed i rest popped c slot key rank isProtected ih =>
    intro unvisited
    obtain ⟨wellFormed, absent, apart, value, popped'⟩ := unvisited.popMax (f := f) popped
    obtain ⟨same, unvisited'⟩ := ih ⟨wellFormed, absent, by
      simpa using ⟨apart, unvisited.unkept⟩⟩
    refine ⟨?_, unvisited'⟩
    rw [← same]
    simp only [modifyRank, visit, popped', slot, value]
    exact if_pos isProtected
  | case7 visits count state ranks kept removed i rest popped c slot key rank unprotected failure
      state' refused =>
    intro unvisited
    obtain ⟨wellFormed, absent, -, value, popped'⟩ := unvisited.popMax (f := f) popped
    refine ⟨?_, wellFormed, absent, unvisited.unkept⟩
    simp only [modifyRank, visit, popped', slot, value]
    rw [if_neg unprotected, refused]
  | case8 visits count state ranks kept removed i rest popped c slot key rank unprotected state'
      detached ih =>
    intro unvisited
    obtain ⟨wellFormed, absent, -, value, popped'⟩ := unvisited.popMax (f := f) popped
    obtain ⟨same, unvisited'⟩ := ih ⟨wellFormed, absent, unvisited.unkept⟩
    refine ⟨?_, unvisited'⟩
    rw [← same]
    simp only [modifyRank, visit, popped', slot, value]
    rw [if_neg unprotected, detached]

theorem reactivate_modifyValue {ranks : IndexedHeap ClauseRank} (wellFormed : ranks.WellFormed)
    (absent : x ∉ ranks.order) {kept : List Nat} (unkept : x ∉ kept) :
    reactivate (ranks.modifyValue x f) kept = (reactivate ranks kept).modifyValue x f ∧
      x ∉ (reactivate ranks kept).order := by
  induction kept with
  | nil => exact ⟨rfl, absent⟩
  | cons i rest ih =>
    rw [List.mem_cons, not_or] at unkept
    obtain ⟨same, absent'⟩ := ih unkept.2
    have activated := activate_modifyValue (f := f) absent' unkept.1
    refine ⟨(congrArg (fun ranks => (ranks.activate i).2) same).trans
      (congrArg Prod.snd activated), fun member => ?_⟩
    exact ((reactivate_wellFormed wellFormed rest).mem_activate member).elim unkept.1 absent'

end Reduction

namespace WatchedStore

def modifyRank (s : WatchedStore) (x : Nat) (f : ClauseRank → ClauseRank) : WatchedStore :=
  { s with store := { s.store with ranks := s.store.ranks.modifyValue x f } }

theorem reduce_modifyRank {s : WatchedStore} {x : Nat} (wellFormed : s.store.ranks.WellFormed)
    (absent : x ∉ s.store.ranks.order) (f : ClauseRank → ClauseRank)
    (source : Atom → Option Source) (count : Nat) :
    (s.modifyRank x f).reduce source count =
      ((s.reduce source count).1, (s.reduce source count).2.modifyRank x f) := by
  obtain ⟨store, watches⟩ := s
  let start : Reduction :=
    { state := ⟨{ store with ranks := { blank := {} } }, watches⟩, ranks := store.ranks }
  have unvisited : start.Unvisited x := ⟨wellFormed, absent, List.not_mem_nil⟩
  obtain ⟨same, unvisited'⟩ := Reduction.visit_modifyRank (f := f) source store.ranks.activeCount
    count start unvisited
  change Reduction.visit source (store.ranks.modifyValue x f).activeCount count
    { state := ⟨{ store with ranks := { blank := {} } }, watches⟩
      ranks := store.ranks.modifyValue x f } = _ at same
  simp only [WatchedStore.reduce, modifyRank, same]
  cases visited : Reduction.visit source store.ranks.activeCount count start with
  | mk answer r =>
    rw [visited] at unvisited'
    cases answer with
    | error failure => rfl
    | ok _ =>
      obtain ⟨kept, -⟩ := Reduction.reactivate_modifyValue (f := f) unvisited'.wellFormed
        unvisited'.absent unvisited'.unkept
      simp only [Reduction.modifyRank, kept]

end WatchedStore

end ClauseLearning
