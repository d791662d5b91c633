import ClauseLearning.Proofs.IndexedHeap
import Mathlib.Logic.Equiv.Basic

namespace ClauseLearning

namespace IndexedHeap

variable {α : Type} [LT α]

omit [LT α] in
def ActiveValue (h : IndexedHeap α) (a : α) : Prop := ∃ x ∈ h.order, h.values[x]? = some a

structure Comparable (among : α → Prop) : Prop where
  asymm : ∀ a b, among a → among b → a < b → ¬b < a
  between : ∀ a b c, among a → among b → among c → a < c → a < b ∨ b < c

theorem Comparable.mono {among fewer : α → Prop} (comparable : Comparable among)
    (included : ∀ a, fewer a → among a) : Comparable fewer where
  asymm a b first second := comparable.asymm a b (included a first) (included b second)
  between a b c first second third :=
    comparable.between a b c (included a first) (included b second) (included c third)

structure Sortable (h : IndexedHeap α) : Prop where
  wellFormed : h.WellFormed
  comparable : Comparable h.ActiveValue

omit [LT α] in
theorem WellFormed.known {h : IndexedHeap α} (wellFormed : h.WellFormed) {x : Nat}
    (active : x ∈ h.order) : ∃ a, h.values[x]? = some a := by
  obtain ⟨i, found⟩ := Array.getElem?_of_mem active
  have inside := (Array.getElem?_eq_some_iff.1 ((wellFormed.placed i x).1 found)).1
  exact ⟨_, Array.getElem?_eq_getElem (wellFormed.size_position ▸ inside)⟩

omit [LT α] in
theorem Reordered.activeValue_iff {h h' : IndexedHeap α} (same : h.Reordered h')
    (values : h'.values = h.values) {a : α} : h'.ActiveValue a ↔ h.ActiveValue a := by
  simp only [ActiveValue, same.mem_iff, values]

theorem Sortable.of_reordered {h h' : IndexedHeap α} (sortable : h.Sortable)
    (same : h.Reordered h') (values : h'.values = h.values) : h'.Sortable :=
  ⟨same.wellFormed sortable.wellFormed,
    sortable.comparable.mono fun _ => (same.activeValue_iff values).1⟩

theorem Sortable.swap {h : IndexedHeap α} (sortable : h.Sortable) (i j : Nat) :
    (h.swap i j).Sortable :=
  sortable.of_reordered (h.swap_reordered i j) (h.values_swap i j)

omit [LT α] in
theorem order_swap (h : IndexedHeap α) {i j : Nat} (first : i < h.order.size)
    (second : j < h.order.size) (k : Nat) :
    (h.swap i j).order[k]? = h.order[Equiv.swap i j k]? := by
  have foundI := Array.getElem?_eq_getElem first
  have foundJ := Array.getElem?_eq_getElem second
  unfold IndexedHeap.swap
  simp only [foundI, foundJ, getElem?_swapIfInBounds foundI foundJ, Equiv.swap_apply_def]
  grind

variable [DecidableLT α] {h h' : IndexedHeap α} {i j k : Nat}

theorem precedes_eq {x y : Nat} {a b : α} (first : h.values[x]? = some a)
    (second : h.values[y]? = some b) :
    h.precedes x y = true ↔ b < a ∨ ¬a < b ∧ x < y := by
  simp [precedes, first, second]

theorem precedes_total {x y : Nat} {a b : α} (first : h.values[x]? = some a)
    (second : h.values[y]? = some b) (other : x ≠ y) (later : h.precedes y x = false) :
    h.precedes x y = true := by
  rw [← Bool.not_eq_true, precedes_eq second first] at later
  rw [precedes_eq first second]
  rcases Nat.lt_or_gt_of_ne other with less | more <;> tauto

namespace Sortable

theorem precedes_asymm (sortable : h.Sortable) {x y : Nat} (activeX : x ∈ h.order)
    (activeY : y ∈ h.order) (sooner : h.precedes x y = true) : h.precedes y x = false := by
  obtain ⟨a, foundA⟩ := sortable.wellFormed.known activeX
  obtain ⟨b, foundB⟩ := sortable.wellFormed.known activeY
  have asymm := sortable.comparable.asymm b a ⟨y, activeY, foundB⟩ ⟨x, activeX, foundA⟩
  rw [precedes_eq foundA foundB] at sooner
  rw [← Bool.not_eq_true, precedes_eq foundB foundA]
  rcases sooner with greater | ⟨tied, less⟩
  · rintro (less | ⟨tied, -⟩)
    · exact asymm greater less
    · exact tied greater
  · rintro (less | ⟨-, more⟩)
    · exact tied less
    · omega

theorem not_precedes_trans (sortable : h.Sortable) {x y z : Nat} (activeX : x ∈ h.order)
    (activeY : y ∈ h.order) (activeZ : z ∈ h.order) (first : h.precedes x y = false)
    (second : h.precedes y z = false) : h.precedes x z = false := by
  obtain ⟨a, foundA⟩ := sortable.wellFormed.known activeX
  obtain ⟨b, foundB⟩ := sortable.wellFormed.known activeY
  obtain ⟨c, foundC⟩ := sortable.wellFormed.known activeZ
  have valueA : h.ActiveValue a := ⟨x, activeX, foundA⟩
  have valueB : h.ActiveValue b := ⟨y, activeY, foundB⟩
  have valueC : h.ActiveValue c := ⟨z, activeZ, foundC⟩
  have between := sortable.comparable.between
  have viaCA := between c b a valueC valueB valueA
  have viaAB := between a c b valueA valueC valueB
  have viaBC := between b a c valueB valueA valueC
  rw [← Bool.not_eq_true, precedes_eq foundA foundB] at first
  rw [← Bool.not_eq_true, precedes_eq foundB foundC] at second
  rw [← Bool.not_eq_true, precedes_eq foundA foundC]
  rintro (greater | ⟨tied, less⟩)
  · tauto
  · by_cases before : x < y
    · tauto
    · have after : y < z := by omega
      tauto

end Sortable

def Under (h : IndexedHeap α) (i j : Nat) : Prop := h.above i j = false

theorem under_of_le (outside : h.order.size ≤ i) : h.Under i j := by
  simp [Under, above, Array.getElem?_eq_none outside]

theorem under_swap (first : i < h.order.size) (second : j < h.order.size) {m n : Nat} :
    (h.swap i j).Under m n ↔ h.Under (Equiv.swap i j m) (Equiv.swap i j n) := by
  unfold Under above precedes
  rw [order_swap h first second, order_swap h first second, values_swap]

theorem Under.congr (under : h.Under i j) (first : h'.order[i]? = h.order[i]?)
    (second : h'.order[j]? = h.order[j]?)
    (values : ∀ x, h.order[i]? = some x ∨ h.order[j]? = some x → h'.values[x]? = h.values[x]?) :
    h'.Under i j := by
  unfold Under above precedes at under ⊢
  rw [first, second]
  cases found : h.order[i]? with
  | none => rfl
  | some x =>
    cases found' : h.order[j]? with
    | none => rfl
    | some y =>
      rw [found, found'] at under
      simp only [values x (.inl found), values y (.inr found')]
      exact under

namespace Sortable

theorem under_of_above (sortable : h.Sortable) (above : h.above i j = true) : h.Under j i := by
  unfold Under
  unfold IndexedHeap.above at above ⊢
  split at above
  · rename_i x y first second
    rw [second, first]
    exact sortable.precedes_asymm (Array.mem_of_getElem? first) (Array.mem_of_getElem? second) above
  · cases above

theorem under_trans (sortable : h.Sortable) (inside : j < h.order.size) (first : h.Under i j)
    (second : h.Under j k) : h.Under i k := by
  have found := Array.getElem?_eq_getElem inside
  unfold Under above at first second ⊢
  rw [found] at first second
  split
  · rename_i x z foundX foundZ
    rw [foundX] at first
    rw [foundZ] at second
    exact sortable.not_precedes_trans (Array.mem_of_getElem? foundX) (Array.getElem_mem inside)
      (Array.mem_of_getElem? foundZ) first second
  · rfl

end Sortable

def OrderedFrom (k : Nat) (h : IndexedHeap α) : Prop :=
  ∀ j, 0 < j → j < h.order.size → k ≤ (j - 1) / 2 → h.Under j ((j - 1) / 2)

def Ordered (h : IndexedHeap α) : Prop := h.OrderedFrom 0

/-- From position `k` on the order holds between other positions than `i`, and between the children
of `i` and its parent. -/
structure OrderedAround (k i : Nat) (h : IndexedHeap α) : Prop where
  apart : ∀ j, 0 < j → j < h.order.size → k ≤ (j - 1) / 2 → j ≠ i → (j - 1) / 2 ≠ i →
    h.Under j ((j - 1) / 2)
  across : ∀ j, j < h.order.size → (j - 1) / 2 = i → 0 < i → k ≤ (i - 1) / 2 →
    h.Under j ((i - 1) / 2)

theorem OrderedFrom.around (sortable : h.Sortable) (ordered : h.OrderedFrom k) :
    h.OrderedAround k i where
  apart j positive inside floor _ _ := ordered j positive inside floor
  across j inside child positive floor := by
    subst child
    exact sortable.under_trans (by omega) (ordered j (by omega) inside (by omega))
      (ordered _ positive (by omega) floor)

theorem siftUp_of_under (under : 0 < i → h.Under i ((i - 1) / 2)) : h.siftUp i = h := by
  rw [siftUp]
  split
  · rename_i positive
    exact if_neg (by simpa [Under] using under positive)
  · rfl

theorem siftDown_of_under
    (under : ∀ j, 0 < j → j < h.order.size → (j - 1) / 2 = i → h.Under j i) :
    h.siftDown i = h := by
  have left := under (2 * i + 1) (by omega)
  have right := under (2 * i + 1 + 1) (by omega)
  have stays : h.topmost i = i := by
    unfold topmost Under at *
    grind
  rw [siftDown]
  exact dif_neg (not_not.2 stays)

theorem Sortable.under_better (sortable : h.Sortable) (inside : j < h.order.size) {best : Nat}
    (better : best = if i < h.order.size && h.above i j then i else j) :
    h.Under i best ∧ h.Under j best ∧ best < h.order.size ∧ (best = i ∨ best = j) := by
  have reflexive (m : Nat) : h.Under m m := by
    by_contra above
    exact above (sortable.under_of_above (by simpa [Under] using above))
  by_cases within : i < h.order.size
  · by_cases above : h.above i j = true
    · simp only [within, above, decide_true, Bool.and_self, if_true] at better
      rw [better]
      exact ⟨reflexive i, sortable.under_of_above above, within, .inl rfl⟩
    · simp only [above, Bool.and_false, Bool.false_eq_true, if_false] at better
      rw [better]
      exact ⟨by simpa [Under] using above, reflexive j, inside, .inr rfl⟩
  · simp only [within, decide_false, Bool.false_and, Bool.false_eq_true, if_false] at better
    rw [better]
    exact ⟨under_of_le (Nat.le_of_not_lt within), reflexive j, inside, .inr rfl⟩

theorem Sortable.under_topmost (sortable : h.Sortable) (inside : i < h.order.size) :
    (∀ j, 0 < j → (j - 1) / 2 = i → h.Under j (h.topmost i)) ∧ h.Under i (h.topmost i) ∧
      h.topmost i < h.order.size ∧
      (h.topmost i ≠ i → 0 < h.topmost i ∧ (h.topmost i - 1) / 2 = i) := by
  obtain ⟨left, top, within, first⟩ := sortable.under_better (i := 2 * i + 1) inside rfl
  obtain ⟨right, before, last, second⟩ := sortable.under_better (i := 2 * i + 1 + 1) within rfl
  change h.Under _ (h.topmost i) at right before
  refine ⟨fun j positive child => ?_, sortable.under_trans within top before, last, fun moved => ?_⟩
  · obtain rfl | rfl : j = 2 * i + 1 ∨ j = 2 * i + 1 + 1 := by omega
    · exact sortable.under_trans within left before
    · exact right
  · change h.topmost i = _ ∨ h.topmost i = _ at second
    rcases second with same | same
    · rw [same]
      omega
    · rw [same] at moved ⊢
      rcases first with same | same <;> rw [same] at moved ⊢
      · omega
      · exact absurd rfl moved

theorem Sortable.rise (sortable : h.Sortable) (inside : i < h.order.size) (positive : 0 < i)
    (around : h.OrderedAround 0 i) (rises : h.above i ((i - 1) / 2) = true) :
    (h.swap i ((i - 1) / 2)).OrderedAround 0 ((i - 1) / 2) ∧
      ∀ j, 0 < j → j < (h.swap i ((i - 1) / 2)).order.size → (j - 1) / 2 = (i - 1) / 2 →
        (h.swap i ((i - 1) / 2)).Under j ((i - 1) / 2) := by
  have within : (i - 1) / 2 < h.order.size := by omega
  have lower : h.Under ((i - 1) / 2) i := sortable.under_of_above rises
  refine ⟨⟨fun j below known _ other apart => ?_, fun j known child above _ => ?_⟩,
      fun j below known child => ?_⟩ <;>
    rw [size_order_swap] at known <;> rw [under_swap inside within] <;>
    simp only [Equiv.swap_apply_def]
  · by_cases child : (j - 1) / 2 = i
    · have := around.across j known child positive (Nat.zero_le _)
      grind
    · have := around.apart j below known (Nat.zero_le _) (by grind) child
      grind
  · have upper : h.Under ((i - 1) / 2) (((i - 1) / 2 - 1) / 2) :=
      around.apart _ above within (Nat.zero_le _) (by omega) (by omega)
    by_cases same : j = i
    · grind
    · have := around.apart j (by omega) known (Nat.zero_le _) same (by omega)
      have := sortable.under_trans within (child ▸ this) upper
      grind
  · by_cases same : j = i
    · grind
    · have := around.apart j below known (Nat.zero_le _) same (by omega)
      have := sortable.under_trans within (child ▸ this) lower
      grind

theorem Sortable.siftUp_ordered (sortable : h.Sortable) (inside : i < h.order.size)
    (around : h.OrderedAround 0 i)
    (children : ∀ j, 0 < j → j < h.order.size → (j - 1) / 2 = i → h.Under j i) :
    (h.siftUp i).Ordered := by
  fun_induction siftUp h i with
  | case1 h i positive parent rises ih =>
    obtain ⟨around', children'⟩ := sortable.rise inside positive around rises
    have within : parent < (h.swap i parent).order.size := by
      rw [size_order_swap]
      omega
    exact ih (sortable.swap i parent) within around' children'
  | case2 h i positive parent stays =>
    intro j below within _
    by_cases same : j = i
    · rw [same]
      simpa [Under] using stays
    · by_cases child : (j - 1) / 2 = i
      · exact child ▸ children j below within child
      · exact around.apart j below within (Nat.zero_le _) same child
  | case3 h i root =>
    intro j below within _
    by_cases child : (j - 1) / 2 = i
    · exact child ▸ children j below within child
    · exact around.apart j below within (Nat.zero_le _) (by omega) child

theorem Sortable.sink (sortable : h.Sortable) (inside : i < h.order.size)
    (around : h.OrderedAround k i) (floor : k ≤ i) {best : Nat} (top : h.topmost i = best)
    (moved : best ≠ i) :
    (h.swap i best).OrderedAround k best ∧ (h.swap i best).Under best ((best - 1) / 2) := by
  obtain ⟨children, lower, within, child⟩ := sortable.under_topmost inside
  rw [top] at children lower within child
  obtain ⟨below, parent⟩ := child moved
  refine ⟨⟨fun j positive known above other apart => ?_, fun j known child _ above => ?_⟩, ?_⟩ <;>
    rw [under_swap inside within] <;> simp only [Equiv.swap_apply_def]
  · rw [size_order_swap] at known
    by_cases sibling : (j - 1) / 2 = i
    · have := children j positive sibling
      grind
    · by_cases same : j = i
      · have := around.across best within parent (by omega) (by omega)
        grind
      · have := around.apart j positive known above same sibling
        grind
  · rw [size_order_swap] at known
    have := around.apart j (by omega) known (by omega) (by omega) (by omega)
    grind
  · grind

theorem Sortable.siftDown_ordered (sortable : h.Sortable) (around : h.OrderedAround k i)
    (parent : 0 < i → k ≤ (i - 1) / 2 → h.Under i ((i - 1) / 2)) (floor : k ≤ i) :
    (h.siftDown i).OrderedFrom k := by
  fun_induction siftDown h i with
  | case1 h i best moved ih =>
    have bounds := topmost_bounds moved
    obtain ⟨around', parent'⟩ := sortable.sink (by omega) around floor rfl moved
    exact ih (sortable.swap i best) around' (fun _ _ => parent') (by omega)
  | case2 h i best stays =>
    intro j below within above
    by_cases child : (j - 1) / 2 = i
    · have children := (sortable.under_topmost (i := i) (by omega)).1 j below child
      rw [show h.topmost i = i from not_not.1 stays] at children
      exact child ▸ children
    · by_cases same : j = i
      · exact same ▸ parent (by omega) (by omega)
      · exact around.apart j below within above same child

theorem Ordered.siftUp_eq (ordered : h.Ordered) (i : Nat) : h.siftUp i = h := by
  refine siftUp_of_under fun positive => ?_
  rcases Nat.lt_or_ge i h.order.size with inside | outside
  · exact ordered i positive inside (Nat.zero_le _)
  · exact under_of_le outside

theorem Ordered.siftDown_eq (ordered : h.Ordered) (i : Nat) : h.siftDown i = h :=
  siftDown_of_under fun j below within child => child ▸ ordered j below within (Nat.zero_le _)

theorem OrderedFrom.congr (ordered : h.OrderedFrom k)
    (order : ∀ m, m < h'.order.size → m < h.order.size ∧ h'.order[m]? = h.order[m]?)
    (values : ∀ x ∈ h.order, h'.values[x]? = h.values[x]?) : h'.OrderedFrom k := by
  intro j below inside floor
  have same := order j inside
  refine (ordered j below same.1 floor).congr same.2 (order _ (by omega)).2 fun x found => ?_
  exact values x (found.elim Array.mem_of_getElem? Array.mem_of_getElem?)

theorem OrderedAround.congr (around : h.OrderedAround k i)
    (order : ∀ m, m ≠ i → m < h'.order.size → m < h.order.size ∧ h'.order[m]? = h.order[m]?)
    (values : ∀ m x, m ≠ i → h.order[m]? = some x → h'.values[x]? = h.values[x]?) :
    h'.OrderedAround k i where
  apart j below inside floor other apart := by
    have same := order j other inside
    refine (around.apart j below same.1 floor other apart).congr same.2
      (order _ apart (by omega)).2 fun x found => ?_
    exact found.elim (values j x other) (values _ x apart)
  across j inside child positive floor := by
    have other : j ≠ i := by omega
    have apart : (i - 1) / 2 ≠ i := by omega
    have same := order j other inside
    refine (around.across j same.1 child positive floor).congr same.2
      (order _ apart (by omega)).2 fun x found => ?_
    exact found.elim (values j x other) (values _ x apart)

namespace Sortable

theorem under_of_rises (sortable : h.Sortable) (inside : i < h.order.size) (positive : 0 < i)
    (around : h.OrderedAround 0 i) (rises : h.above i ((i - 1) / 2) = true) (j : Nat)
    (_ : 0 < j) (within : j < h.order.size) (child : (j - 1) / 2 = i) : h.Under j i :=
  sortable.under_trans (by omega) (around.across j within child positive (Nat.zero_le _))
    (sortable.under_of_above rises)

theorem settles (sortable : h.Sortable) (inside : i < h.order.size) (around : h.OrderedAround 0 i) :
    (h.siftUp i).Ordered ∧ h.siftDown i = h ∨ h.siftUp i = h ∧ (h.siftDown i).Ordered := by
  by_cases rises : 0 < i ∧ h.above i ((i - 1) / 2) = true
  · have children := sortable.under_of_rises inside rises.1 around rises.2
    exact .inl ⟨sortable.siftUp_ordered inside around children, siftDown_of_under children⟩
  · have parent (positive : 0 < i) : h.Under i ((i - 1) / 2) := by
      simpa [Under] using not_and.1 rises positive
    exact .inr ⟨siftUp_of_under parent,
      sortable.siftDown_ordered around (fun positive _ => parent positive) (Nat.zero_le _)⟩

theorem settle_ordered (sortable : h.Sortable) {x : Nat} (found : h.order[i]? = some x)
    (around : h.OrderedAround 0 i) : (h.settle x).Ordered := by
  have inside := (Array.getElem?_eq_some_iff.1 found).1
  have position := position?_eq_some.2 ((sortable.wellFormed.placed i x).1 found)
  unfold settle
  simp only [position]
  rcases sortable.settles inside around with ⟨risen, -⟩ | ⟨same, sunk⟩
  · split
    · exact risen
    · rwa [risen.siftDown_eq]
  · rw [same, position]
    exact sunk

theorem settle_of_values (sortable : h.Sortable) (sortable' : h'.Sortable) (ordered : h.Ordered)
    (order : h'.order = h.order) {x : Nat}
    (values : ∀ y, y ≠ x → h'.values[y]? = h.values[y]?) : (h'.settle x).Ordered := by
  cases position : h'.position? x with
  | none =>
    have absent := sortable'.wellFormed.position?_eq_none.1 position
    rw [show h'.settle x = h' by unfold settle; simp only [position]]
    refine OrderedFrom.congr ordered (fun m inside => order ▸ ⟨inside, rfl⟩) fun y active => ?_
    exact values y fun same => absent (order ▸ same ▸ active)
  | some i =>
    have found := (sortable'.wellFormed.placed i x).2 (position?_eq_some.1 position)
    refine sortable'.settle_ordered found ((OrderedFrom.around sortable ordered).congr
      (fun m _ inside => order ▸ ⟨inside, rfl⟩) fun m y other located => values y ?_)
    rintro rfl
    exact other (sortable'.wellFormed.unique (order ▸ located) found)

theorem add_ordered (sortable : h.Sortable) (ordered : h.Ordered) {x : Nat} {value : α}
    (comparable : Comparable (h.add x value).2.ActiveValue) : (h.add x value).2.Ordered := by
  unfold add at comparable ⊢
  split at comparable
  · rename_i known
    rw [if_pos known]
    have written : (h.setValue x value).Sortable :=
      ⟨(h.setValue_reordered x value).wellFormed sortable.wellFormed,
        comparable.mono fun _ =>
          ((settle_reordered _ x).activeValue_iff (values_settle ..)).2⟩
    refine sortable.settle_of_values written ordered rfl fun y other => ?_
    exact Array.getElem?_setIfInBounds_ne (Ne.symm other)
  · rename_i unknown
    rw [if_neg unknown]
    refine OrderedFrom.congr ordered (fun m inside => ⟨inside, rfl⟩) fun y active => ?_
    obtain ⟨a, stored⟩ := sortable.wellFormed.known active
    have inside := (Array.getElem?_eq_some_iff.1 stored).1
    grind

theorem activate_ordered (sortable : h.Sortable) (ordered : h.Ordered) {x : Nat}
    (comparable : Comparable (h.activate x).2.ActiveValue) : (h.activate x).2.Ordered := by
  unfold activate at comparable ⊢
  cases position : h.position? x with
  | some i =>
    simp only [ordered.siftUp_eq, ordered.siftDown_eq]
    exact ordered
  | none =>
    simp only [position] at comparable ⊢
    split at comparable
    · rename_i known
      rw [if_pos known]
      have absent := sortable.wellFormed.position?_eq_none.1 position
      have same := siftUp_reordered { h with
        order := h.order.push x
        position := h.position.setIfInBounds x (some h.order.size) } h.order.size
      have pushed : Sortable { h with
          order := h.order.push x
          position := h.position.setIfInBounds x (some h.order.size) } :=
        ⟨sortable.wellFormed.push known absent,
          comparable.mono fun _ => (same.activeValue_iff (values_siftUp ..)).2⟩
      refine pushed.siftUp_ordered (by simp) ?_ fun j below within child => ?_
      · refine (OrderedFrom.around sortable ordered).congr (fun m other inside => ?_)
          fun _ _ _ _ => rfl
        simp only [Array.size_push] at inside
        exact ⟨by omega, by rw [Array.getElem?_push, if_neg other]⟩
      · simp only [Array.size_push] at within
        omega
    · rename_i unknown
      rw [if_neg unknown]
      exact ordered

theorem remove_ordered (sortable : h.Sortable) (ordered : h.Ordered) (x : Nat) :
    (h.remove x).2.Ordered := by
  unfold remove
  cases position : h.position? x with
  | none => exact ordered
  | some hole =>
    have found := (sortable.wellFormed.placed hole x).2 (position?_eq_some.1 position)
    have inside := (Array.getElem?_eq_some_iff.1 found).1
    simp only
    split
    · refine OrderedFrom.congr ordered (fun m within => ?_) fun _ _ => rfl
      simp only [Array.size_pop] at within
      exact ⟨by omega, by rw [Array.getElem?_pop, if_pos within]⟩
    · rename_i notLast
      obtain ⟨moved, atLast⟩ : ∃ moved, h.order[h.order.size - 1]? = some moved :=
        ⟨_, Array.getElem?_eq_getElem (by omega)⟩
      rw [show h.order.getD (h.order.size - 1) x = moved by simp [atLast]]
      have without := sortable.wellFormed.fill_hole found notLast atLast
      have filled : Sortable { h with
          order := (h.order.setIfInBounds hole moved).pop
          position := (h.position.setIfInBounds x none).setIfInBounds moved (some hole) } :=
        ⟨without.wellFormed, sortable.comparable.mono fun _ ⟨y, active, found⟩ =>
          ⟨y, ((without.mem_iff y).1 active).1, found⟩⟩
      have around : OrderedAround 0 hole { h with
          order := (h.order.setIfInBounds hole moved).pop
          position := (h.position.setIfInBounds x none).setIfInBounds moved (some hole) } := by
        refine (OrderedFrom.around sortable ordered).congr (fun m other within => ?_)
          fun _ _ _ _ => rfl
        simp only [Array.size_pop, Array.size_setIfInBounds] at within
        refine ⟨by omega, ?_⟩
        rw [Array.getElem?_pop, Array.size_setIfInBounds, if_pos within,
          Array.getElem?_setIfInBounds_ne (Ne.symm other)]
      have within : hole < (h.order.setIfInBounds hole moved).pop.size := by
        simp only [Array.size_pop, Array.size_setIfInBounds]
        omega
      -- What fills the hole is out of place one way at most, so one of the two sifts rests.
      rcases filled.settles within around with ⟨risen, same⟩ | ⟨same, sunk⟩
      · rwa [same]
      · rwa [sunk.siftUp_eq]

theorem remove (sortable : h.Sortable) (x : Nat) : (h.remove x).2.Sortable := by
  by_cases active : x ∈ h.order
  · have without := remove_spec sortable.wellFormed active
    refine ⟨without.wellFormed, sortable.comparable.mono fun _ ⟨y, member, found⟩ => ?_⟩
    exact ⟨y, ((without.mem_iff y).1 member).1, h.values_remove x ▸ found⟩
  · rwa [remove_of_not_mem sortable.wellFormed active]

theorem popMax (sortable : h.Sortable) : h.popMax.2.Sortable := by
  unfold IndexedHeap.popMax
  split
  · exact sortable
  · exact sortable.remove _

theorem popMax_ordered (sortable : h.Sortable) (ordered : h.Ordered) : h.popMax.2.Ordered := by
  unfold IndexedHeap.popMax
  split
  · exact ordered
  · exact sortable.remove_ordered ordered _

theorem heapify_ordered (sortable : h.Sortable) : h.heapify.Ordered := by
  have below (n : Nat) (h : IndexedHeap α) (sortable : h.Sortable) (ordered : h.OrderedFrom n) :
      (heapifyBelow n h).Ordered := by
    induction n generalizing h with
    | zero => exact ordered
    | succ n ih =>
      have sunk : (h.siftDown n).OrderedFrom n := by
        refine sortable.siftDown_ordered ⟨fun j below inside floor _ apart => ?_,
          fun j _ _ positive floor => ?_⟩ (fun positive floor => ?_) (Nat.le_refl n)
        · exact ordered j below inside (by omega)
        · omega
        · omega
      exact ih _ (sortable.of_reordered (h.siftDown_reordered n) (h.values_siftDown n)) sunk
  exact below _ h sortable fun j below inside floor => by omega

theorem under_root (sortable : h.Sortable) (ordered : h.Ordered) (inside : i < h.order.size) :
    h.Under i 0 := by
  induction i using Nat.strong_induction_on with
  | _ i ih =>
    rcases Nat.eq_zero_or_pos i with rfl | positive
    · by_contra above
      exact above (sortable.under_of_above (by simpa [Under] using above))
    · exact sortable.under_trans (by omega) (ordered i positive inside (Nat.zero_le _))
        (ih _ (by omega) (by omega))

theorem max?_precedes (sortable : h.Sortable) (ordered : h.Ordered) {x y : Nat}
    (top : h.max? = some x) (active : y ∈ h.order) (other : x ≠ y) : h.precedes x y = true := by
  obtain ⟨i, found⟩ := Array.getElem?_of_mem active
  obtain ⟨a, first⟩ := sortable.wellFormed.known (Array.mem_of_getElem? top)
  obtain ⟨b, second⟩ := sortable.wellFormed.known active
  have under := sortable.under_root ordered (Array.getElem?_eq_some_iff.1 found).1
  unfold Under above at under
  rw [found, show h.order[0]? = some x from top] at under
  exact precedes_total first second other under

end Sortable

structure InOrder (h : IndexedHeap α) (ranked : List Nat) : Prop where
  nodup : ranked.Nodup
  mem_iff : ∀ x, x ∈ ranked ↔ x ∈ h.order
  pairwise : ranked.Pairwise (h.precedes · ·)

theorem precedes_congr (values : h'.values = h.values) (x y : Nat) :
    h'.precedes x y = h.precedes x y := by
  simp only [precedes, values]

theorem popMax_of_max? {x : Nat} (top : h.max? = some x) :
    h.popMax = (some x, (h.remove x).2) := by
  simp only [popMax, top]

theorem InOrder.popMax_nil (inOrder : h.InOrder []) : h.popMax = (none, h) := by
  have empty : h.max? = none := by
    cases top : h.max? with
    | none => rfl
    | some x => cases (inOrder.mem_iff x).2 (Array.mem_of_getElem? top)
  simp only [popMax, empty]

theorem InOrder.popMax_cons {x : Nat} {rest : List Nat} (inOrder : h.InOrder (x :: rest))
    (sortable : h.Sortable) (ordered : h.Ordered) :
    h.popMax = (some x, (h.remove x).2) ∧ (h.remove x).2.InOrder rest := by
  obtain ⟨absent, nodup⟩ := List.nodup_cons.1 inOrder.nodup
  obtain ⟨sooner, pairwise⟩ := List.pairwise_cons.1 inOrder.pairwise
  have active : x ∈ h.order := (inOrder.mem_iff x).1 List.mem_cons_self
  obtain ⟨y, top⟩ : ∃ y, h.max? = some y :=
    ⟨_, Array.getElem?_eq_getElem (Array.size_pos_of_mem active)⟩
  have same : y = x := by
    by_contra other
    have activeY : y ∈ h.order := Array.mem_of_getElem? top
    have later : y ∈ rest := ((List.mem_cons.1 ((inOrder.mem_iff y).2 activeY))).resolve_left other
    have back := sortable.precedes_asymm active activeY (sooner y later)
    rw [sortable.max?_precedes ordered top active other] at back
    cases back
  have without := remove_spec sortable.wellFormed active
  refine ⟨popMax_of_max? (same ▸ top), nodup, fun z => ?_, pairwise.imp fun {y z} first => ?_⟩
  · rw [without.mem_iff, ← inOrder.mem_iff, List.mem_cons]
    constructor
    · intro member
      refine ⟨.inr member, ?_⟩
      rintro rfl
      exact absent member
    · rintro ⟨first | member, other⟩
      · exact absurd first other
      · exact member
  · rwa [precedes_congr (h.values_remove x)]

theorem Sortable.exists_inOrder (sortable : h.Sortable) (ordered : h.Ordered) :
    ∃ ranked, h.InOrder ranked := by
  -- Each index that is taken off leaves one fewer active.
  induction size : h.order.size generalizing h with
  | zero => exact ⟨[], .nil, fun x => by simp [Array.eq_empty_of_size_eq_zero size], .nil⟩
  | succ n ih =>
    obtain ⟨x, top⟩ : ∃ x, h.max? = some x := ⟨_, Array.getElem?_eq_getElem (by omega)⟩
    have active : x ∈ h.order := Array.mem_of_getElem? top
    have without := remove_spec sortable.wellFormed active
    have fewer : (h.remove x).2.order.size = n := by
      have := without.size_order
      omega
    obtain ⟨ranked, nodup, mem_iff, pairwise⟩ :=
      ih (sortable.remove x) (sortable.remove_ordered ordered x) fewer
    have member (y : Nat) : y ∈ ranked ↔ y ∈ h.order ∧ y ≠ x :=
      (mem_iff y).trans (without.mem_iff y)
    refine ⟨x :: ranked, List.nodup_cons.2 ⟨fun front => ((member x).1 front).2 rfl, nodup⟩,
      fun y => ?_, List.pairwise_cons.2 ⟨fun y later => ?_, pairwise.imp fun {y z} first => ?_⟩⟩
    · rw [List.mem_cons, member]
      by_cases same : y = x
      · simp [same, active]
      · simp [same]
    · obtain ⟨activeY, other⟩ := (member y).1 later
      exact sortable.max?_precedes ordered top activeY (Ne.symm other)
    · rwa [precedes_congr (h.values_remove x)] at first

end IndexedHeap

end ClauseLearning
