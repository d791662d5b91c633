import ClauseLearning.Proofs.HeapOrder

/-!
A heap is a queue by priority. It is compared with a roster, which keeps a value for each index and
a list of the active indices, and searches all of them for the best. After any calls the two agree
on values and active indices, and what the heap has on top is the best of the roster.
-/

namespace ClauseLearning

/-- A call of a heap. The order is restored at once around a value which is changed, and everywhere
after all of them are. -/
inductive HeapCall (α : Type) where
  | add (x : Nat) (value : α)
  | activate (x : Nat)
  | remove (x : Nat)
  | popMax
  | heapify
  | settle (x : Nat)
  | setValue (x : Nat) (value : α)
  | modifyValue (x : Nat) (f : α → α)
  | mapValues (f : α → α)

namespace IndexedHeap

variable {α : Type} [LT α] [DecidableLT α]

def perform (h : IndexedHeap α) : HeapCall α → IndexedHeap α
  | .add x value => (h.add x value).2
  | .activate x => (h.activate x).2
  | .remove x => (h.remove x).2
  | .popMax => h.popMax.2
  | .heapify => h.heapify
  | .settle x => h.settle x
  | .setValue x value => (h.setValue x value).settle x
  | .modifyValue x f => (h.modifyValue x f).settle x
  | .mapValues f => (h.mapValues f).heapify

def performAll (h : IndexedHeap α) (calls : List (HeapCall α)) : IndexedHeap α :=
  calls.foldl perform h

def pops : (count : Nat) → IndexedHeap α → List (Option Nat)
  | 0, _ => []
  | count + 1, h => h.popMax.1 :: pops count h.popMax.2

end IndexedHeap

structure Roster (α : Type) where
  blank : α
  value? : Nat → Option α := fun _ => none
  active : List Nat := []

namespace Roster

variable {α : Type}

def modify (r : Roster α) (x : Nat) (f : α → α) : Roster α :=
  { r with value? := fun y => if y = x then (r.value? y).map f else r.value? y }

def add (r : Roster α) (x : Nat) (value : α) : Roster α :=
  { r with
    value? := fun y =>
      if y = x then some value
      else if y < x then some ((r.value? y).getD r.blank)
      else r.value? y }

def activate (r : Roster α) (x : Nat) : Roster α :=
  if (r.value? x).isSome then { r with active := r.active.insert x } else r

def remove (r : Roster α) (x : Nat) : Roster α := { r with active := r.active.erase x }

variable [LE α] [DecidableLE α]

def outranks (r : Roster α) (x y : Nat) : Bool :=
  match r.value? x, r.value? y with
  | some a, some b => decide (b ≤ a) && (!decide (a ≤ b) || decide (x < y))
  | _, _ => false

def best? (r : Roster α) : Option Nat :=
  r.active.find? fun x => r.active.all fun y => y == x || r.outranks x y

def IsBest (r : Roster α) (x : Nat) : Prop :=
  x ∈ r.active ∧ ∀ y ∈ r.active, y ≠ x → r.outranks x y = true

/-- The active indices, each once and those of higher rank first. -/
structure Ranks (r : Roster α) (ranked : List Nat) : Prop where
  nodup : ranked.Nodup
  mem_iff : ∀ x, x ∈ ranked ↔ x ∈ r.active
  pairwise : ranked.Pairwise (r.outranks · ·)

variable {r : Roster α} {x y : Nat}

theorem outranks_eq {a b : α} (first : r.value? x = some a) (second : r.value? y = some b) :
    r.outranks x y = true ↔ b ≤ a ∧ (¬a ≤ b ∨ x < y) := by
  simp [outranks, first, second]

theorem outranks_asymm (higher : r.outranks x y = true) : r.outranks y x = false := by
  cases first : r.value? x with
  | none => simp [outranks, first] at higher
  | some a =>
    cases second : r.value? y with
    | none => simp [outranks, first, second] at higher
    | some b =>
      rw [outranks_eq first second] at higher
      rw [← Bool.not_eq_true, outranks_eq second first]
      have : x < y → ¬y < x := Nat.lt_asymm
      tauto

theorem best?_eq_some (best : r.IsBest x) : r.best? = some x := by
  have isBest (y : Nat) : (r.active.all fun z => z == y || r.outranks y z) = true ↔
      ∀ z ∈ r.active, z ≠ y → r.outranks y z = true := by
    simp only [List.all_eq_true, Bool.or_eq_true, beq_iff_eq, or_iff_not_imp_left, ne_eq]
  cases found : r.best? with
  | none =>
    have none := List.find?_eq_none.1 found x best.1
    exact absurd ((isBest x).2 best.2) none
  | some y =>
    unfold best? at found
    have active := List.mem_of_find?_eq_some found
    have outranksAll := List.find?_some found
    have better := (isBest y).1 outranksAll
    by_cases same : x = y
    · rw [same]
    · have asymm := outranks_asymm (better x best.1 same)
      rw [best.2 y active (Ne.symm same)] at asymm
      cases asymm

def perform (r : Roster α) : HeapCall α → Roster α
  | .add x value => r.add x value
  | .activate x => r.activate x
  | .remove x => r.remove x
  | .popMax =>
    match r.best? with
    | none => r
    | some x => r.remove x
  | .heapify => r
  | .settle _ => r
  | .setValue x value => r.modify x fun _ => value
  | .modifyValue x f => r.modify x f
  | .mapValues f => { r with value? := fun y => (r.value? y).map f }

def performAll (r : Roster α) (calls : List (HeapCall α)) : Roster α := calls.foldl perform r

end Roster

namespace IndexedHeap

variable {α : Type}

section

variable [LT α] [DecidableLT α] {h : IndexedHeap α} {r : Roster α}

theorem InOrder.pops {ranked : List Nat} (inOrder : h.InOrder ranked) (sortable : h.Sortable)
    (ordered : h.Ordered) (count : Nat) :
    h.pops count = (List.range count).map (ranked[·]?) := by
  induction count generalizing h ranked with
  | zero => rfl
  | succ count ih =>
    rw [IndexedHeap.pops]
    cases ranked with
    | nil =>
      rw [inOrder.popMax_nil, ih inOrder sortable ordered]
      simp [List.range_succ_eq_map, Function.comp_def]
    | cons x rest =>
      obtain ⟨popped, inOrder'⟩ := inOrder.popMax_cons sortable ordered
      rw [popped, ih inOrder' (sortable.remove x) (sortable.remove_ordered ordered x)]
      simp [List.range_succ_eq_map]

structure Matches (h : IndexedHeap α) (r : Roster α) : Prop where
  wellFormed : h.WellFormed
  ordered : h.Ordered
  blank : h.blank = r.blank
  value?_eq : ∀ x, h.value? x = r.value? x
  mem_iff : ∀ x, x ∈ h.order ↔ x ∈ r.active
  nodup : r.active.Nodup

theorem Matches.new (blank : α) : Matches { blank } { blank } where
  wellFormed := ⟨fun i x => by simp, rfl⟩
  ordered j _ inside _ := absurd inside (Nat.not_lt_zero j)
  blank := rfl
  value?_eq x := by simp [value?]
  mem_iff x := by simp
  nodup := .nil

theorem Matches.isSome_iff (listed : h.Matches r) (x : Nat) :
    (r.value? x).isSome ↔ x < h.values.size := by
  rw [← listed.value?_eq, value?]
  simp

theorem Matches.max?_eq_none_iff (listed : h.Matches r) : h.max? = none ↔ r.active = [] := by
  rw [max?, Array.getElem?_eq_none_iff, Nat.le_zero, List.eq_nil_iff_forall_not_mem]
  simp only [← listed.mem_iff]
  exact ⟨fun empty y active => absurd (Array.size_pos_of_mem active) (by omega),
    fun absent => by
      by_contra nonempty
      exact absent _ (Array.getElem_mem (show 0 < h.order.size by omega))⟩

theorem Matches.revalued (listed : h.Matches r) {h' : IndexedHeap α} (same : h.Reordered h')
    (ordered : h'.Ordered) {value? : Nat → Option α} (values : ∀ x, h'.value? x = value? x) :
    h'.Matches { r with value? } where
  wellFormed := same.wellFormed listed.wellFormed
  ordered := ordered
  blank := same.blank.trans listed.blank
  value?_eq := values
  mem_iff x := same.mem_iff.trans (listed.mem_iff x)
  nodup := listed.nodup

end

variable [Preorder α] [Std.Total fun a b : α => a ≤ b] [DecidableLT α]
variable {h : IndexedHeap α} {r : Roster α}

omit [DecidableLT α] in
theorem Comparable.of_total (among : α → Prop) : Comparable among where
  asymm _ _ _ _ less := lt_asymm less
  between a b c _ _ _ less := by
    by_cases back : b ≤ a
    · exact .inr (back.trans_lt less)
    · have le : a ≤ b := (total_of (fun a b : α => a ≤ b) a b).resolve_right back
      exact .inl (lt_of_le_not_ge le back)

omit [DecidableLT α] in
theorem WellFormed.sortable (wellFormed : h.WellFormed) : h.Sortable :=
  ⟨wellFormed, .of_total h.ActiveValue⟩

namespace Matches

theorem modify (listed : h.Matches r) (x : Nat) (f : α → α) :
    ((h.modifyValue x f).settle x).Matches (r.modify x f) := by
  have same := (h.modifyValue_reordered x f).trans ((h.modifyValue x f).settle_reordered x)
  have changed := (h.modifyValue_reordered x f).wellFormed listed.wellFormed
  refine listed.revalued same ?_ fun y => ?_
  · refine listed.wellFormed.sortable.settle_of_values changed.sortable listed.ordered rfl
      fun y other => ?_
    exact (h.value?_modifyValue x y f).trans (if_neg other)
  · rw [← listed.value?_eq, ← value?_modifyValue]
    exact congrArg (·[y]?) (values_settle ..)

theorem settle (listed : h.Matches r) (x : Nat) : (h.settle x).Matches r :=
  listed.revalued (h.settle_reordered x)
    (listed.wellFormed.sortable.settle_of_values listed.wellFormed.sortable listed.ordered rfl
      fun _ _ => rfl)
    fun y => by rw [← listed.value?_eq, value?, value?, values_settle]

theorem heapify (listed : h.Matches r) : h.heapify.Matches r :=
  listed.revalued h.heapify_reordered listed.wellFormed.sortable.heapify_ordered
    fun y => by rw [← listed.value?_eq, value?, value?, values_heapify]

theorem mapValues (listed : h.Matches r) (f : α → α) :
    (h.mapValues f).heapify.Matches { r with value? := fun y => (r.value? y).map f } := by
  have mapped := (h.mapValues_reordered f).wellFormed listed.wellFormed
  refine listed.revalued ((h.mapValues_reordered f).trans (heapify_reordered _))
    mapped.sortable.heapify_ordered fun y => ?_
  rw [← listed.value?_eq, value?, values_heapify, IndexedHeap.mapValues, Array.getElem?_map]
  rfl

theorem add (listed : h.Matches r) (x : Nat) (value : α) :
    (h.add x value).2.Matches (r.add x value) := by
  have present := listed.isSome_iff
  by_cases known : x < h.values.size
  · have written : r.add x value = r.modify x fun _ => value := by
      unfold Roster.add Roster.modify
      congr 1
      funext y
      obtain ⟨old, found⟩ := Option.isSome_iff_exists.1 ((present x).2 known)
      by_cases same : y = x
      · simp [same, found]
      · by_cases below : y < x
        · obtain ⟨old, found⟩ := Option.isSome_iff_exists.1 ((present y).2 (below.trans known))
          simp [same, below, found]
        · simp [same, below]
    rw [written]
    simp only [IndexedHeap.add, if_pos known, setValue_eq]
    exact listed.modify x _
  · obtain ⟨wellFormed, mem, -⟩ := add_spec listed.wellFormed x value
    refine ⟨wellFormed, ?_, ?_, fun y => ?_, fun y => (mem y).trans (listed.mem_iff y),
      listed.nodup⟩
    · exact listed.wellFormed.sortable.add_ordered listed.ordered (.of_total _)
    · simp only [IndexedHeap.add, if_neg known]
      exact listed.blank
    · have value?_eq := listed.value?_eq y
      have blank := listed.blank
      simp only [IndexedHeap.add, if_neg known, Roster.add, value?, ← listed.value?_eq]
        at value?_eq ⊢
      grind

theorem activate (listed : h.Matches r) (x : Nat) :
    (h.activate x).2.Matches (r.activate x) := by
  have ordered := listed.wellFormed.sortable.activate_ordered listed.ordered
    (.of_total (h.activate x).2.ActiveValue)
  unfold Roster.activate
  by_cases known : x < h.values.size
  · obtain ⟨wellFormed, mem, -⟩ := activate_spec listed.wellFormed known
    rw [if_pos ((listed.isSome_iff x).2 known)]
    refine ⟨wellFormed, ordered, (h.blank_activate x).trans listed.blank, fun y => ?_, fun y => ?_,
      listed.nodup.insert⟩
    · rw [← listed.value?_eq, value?, value?, values_activate]
    · rw [mem, listed.mem_iff, List.mem_insert_iff]
  · rw [if_neg (mt (listed.isSome_iff x).1 known),
      activate_of_le listed.wellFormed (Nat.le_of_not_lt known)]
    exact listed

theorem remove (listed : h.Matches r) (x : Nat) : (h.remove x).2.Matches (r.remove x) := by
  have ordered := listed.wellFormed.sortable.remove_ordered listed.ordered x
  unfold Roster.remove
  by_cases active : x ∈ h.order
  · obtain ⟨wellFormed, mem, -, -⟩ := remove_spec listed.wellFormed active
    refine ⟨wellFormed, ordered, (h.blank_remove x).trans listed.blank, fun y => ?_, fun y => ?_,
      listed.nodup.erase x⟩
    · rw [← listed.value?_eq, value?, value?, values_remove]
    · rw [mem, listed.mem_iff, listed.nodup.mem_erase_iff, and_comm]
  · rw [remove_of_not_mem listed.wellFormed active,
      List.erase_of_not_mem (mt (listed.mem_iff x).2 active)]
    exact listed

end Matches

variable [DecidableLE α]

namespace Matches

theorem outranks (listed : h.Matches r) {x y : Nat} (sooner : h.precedes x y = true) :
    r.outranks x y = true := by
  unfold precedes at sooner
  split at sooner
  · rename_i a b first second
    rw [Roster.outranks_eq ((listed.value?_eq x).symm.trans first)
      ((listed.value?_eq y).symm.trans second)]
    simp only [Bool.and_eq_true, decide_eq_true_eq, Bool.or_eq_true, Bool.not_eq_true',
      decide_eq_false_iff_not] at sooner
    rcases sooner with greater | ⟨tied, lower⟩
    · exact ⟨le_of_lt greater, .inl (not_le_of_gt greater)⟩
    · have le : b ≤ a := by
        by_contra above
        exact tied (lt_of_le_not_ge
          ((total_of (fun a b : α => a ≤ b) a b).resolve_right above) above)
      exact ⟨le, .inr lower⟩
  · cases sooner

theorem isBest_max? (listed : h.Matches r) {x : Nat} (top : h.max? = some x) : r.IsBest x := by
  refine ⟨(listed.mem_iff x).1 (Array.mem_of_getElem? top), fun y active other => ?_⟩
  exact listed.outranks (listed.wellFormed.sortable.max?_precedes listed.ordered top
    ((listed.mem_iff y).2 active) (Ne.symm other))

theorem max?_eq (listed : h.Matches r) : h.max? = r.best? := by
  cases top : h.max? with
  | none =>
    have empty := listed.max?_eq_none_iff.1 top
    simp [Roster.best?, empty]
  | some x => exact (Roster.best?_eq_some (listed.isBest_max? top)).symm

theorem popMax (listed : h.Matches r) : h.popMax.2.Matches (r.perform .popMax) := by
  simp only [Roster.perform, ← listed.max?_eq]
  unfold IndexedHeap.popMax
  cases h.max? with
  | none => exact listed
  | some x => exact listed.remove x

theorem perform (listed : h.Matches r) (call : HeapCall α) :
    (h.perform call).Matches (r.perform call) := by
  cases call with
  | add x value => exact listed.add x value
  | activate x => exact listed.activate x
  | remove x => exact listed.remove x
  | popMax => exact listed.popMax
  | heapify => exact listed.heapify
  | settle x => exact listed.settle x
  | setValue x value =>
    rw [IndexedHeap.perform, setValue_eq]
    exact listed.modify x _
  | modifyValue x f => exact listed.modify x f
  | mapValues f => exact listed.mapValues f

theorem performAll (listed : h.Matches r) (calls : List (HeapCall α)) :
    (h.performAll calls).Matches (r.performAll calls) := by
  induction calls generalizing h r with
  | nil => exact listed
  | cons call rest ih => exact ih (listed.perform call)

theorem drains (listed : h.Matches r) :
    ∃ ranked, r.Ranks ranked ∧ ∀ count, h.pops count = (List.range count).map (ranked[·]?) := by
  obtain ⟨ranked, inOrder⟩ := listed.wellFormed.sortable.exists_inOrder listed.ordered
  have ranks : r.Ranks ranked := {
    nodup := inOrder.nodup
    mem_iff := fun x => (inOrder.mem_iff x).trans (listed.mem_iff x)
    pairwise := inOrder.pairwise.imp listed.outranks }
  exact ⟨ranked, ranks, inOrder.pops listed.wellFormed.sortable listed.ordered⟩

end Matches

/-- A heap answers as a roster does: with the last values, the active indices and the best of them,
over and over until none is left. -/
structure Serves (h : IndexedHeap α) (r : Roster α) : Prop where
  inverse : ∀ i x, h.order[i]? = some x ↔ h.position? x = some i
  value?_eq : ∀ x, h.value? x = r.value? x
  isActive_iff : ∀ x, h.isActive x = true ↔ x ∈ r.active
  max?_iff : ∀ x, h.max? = some x ↔ r.IsBest x
  max?_eq_none_iff : h.max? = none ↔ r.active = []
  popMax_eq : h.popMax.1 = h.max?
  drains : ∃ ranked, r.Ranks ranked ∧ ∀ count, h.pops count = (List.range count).map (ranked[·]?)

theorem performAll_serves (blank : α) (calls : List (HeapCall α)) :
    (performAll { blank } calls).Serves (Roster.performAll { blank } calls) := by
  have listed := (Matches.new blank).performAll calls
  refine {
    inverse := fun i x => by rw [position?_eq_some, listed.wellFormed.placed]
    value?_eq := listed.value?_eq
    isActive_iff := fun x => ?_
    max?_iff := fun x => ⟨listed.isBest_max?, fun best => ?_⟩
    max?_eq_none_iff := listed.max?_eq_none_iff
    popMax_eq := ?_
    drains := listed.drains }
  · rw [isActive, Option.isSome_iff_ne_none, ne_eq, listed.wellFormed.position?_eq_none, not_not,
      listed.mem_iff]
  · rw [listed.max?_eq, Roster.best?_eq_some best]
  · unfold popMax
    split <;> rename_i top <;> rw [top]

def tiedCalls : List (HeapCall Nat) :=
  [.add 4 10, .activate 4, .add 0 70, .activate 0, .activate 2, .setValue 2 80, .popMax,
    .mapValues (· / 100), .activate 2, .activate 4]

theorem performAll_tiedCalls :
    (Std.Total fun a b : Nat => a ≤ b) ∧
      (performAll { blank := 0 } tiedCalls).Serves (Roster.performAll { blank := 0 } tiedCalls) ∧
      (Roster.performAll { blank := 0 } tiedCalls).active = [2, 0, 4] ∧
      (performAll { blank := 0 } tiedCalls).pops 4 = [some 0, some 2, some 4, none] :=
  ⟨inferInstance, performAll_serves 0 tiedCalls, by decide +kernel, by decide +kernel⟩

end IndexedHeap

end ClauseLearning
