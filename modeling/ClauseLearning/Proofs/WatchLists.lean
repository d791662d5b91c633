import ClauseLearning.WatchLists
import ClauseLearning.Proofs.IndexedHeap
import Mathlib.Data.List.Sort

namespace ClauseLearning

theorem Literal.code_injective {l m : Int} (same : Literal.code l = Literal.code m) : l = m := by
  simp only [Literal.code, Literal.polarity] at same
  by_cases first : 0 < l <;> by_cases second : 0 < m <;> simp [first, second] at same <;> omega

namespace WatchLists

theorem watchers_eq (w : WatchLists) (l : Literal) :
    w.watchers l = (w.lists[l.code]?).getD #[] := by
  simp [watchers]

@[simp] theorem watchers_grow (w : WatchLists) (a : Atom) (l : Literal) :
    (w.grow a).watchers l = w.watchers l := by
  simp only [watchers_eq, grow]
  split
  · rfl
  · rw [Array.getElem?_append]
    split
    · rfl
    · rename_i outside
      rw [Array.getElem?_eq_none (Nat.not_lt.1 outside), Array.getElem?_replicate]
      split <;> rfl

theorem le_size_grow (w : WatchLists) (a : Nat) : 2 * (a + 1) ≤ (w.grow a).lists.size := by
  unfold grow
  simp only
  split
  · rename_i full
    change 2 * (a + 1) - w.lists.size = 0 at full
    omega
  · simp only [Array.size_append, Array.size_replicate]
    omega

theorem code_lt_size_grow (w : WatchLists) (l : Literal) : l.code < (w.grow l.atom).lists.size := by
  have parity : l.polarity.toNat ≤ 1 := Bool.toNat_le _
  have room := le_size_grow w l.natAbs
  simp only [Literal.code, Literal.atom]
  omega

theorem watchers_modify (w : WatchLists) (l m : Literal) (f : Array ClauseKey → Array ClauseKey)
    (room : l.code < w.lists.size) : (WatchLists.mk (w.lists.modify l.code f)).watchers m =
      if m = l then f (w.watchers l) else w.watchers m := by
  simp only [watchers_eq, Array.getElem?_modify]
  by_cases same : m = l
  · subst same
    rw [if_pos rfl, if_pos rfl, Array.getElem?_eq_getElem room]
    rfl
  · rw [if_neg same, if_neg fun code => same (Literal.code_injective code.symm)]

theorem watchers_watch (w : WatchLists) (l m : Literal) (key : ClauseKey) :
    (w.watch l key).watchers m = if m = l then (w.watchers l).push key else w.watchers m := by
  simp only [watch, watchers_modify _ _ _ _ (code_lt_size_grow w l), watchers_grow]

theorem watchers_restore (w : WatchLists) (l m : Literal) (list : Array ClauseKey) :
    (w.restore l list).watchers m = if m = l then list ++ w.watchers l else w.watchers m := by
  simp only [restore, watchers_modify _ _ _ _ (code_lt_size_grow w l), watchers_grow]

theorem watchers_take (w : WatchLists) (l m : Literal) :
    (w.take l).2.watchers m = if m = l then #[] else w.watchers m := by
  simp only [take, watchers_eq, Array.getElem?_setIfInBounds]
  by_cases same : m = l
  · subst same
    rw [if_pos rfl, if_pos rfl]
    split <;> rfl
  · rw [if_neg same, if_neg fun code => same (Literal.code_injective code.symm)]

theorem removeAt_perm {list : Array ClauseKey} {i : Nat} (inside : i < list.size) :
    (list[i] :: (removeAt list i).toList).Perm list.toList := by
  have last : list.size - 1 < list.size := by omega
  have swapped : list.swapIfInBounds i (list.size - 1) = list.swap i (list.size - 1) := by
    simp [Array.swapIfInBounds, inside, last]
  have nonempty : (list.swap i (list.size - 1)).size ≠ 0 := by
    rw [Array.size_swap]
    omega
  have back : (list.swap i (list.size - 1)).back! = list[i] := by
    simp [Array.back!, last]
  have ends := congrArg Array.toList (Array.eq_push_pop_back!_of_size_ne_zero nonempty)
  rw [back, Array.toList_push] at ends
  rw [removeAt, swapped]
  exact ((List.perm_append_singleton _ _).symm.trans (.of_eq ends.symm)).trans
    (Array.swap_perm _ _).toList

theorem take_swap_perm {list : Array ClauseKey} {i n : Nat} {key : ClauseKey}
    (found : list[i]? = some key) (inside : i < n) (le : n ≤ list.size) :
    (key :: (list.swapIfInBounds i (n - 1)).toList.take (n - 1)).Perm (list.toList.take n) := by
  have size : (list.take n).size = n := by simpa using le
  have taken (k : Nat) (below : k < n) : (list.take n)[k]? = list[k]? := by
    rw [Array.take_eq_extract, Array.getElem?_extract, if_pos (by omega), Nat.zero_add]
  have first : (list.take n)[i]? = some key := (taken i inside).trans found
  obtain ⟨last, atLast⟩ : ∃ last, list[n - 1]? = some last :=
    ⟨_, Array.getElem?_eq_getElem (by omega)⟩
  have second : (list.take n)[n - 1]? = some last := (taken (n - 1) (by omega)).trans atLast
  have removed := @removeAt_perm (list.take n) i (by omega)
  have same : (removeAt (list.take n) i).toList =
      (list.swapIfInBounds i (n - 1)).toList.take (n - 1) := by
    refine List.ext_getElem? fun k => ?_
    rw [removeAt, size, Array.getElem?_toList, Array.getElem?_pop, List.getElem?_take,
      Array.getElem?_toList, getElem?_swapIfInBounds first second,
      getElem?_swapIfInBounds found atLast, Array.size_swapIfInBounds, size]
    grind
  rw [same, (Array.getElem?_eq_some_iff.1 first).2] at removed
  simpa using removed

theorem unwatch_of_mem {w : WatchLists} {l : Literal} {key : ClauseKey}
    (member : key ∈ w.watchers l) : ∃ w', w.unwatch l key = (.ok (), w') ∧
      (key :: (w'.watchers l).toList).Perm (w.watchers l).toList ∧
      ∀ m, m ≠ l → w'.watchers m = w.watchers m := by
  cases found : w.lists[l.code]? with
  | none => simp [watchers_eq, found] at member
  | some list =>
    have watchers : w.watchers l = list := by simp [watchers_eq, found]
    rw [watchers] at member ⊢
    cases position : list.idxOf? key with
    | none => exact absurd member (by simpa [Array.idxOf?_eq_none_iff] using position)
    | some place =>
      obtain ⟨room, rfl⟩ := Array.getElem?_eq_some_iff.1 found
      rw [Array.idxOf?_eq_map_finIdxOf?_val, Option.map_eq_some_iff] at position
      obtain ⟨⟨i, inside⟩, position, rfl⟩ := position
      have at_i : w.lists[l.code][i] = key := (Array.finIdxOf?_eq_some_iff.1 position).1
      refine ⟨⟨w.lists.modify l.code (removeAt · i)⟩, ?_, ?_, ?_⟩
      · simp only [unwatch, found, Array.idxOf?_eq_map_finIdxOf?_val, position, Option.map_some]
      · rw [watchers_modify _ _ _ _ room, if_pos rfl, watchers, ← at_i]
        exact removeAt_perm inside
      · intro m other
        rw [watchers_modify _ _ _ _ room, if_neg other]

variable {w w' w'' : WatchLists} {l : Literal} {literals others : List Literal} {key : ClauseKey}

/-- `w'` are the lists of `w` with the key taken off the list of each of the literals. -/
structure Without (w w' : WatchLists) (literals : List Literal) (key : ClauseKey) : Prop where
  perm : ∀ l, (List.replicate (literals.count l) key ++ (w'.watchers l).toList).Perm
    (w.watchers l).toList
  same : ∀ l ∉ literals, w'.watchers l = w.watchers l

def Holds (w : WatchLists) (literals : List Literal) (key : ClauseKey) : Prop :=
  ∀ l, literals.count l ≤ (w.watchers l).toList.count key

namespace Without

theorem trans (first : w.Without w' literals key) (second : w'.Without w'' others key) :
    w.Without w'' (literals ++ others) key where
  perm l := by
    have moved := (second.perm l).append_left (List.replicate (literals.count l) key)
    rw [← List.append_assoc, List.replicate_append_replicate, ← List.count_append] at moved
    exact moved.trans (first.perm l)
  same l absent := by
    rw [List.mem_append, not_or] at absent
    exact (second.same l absent.2).trans (first.same l absent.1)

theorem count_eq (without : w.Without w' literals key) (l : Literal) :
    (w.watchers l).toList.count key = literals.count l + (w'.watchers l).toList.count key := by
  rw [← (without.perm l).count_eq, List.count_append, List.count_replicate_self]

theorem count_other (without : w.Without w' literals key) {other : ClauseKey} (apart : other ≠ key)
    (l : Literal) :
    (w'.watchers l).toList.count other = (w.watchers l).toList.count other := by
  rw [← (without.perm l).count_eq, List.count_append, List.count_replicate]
  simp [Ne.symm apart]

theorem holds (without : w.Without w' literals key) : w.Holds literals key := by
  intro l
  rw [without.count_eq]
  exact Nat.le_add_right _ _

end Without

theorem unwatch_without (member : key ∈ w.watchers l) :
    ∃ w', w.unwatch l key = (.ok (), w') ∧ w.Without w' [l] key := by
  obtain ⟨w', unwatched, perm, same⟩ := unwatch_of_mem member
  refine ⟨w', unwatched, fun m => ?_, fun m absent => same m (by simpa using absent)⟩
  by_cases at_l : m = l
  · subst at_l
    simpa using perm
  · rw [same m at_l, List.count_eq_zero.2 (by simpa using at_l)]
    exact .refl _

theorem unwatch_of_not_mem (absent : key ∉ w.watchers l) :
    ∃ failure, w.unwatch l key = (.error failure, w) ∧
      failure.text = "ClauseDB(MissingWatch)" := by
  unfold unwatch
  split
  · exact ⟨_, rfl, rfl⟩
  · rename_i list found
    have watchers : w.watchers l = list := by simp [watchers_eq, found]
    rw [watchers] at absent
    rw [Array.idxOf?_eq_none_iff.2 absent]
    exact ⟨_, rfl, rfl⟩

end WatchLists

end ClauseLearning
