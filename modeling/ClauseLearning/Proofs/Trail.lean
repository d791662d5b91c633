import ClauseLearning.Trail
import Mathlib.Data.List.Sort

namespace ClauseLearning.Trail

def levelAt (t : Trail) (i : Nat) : Nat := t.starts.toList.countP (· ≤ i)

structure WellFormed (t : Trail) : Prop where
  ordered : t.starts.toList.Pairwise (· < ·)
  inside : ∀ start ∈ t.starts, start < t.literals.size
  drawn : ∀ start ∈ t.starts, start ≤ t.head
  head_le : t.head ≤ t.literals.size

/-- What is left of that if a level may be opened at any time, and may stay empty. -/
structure Sorted (t : Trail) : Prop where
  ordered : t.starts.toList.Pairwise (· ≤ ·)
  inside : ∀ start ∈ t.starts, start ≤ t.literals.size
  head_le : t.head ≤ t.literals.size

theorem WellFormed.sorted {t : Trail} (wellFormed : t.WellFormed) : t.Sorted where
  ordered := wellFormed.ordered.imp Nat.le_of_lt
  inside start member := (wellFormed.inside start member).le
  head_le := wellFormed.head_le

theorem lt_countP_iff {starts : List Nat} (ordered : starts.Pairwise (· ≤ ·)) (n i : Nat) :
    n < starts.countP (· ≤ i) ↔ ∃ start, starts[n]? = some start ∧ start ≤ i := by
  induction starts generalizing n with
  | nil => simp
  | cons first rest ih =>
    obtain ⟨above, ordered⟩ := List.pairwise_cons.1 ordered
    by_cases inside : first ≤ i
    · rw [List.countP_cons_of_pos (by simpa using inside)]
      cases n with
      | zero => simpa using inside
      | succ n => rw [List.getElem?_cons_succ, ← ih ordered]; omega
    · have none : rest.countP (· ≤ i) = 0 := by
        refine List.countP_eq_zero.2 fun start member => ?_
        have := above start member
        simp only [decide_eq_true_eq]
        omega
      rw [List.countP_cons_of_neg (by simpa using inside), none]
      simp only [Nat.not_lt_zero, false_iff]
      rintro ⟨start, found, le⟩
      rcases List.mem_cons.1 (List.mem_of_getElem? found) with rfl | member
      · exact inside le
      · exact inside ((above start member).trans le)

theorem hasDecision_iff {t : Trail} : t.hasDecision = true ↔ 0 < t.level := by
  simp [hasDecision, level, Array.size_pos_iff]

theorem levelAt_le_level (t : Trail) (i : Nat) : t.levelAt i ≤ t.level := by
  unfold levelAt level
  rw [← Array.length_toList]
  exact List.countP_le_length

theorem levelAt_mono (t : Trail) {i j : Nat} (le : i ≤ j) : t.levelAt i ≤ t.levelAt j := by
  refine List.countP_mono_left fun start _ inside => ?_
  simp only [decide_eq_true_eq] at inside ⊢
  exact inside.trans le

theorem levelAt_eq_level {t : Trail} {i : Nat} (drawn : ∀ start ∈ t.starts, start ≤ i) :
    t.levelAt i = t.level := by
  unfold levelAt level
  rw [← Array.length_toList]
  refine List.countP_eq_length.2 fun start member => ?_
  simpa using drawn start (by simpa using member)

theorem Sorted.lt_levelAt_iff {t : Trail} (sorted : t.Sorted) (n i : Nat) :
    n < t.levelAt i ↔ ∃ start, t.starts[n]? = some start ∧ start ≤ i := by
  rw [levelAt, lt_countP_iff sorted.ordered]
  simp

theorem Sorted.levelAt_le_iff {t : Trail} (sorted : t.Sorted) {n start : Nat}
    (found : t.startAbove? n = some start) (i : Nat) : t.levelAt i ≤ n ↔ i < start := by
  have above := sorted.lt_levelAt_iff n i
  simp only [startAbove?] at found
  simp only [found, Option.some.injEq, exists_eq_left'] at above
  omega

@[simp] theorem levelAt_push (t : Trail) (l : Literal) (i : Nat) :
    (t.push l).levelAt i = t.levelAt i := rfl

theorem level_decide (t : Trail) (l : Literal) : (t.pushLevel.push l).level = t.level + 1 := by
  simp [level, push, pushLevel]

theorem levelAt_pushLevel (t : Trail) (i : Nat) :
    t.pushLevel.levelAt i = t.levelAt i + if t.literals.size ≤ i then 1 else 0 := by
  simp [levelAt, pushLevel, List.countP_cons]

theorem getElem?_cut {t : Trail} (sorted : t.Sorted) (n i : Nat) :
    (t.cut n).literals[i]? = if t.levelAt i ≤ n then t.literals[i]? else none := by
  unfold cut
  cases found : t.startAbove? n with
  | none =>
    have le := t.levelAt_le_level i
    simp only [startAbove?, Array.getElem?_eq_none_iff] at found
    rw [if_pos (le.trans found)]
  | some start =>
    simp only [sorted.levelAt_le_iff found i, Array.shrink_eq_take, Array.take_eq_extract,
      Array.getElem?_extract]
    rcases Nat.lt_or_ge i t.literals.size with present | absent
    · by_cases kept : i < start
      · rw [if_pos (by omega), if_pos kept, Nat.zero_add]
      · rw [if_neg (by omega), if_neg kept]
    · rw [if_neg (by omega), Array.getElem?_eq_none absent, ite_self]

theorem levelAt_cut {t : Trail} (sorted : t.Sorted) {n i : Nat} (le : t.levelAt i ≤ n) :
    (t.cut n).levelAt i = t.levelAt i := by
  unfold cut
  cases found : t.startAbove? n with
  | none => rfl
  | some start =>
    have split := List.take_append_drop n t.starts.toList
    have none : (t.starts.toList.drop n).countP (· ≤ i) = 0 := by
      refine List.countP_eq_zero.2 fun later member => ?_
      have inside := (sorted.levelAt_le_iff found i).1 le
      obtain ⟨m, located⟩ := List.getElem?_of_mem member
      simp only [List.getElem?_drop, Array.getElem?_toList] at located
      simp only [startAbove?] at found
      have ordered : start ≤ later := by
        rcases Nat.eq_zero_or_pos m with rfl | positive
        · simp_all
        · have ordered := List.pairwise_iff_getElem.1 sorted.ordered
          obtain ⟨first, rfl⟩ := Array.getElem?_eq_some_iff.1 found
          obtain ⟨second, rfl⟩ := Array.getElem?_eq_some_iff.1 located
          exact ordered n (n + m) (by simpa using first) (by simpa using second) (by omega)
      simp only [decide_eq_true_eq]
      omega
    simp only [levelAt, Array.toList_shrink]
    conv_rhs => rw [← split, List.countP_append, none]
    simp

theorem level_cut (t : Trail) (n : Nat) : (t.cut n).level = min n t.level := by
  unfold cut
  cases found : t.startAbove? n with
  | none =>
    simp only [startAbove?, Array.getElem?_eq_none_iff] at found
    simp only [level]
    omega
  | some start => simp [level]

theorem mem_starts_cut {t : Trail} (sorted : t.Sorted) {n i : Nat} (le : t.levelAt i ≤ n) :
    i ∈ (t.cut n).starts ↔ i ∈ t.starts := by
  unfold cut
  cases found : t.startAbove? n with
  | none => rfl
  | some start =>
    simp only [Array.mem_iff_getElem?, Array.shrink_eq_take, Array.take_eq_extract,
      Array.getElem?_extract]
    constructor
    · rintro ⟨m, located⟩
      split at located
      · exact ⟨0 + m, located⟩
      · cases located
    · rintro ⟨m, located⟩
      have below := (sorted.lt_levelAt_iff m i).2 ⟨i, located, Nat.le_refl i⟩
      have inside := (Array.getElem?_eq_some_iff.1 located).1
      refine ⟨m, ?_⟩
      rw [if_pos (by omega), Nat.zero_add, located]

theorem levelAt_lt_of_mem_starts {t : Trail} (sorted : t.Sorted) {i j : Nat}
    (start : i ∈ t.starts) (before : j < i) : t.levelAt j < t.levelAt i := by
  obtain ⟨m, located⟩ := Array.getElem?_of_mem start
  have below := (sorted.lt_levelAt_iff m i).2 ⟨i, located, Nat.le_refl i⟩
  have above : ¬m < t.levelAt j := by
    rw [sorted.lt_levelAt_iff]
    rintro ⟨start, found, le⟩
    rw [located] at found
    obtain rfl := Option.some.inj found
    omega
  omega

theorem WellFormed.levelAt_start {t : Trail} (wellFormed : t.WellFormed) {n i : Nat}
    (start : t.starts[n]? = some i) : t.levelAt i = n + 1 := by
  have above := (wellFormed.sorted.lt_levelAt_iff n i).2 ⟨i, start, Nat.le_refl i⟩
  have below : ¬n + 1 < t.levelAt i := by
    rw [wellFormed.sorted.lt_levelAt_iff]
    rintro ⟨later, found, le⟩
    obtain ⟨first, rfl⟩ := Array.getElem?_eq_some_iff.1 start
    obtain ⟨second, rfl⟩ := Array.getElem?_eq_some_iff.1 found
    have ordered := List.pairwise_iff_getElem.1 wellFormed.ordered n (n + 1) (by simpa using first)
      (by simpa using second) (Nat.lt_succ_self n)
    simp only [Array.getElem_toList] at ordered
    omega
  omega

theorem WellFormed.exists_start {t : Trail} (wellFormed : t.WellFormed) {n : Nat}
    (inside : n < t.level) :
    ∃ (i : Nat) (l : Literal), i ∈ t.starts ∧ t.literals[i]? = some l ∧ t.levelAt i = n + 1 := by
  obtain ⟨i, start⟩ : ∃ i, t.starts[n]? = some i := ⟨_, Array.getElem?_eq_getElem inside⟩
  have member := Array.mem_of_getElem? start
  exact ⟨i, _, member, Array.getElem?_eq_getElem (wellFormed.inside i member),
    wellFormed.levelAt_start start⟩

theorem mem_above {t : Trail} (sorted : t.Sorted) (n : Nat) (l : Literal) :
    l ∈ t.above n ↔ ∃ i, t.literals[i]? = some l ∧ n < t.levelAt i := by
  unfold above
  cases found : t.startAbove? n with
  | none =>
    simp only [startAbove?, Array.getElem?_eq_none_iff] at found
    simp only [List.not_mem_nil, false_iff, not_exists, not_and, not_lt]
    intro i _
    exact (t.levelAt_le_level i).trans found
  | some start =>
    have above (i : Nat) : n < t.levelAt i ↔ start ≤ i := by
      have := sorted.levelAt_le_iff found i
      omega
    simp only [above, Array.mem_toList_iff, Array.mem_iff_getElem?, Array.getElem?_extract]
    constructor
    · rintro ⟨i, located⟩
      split at located
      · exact ⟨start + i, located, by omega⟩
      · cases located
    · rintro ⟨i, located, le⟩
      obtain ⟨inside, -⟩ := Array.getElem?_eq_some_iff.1 located
      refine ⟨i - start, ?_⟩
      rw [if_pos (by omega), Nat.add_sub_cancel' le, located]

theorem Sorted.push {t : Trail} (sorted : t.Sorted) (l : Literal) : (t.push l).Sorted where
  ordered := sorted.ordered
  inside start member := by
    have := sorted.inside start member
    simp only [Trail.push, Array.size_push]
    omega
  head_le := by
    have := sorted.head_le
    simp only [Trail.push, Array.size_push]
    omega

theorem Sorted.advance {t : Trail} (sorted : t.Sorted) (waiting : t.head < t.literals.size) :
    t.advance.Sorted :=
  ⟨sorted.ordered, sorted.inside, waiting⟩

theorem Sorted.pushLevel {t : Trail} (sorted : t.Sorted) : t.pushLevel.Sorted where
  ordered := by
    simp only [Trail.pushLevel, Array.toList_push]
    refine List.pairwise_append.2 ⟨sorted.ordered, List.pairwise_singleton _ _, ?_⟩
    intro start member last equal
    rw [List.mem_singleton.1 equal]
    exact sorted.inside start (by simpa using member)
  inside start member := by
    simp only [Trail.pushLevel, Array.mem_push] at member ⊢
    rcases member with member | rfl
    · exact sorted.inside start member
    · exact Nat.le_refl _
  head_le := sorted.head_le

theorem WellFormed.size_not_mem_starts {t : Trail} (wellFormed : t.WellFormed) :
    t.literals.size ∉ t.starts :=
  fun member => absurd (wellFormed.inside _ member) (Nat.lt_irrefl _)

theorem WellFormed.push {t : Trail} (wellFormed : t.WellFormed) (l : Literal) :
    (t.push l).WellFormed where
  ordered := wellFormed.ordered
  inside start member := by
    have := wellFormed.inside start member
    simp only [Trail.push, Array.size_push]
    omega
  drawn := wellFormed.drawn
  head_le := (wellFormed.sorted.push l).head_le

theorem WellFormed.advance {t : Trail} (wellFormed : t.WellFormed)
    (waiting : t.head < t.literals.size) : t.advance.WellFormed where
  ordered := wellFormed.ordered
  inside := wellFormed.inside
  drawn start member := (wellFormed.drawn start member).trans (Nat.le_succ _)
  head_le := waiting

theorem WellFormed.decide {t : Trail} (wellFormed : t.WellFormed)
    (quiet : t.head = t.literals.size) (l : Literal) : (t.pushLevel.push l).WellFormed where
  ordered := by
    simp only [Trail.push, pushLevel, Array.toList_push]
    refine List.pairwise_append.2 ⟨wellFormed.ordered, List.pairwise_singleton _ _, ?_⟩
    intro start member last equal
    rw [List.mem_singleton.1 equal]
    exact wellFormed.inside start (by simpa using member)
  inside start member := by
    simp only [Trail.push, pushLevel, Array.mem_push, Array.size_push] at member ⊢
    rcases member with member | rfl
    · exact (wellFormed.inside start member).trans (Nat.lt_succ_self _)
    · exact Nat.lt_succ_self _
  drawn start member := by
    simp only [Trail.push, pushLevel, Array.mem_push] at member ⊢
    rcases member with member | rfl
    · exact wellFormed.drawn start member
    · exact quiet.ge
  head_le := by
    simp only [Trail.push, pushLevel, Array.size_push]
    omega

theorem mem_starts_take {t : Trail} {order : Nat → Nat → Prop} {n start : Nat}
    (ordered : t.starts.toList.Pairwise order) (found : t.startAbove? n = some start) :
    ∀ earlier ∈ t.starts.take n, earlier ∈ t.starts ∧ order earlier start := by
  intro earlier member
  obtain ⟨m, located⟩ := Array.getElem?_of_mem member
  simp only [Array.take_eq_extract, Array.getElem?_extract] at located
  split at located
  · simp only [Nat.zero_add] at located
    refine ⟨Array.mem_of_getElem? located, ?_⟩
    simp only [startAbove?] at found
    obtain ⟨first, rfl⟩ := Array.getElem?_eq_some_iff.1 located
    obtain ⟨second, rfl⟩ := Array.getElem?_eq_some_iff.1 found
    exact List.pairwise_iff_getElem.1 ordered m n (by simpa using first) (by simpa using second)
      (by omega)
  · cases located

theorem WellFormed.cut {t : Trail} (wellFormed : t.WellFormed) (n : Nat) :
    (t.cut n).WellFormed := by
  unfold Trail.cut
  cases found : t.startAbove? n with
  | none => exact wellFormed
  | some start =>
    have below := mem_starts_take wellFormed.ordered found
    have bounded : start < t.literals.size :=
      wellFormed.inside start (Array.mem_of_getElem? found)
    simp only [Array.shrink_eq_take]
    have size : (t.literals.take start).size = start := by simp; omega
    constructor
    · simpa using wellFormed.ordered.sublist (List.take_sublist _ _)
    · intro earlier member
      rw [size]
      exact (below earlier member).2
    · intro earlier member
      have := below earlier member
      have := wellFormed.drawn earlier this.1
      simp only [size]
      omega
    · exact Nat.min_le_right _ _

theorem Sorted.cut {t : Trail} (sorted : t.Sorted) (n : Nat) : (t.cut n).Sorted := by
  unfold Trail.cut
  cases found : t.startAbove? n with
  | none => exact sorted
  | some start =>
    have bounded : start ≤ t.literals.size := sorted.inside start (Array.mem_of_getElem? found)
    simp only [Array.shrink_eq_take]
    have size : (t.literals.take start).size = start := by simp; omega
    constructor
    · simpa using sorted.ordered.sublist (List.take_sublist _ _)
    · intro earlier member
      rw [size]
      exact (mem_starts_take sorted.ordered found earlier member).2
    · exact Nat.min_le_right _ _

/-- Each level has a literal before the next one starts, but for some of them. -/
structure Spaced (t : Trail) (n : Nat) : Prop where
  starts : ∀ i start, t.starts[i]? = some start → i ≤ start + n
  level : t.level ≤ t.literals.size + n

namespace Spaced

variable {t : Trail} {n : Nat}

theorem push (spaced : t.Spaced n) (l : Literal) : (t.push l).Spaced n where
  starts := spaced.starts
  level := by
    have before := spaced.level
    simp only [Trail.level, Trail.push, Array.size_push] at before ⊢
    omega

theorem pushLevel (spaced : t.Spaced n) : t.pushLevel.Spaced (n + 1) where
  starts i start found := by
    have before := spaced.level
    simp only [Trail.pushLevel, Array.getElem?_push] at found
    split at found
    · cases found
      rename_i last
      rw [last]
      exact before.trans (Nat.le_succ _)
    · exact (spaced.starts i start found).trans (Nat.le_succ _)
  level := by
    have before := spaced.level
    simp only [Trail.level, Trail.pushLevel, Array.size_push] at before ⊢
    omega

theorem decide (spaced : t.Spaced n) (l : Literal) : (t.pushLevel.push l).Spaced n where
  starts i start found := by
    simp only [Trail.pushLevel, Trail.push, Array.getElem?_push] at found
    split at found
    · cases found
      rename_i last
      rw [last]
      exact spaced.level
    · exact spaced.starts i start found
  level := by
    have before := spaced.level
    simp only [Trail.level, Trail.pushLevel, Trail.push, Array.size_push] at before ⊢
    omega

theorem cut (spaced : t.Spaced n) (sorted : t.Sorted) (m : Nat) : (t.cut m).Spaced n := by
  unfold Trail.cut
  cases found : t.startAbove? m with
  | none => exact spaced
  | some start =>
    have bounded : start ≤ t.literals.size := sorted.inside start (Array.mem_of_getElem? found)
    refine ⟨fun i earlier located => ?_, ?_⟩
    · simp only [Array.shrink_eq_take, Array.take_eq_extract, Array.getElem?_extract] at located
      split at located
      · exact spaced.starts i earlier (by simpa using located)
      · cases located
    · have before := spaced.starts m start found
      simp only [Trail.level, Array.size_shrink]
      omega

end Spaced

theorem head_cut_le (t : Trail) (n : Nat) : (t.cut n).head ≤ t.head := by
  unfold cut
  split
  · exact le_refl _
  · exact Nat.min_le_left _ _

end ClauseLearning.Trail
