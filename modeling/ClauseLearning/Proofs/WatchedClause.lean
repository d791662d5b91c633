import ClauseLearning.WatchedClause
import Mathlib.Data.List.Sort

namespace ClauseLearning

def Literal.Below (bound : Nat) (l : Literal) : Prop := l ≠ 0 ∧ l.natAbs < bound

theorem Literal.Below.mono {bound larger : Nat} (le : bound ≤ larger) {l : Literal}
    (below : Below bound l) : Below larger l :=
  ⟨below.1, below.2.trans_le le⟩

theorem swapIfInBounds_perm (xs : Array Literal) (i j : Nat) :
    (xs.swapIfInBounds i j).toList.Perm xs.toList := by
  unfold Array.swapIfInBounds
  split
  · split
    · exact (Array.swap_perm _ _).toList
    · exact .refl _
  · exact .refl _

namespace WatchedClause

/-- A clause of at least two proper literals with distinct atoms, whose pointer is behind the
front. -/
structure WellFormed (proper : Literal → Prop) (c : WatchedClause) : Prop where
  two_le : 2 ≤ c.literals.size
  pointer_pos : 1 ≤ c.pointer
  pointer_lt : c.pointer < c.literals.size
  distinct : (c.clause.map Int.natAbs).Nodup
  known : ∀ l ∈ c.clause, proper l

def Watches (c : WatchedClause) (l : Literal) : Prop := c.first = l ∨ c.second = l

instance (c : WatchedClause) (l : Literal) : Decidable (c.Watches l) :=
  inferInstanceAs (Decidable (c.first = l ∨ c.second = l))

theorem Watches.not_stray {c : WatchedClause} {l : Literal} (watches : c.Watches l) :
    ¬(c.first ≠ l ∧ c.second ≠ l) := fun stray => watches.elim stray.1 stray.2

theorem getElem?_literalAt {c : WatchedClause} {i : Nat} (inside : i < c.literals.size) :
    c.literals[i]? = some (c.literalAt i) := by
  simp [literalAt, Array.getD, inside]

theorem literalAt_mem {c : WatchedClause} {i : Nat} (inside : i < c.literals.size) :
    c.literalAt i ∈ c.clause := by
  simpa [clause] using Array.mem_of_getElem? (getElem?_literalAt inside)

theorem mem_clause_iff {c : WatchedClause} {l : Literal} :
    l ∈ c.clause ↔ ∃ i < c.literals.size, c.literalAt i = l := by
  constructor
  · intro member
    obtain ⟨i, found⟩ := Array.getElem?_of_mem (show l ∈ c.literals by simpa [clause] using member)
    have inside := (Array.getElem?_eq_some_iff.1 found).1
    exact ⟨i, inside, Option.some.inj ((getElem?_literalAt inside).symm.trans found)⟩
  · rintro ⟨i, inside, rfl⟩
    exact literalAt_mem inside

namespace WellFormed

variable {proper : Literal → Prop} {c : WatchedClause}

theorem index_eq (wellFormed : c.WellFormed proper) {i j : Nat} (first : i < c.literals.size)
    (second : j < c.literals.size) (same : (c.literalAt i).natAbs = (c.literalAt j).natAbs) :
    i = j := by
  have distinct := List.pairwise_iff_getElem.1 wellFormed.distinct
  rcases Nat.lt_trichotomy i j with less | equal | greater
  · refine absurd ?_ (distinct i j (by simpa [clause]) (by simpa [clause]) less)
    simpa [clause, literalAt, Array.getD, first, second] using same
  · exact equal
  · refine absurd ?_ (distinct j i (by simpa [clause]) (by simpa [clause]) greater)
    simpa [clause, literalAt, Array.getD, first, second] using same.symm

theorem first_mem (wellFormed : c.WellFormed proper) : c.first ∈ c.clause :=
  literalAt_mem (by have := wellFormed.two_le; omega)

theorem clause_eq (wellFormed : c.WellFormed proper) : c.clause = c.first :: c.clause.tail := by
  have inside : 0 < c.literals.size := by have := wellFormed.two_le; omega
  have found := getElem?_literalAt inside
  rw [← Array.getElem?_toList] at found
  change c.clause[0]? = some c.first at found
  cases shape : c.clause with
  | nil => simp [shape] at found
  | cons l rest =>
    rw [shape] at found
    rw [← Option.some.inj found]
    rfl

theorem second_mem (wellFormed : c.WellFormed proper) : c.second ∈ c.clause :=
  literalAt_mem wellFormed.pointer_lt

theorem watches_mem (wellFormed : c.WellFormed proper) {l : Literal} (watches : c.Watches l) :
    l ∈ c.clause := by
  rcases watches with rfl | rfl
  · exact wellFormed.first_mem
  · exact wellFormed.second_mem

theorem first_atom_ne_second (wellFormed : c.WellFormed proper) :
    c.first.natAbs ≠ c.second.natAbs := by
  intro same
  have two_le := wellFormed.two_le
  have := wellFormed.index_eq (by omega) wellFormed.pointer_lt same
  have := wellFormed.pointer_pos
  omega

theorem first_ne_second (wellFormed : c.WellFormed proper) : c.first ≠ c.second :=
  fun same => wellFormed.first_atom_ne_second (congrArg Int.natAbs same)

theorem eq_of_atom (wellFormed : c.WellFormed proper) {l m : Literal} (first : l ∈ c.clause)
    (second : m ∈ c.clause) (same : l.natAbs = m.natAbs) : l = m := by
  obtain ⟨i, inside, rfl⟩ := mem_clause_iff.1 first
  obtain ⟨j, within, rfl⟩ := mem_clause_iff.1 second
  rw [wellFormed.index_eq inside within same]

theorem mono (wellFormed : c.WellFormed proper) {wider : Literal → Prop}
    (included : ∀ l, proper l → wider l) : c.WellFormed wider where
  two_le := wellFormed.two_le
  pointer_pos := wellFormed.pointer_pos
  pointer_lt := wellFormed.pointer_lt
  distinct := wellFormed.distinct
  known l member := included l (wellFormed.known l member)

theorem of_perm (wellFormed : c.WellFormed proper) {c' : WatchedClause}
    (perm : c'.clause.Perm c.clause) (pointer_pos : 1 ≤ c'.pointer)
    (pointer_lt : c'.pointer < c.literals.size) : c'.WellFormed proper := by
  have size : c'.literals.size = c.literals.size := by simpa [clause] using perm.length_eq
  exact {
    two_le := size ▸ wellFormed.two_le
    pointer_pos
    pointer_lt := size ▸ pointer_lt
    distinct := (perm.map _).nodup_iff.2 wellFormed.distinct
    known := fun l member => wellFormed.known l (perm.mem_iff.1 member) }

end WellFormed

section Candidates

variable {value : Atom → Option Bool} {literals : Array Literal} {i stop k : Nat}

theorem candidate?_some (found : candidate? value literals i stop = some k) :
    i ≤ k ∧ k < stop ∧ ∃ l, literals[k]? = some l ∧ l.value value ≠ some false := by
  fun_induction candidate? value literals i stop with
  | case1 => simp at found
  | case2 i inside l located isFalse ih =>
    obtain ⟨le, lt, rest⟩ := ih found
    exact ⟨by omega, lt, rest⟩
  | case3 i inside l located other =>
    obtain rfl := Option.some.inj found
    exact ⟨Nat.le_refl _, inside, l, located, other⟩
  | case4 => simp at found

theorem candidate?_none (absent : candidate? value literals i stop = none) (le : i ≤ k)
    (lt : k < stop) {l : Literal} (located : literals[k]? = some l) :
    l.value value = some false := by
  fun_induction candidate? value literals i stop with
  | case1 i inside outside =>
    have := Array.getElem?_eq_none_iff.1 outside
    have := (Array.getElem?_eq_some_iff.1 located).1
    omega
  | case2 i inside m found isFalse ih =>
    rcases Nat.eq_or_lt_of_le le with rfl | later
    · rw [found] at located
      rw [← Option.some.inj located, isFalse]
    · exact ih absent later
  | case3 => simp at absent
  | case4 i outside => omega

variable {c : WatchedClause}

theorem replacement?_some (found : c.replacement? value = some k) (pointer_pos : 1 ≤ c.pointer)
    (pointer_lt : c.pointer < c.literals.size) : 1 ≤ k ∧ k < c.literals.size ∧ k ≠ c.pointer ∧
      (c.literalAt k).value value ≠ some false := by
  have located {l : Literal} (found : c.literals[k]? = some l) : c.literalAt k = l :=
    Option.some.inj
      ((getElem?_literalAt (Array.getElem?_eq_some_iff.1 found).1).symm.trans found)
  unfold replacement? at found
  split at found
  · rename_i j later
    obtain rfl := Option.some.inj found
    obtain ⟨le, lt, l, at_j, open_or_true⟩ := candidate?_some later
    exact ⟨by omega, lt, by omega, located at_j ▸ open_or_true⟩
  · obtain ⟨le, lt, l, at_k, open_or_true⟩ := candidate?_some found
    exact ⟨le, by omega, by omega, located at_k ▸ open_or_true⟩

theorem replacement?_none (absent : c.replacement? value = none) (positive : 1 ≤ k)
    (inside : k < c.literals.size) (other : k ≠ c.pointer) :
    (c.literalAt k).value value = some false := by
  unfold replacement? at absent
  split at absent
  · cases absent
  · rename_i later
    rcases Nat.lt_or_gt_of_ne other with less | greater
    · exact candidate?_none absent positive less (getElem?_literalAt inside)
    · exact candidate?_none later greater inside (getElem?_literalAt inside)

end Candidates

def other (c : WatchedClause) (atom : Atom) : Literal :=
  if c.first.natAbs = atom then c.second else c.first

@[simp] theorem key_turn (c : WatchedClause) (a : Atom) : (c.turn a).key = c.key := by
  unfold turn
  split <;> rfl

@[simp] theorem pointer_turn (c : WatchedClause) (a : Atom) : (c.turn a).pointer = c.pointer := by
  unfold turn
  split <;> rfl

theorem turn_perm (c : WatchedClause) (a : Atom) : (c.turn a).clause.Perm c.clause := by
  unfold turn
  split
  · exact swapIfInBounds_perm ..
  · exact .refl _

theorem literalAt_turn {c : WatchedClause} {a : Atom} {i : Nat} (inside : i < c.literals.size)
    (behind : 1 ≤ i) (other : i ≠ c.pointer) : (c.turn a).literalAt i = c.literalAt i := by
  unfold turn
  split
  · simp only [literalAt, Array.getD, Array.size_swapIfInBounds, inside, dif_pos]
    exact Array.getElem_swapIfInBounds_of_ne_of_ne (by omega) other _
  · rfl

theorem candidate?_congr {value : Atom → Option Bool} {literals literals' : Array Literal}
    {i stop : Nat} (same : ∀ k, i ≤ k → k < stop → literals'[k]? = literals[k]?) :
    candidate? value literals' i stop = candidate? value literals i stop := by
  fun_induction candidate? value literals i stop with
  | case1 i before outside =>
    rw [candidate?, if_pos before, same i (Nat.le_refl i) before, outside]
  | case2 i before l located isFalse ih =>
    rw [candidate?, if_pos before, same i (Nat.le_refl i) before, located]
    simp only [isFalse]
    exact ih fun k after => same k (by omega)
  | case3 i before l located notFalse =>
    rw [candidate?, if_pos before, same i (Nat.le_refl i) before, located]
    simp only
  | case4 i after =>
    rw [candidate?, if_neg after]

theorem replacement?_turn (value : Atom → Option Bool) {c : WatchedClause} (a : Atom)
    (pointer_lt : c.pointer < c.literals.size) :
    (c.turn a).replacement? value = c.replacement? value := by
  have size : (c.turn a).literals.size = c.literals.size := by
    simpa [clause] using (c.turn_perm a).length_eq
  have same (k : Nat) (positive : 1 ≤ k) (inside : k < c.literals.size) (other : k ≠ c.pointer) :
      (c.turn a).literals[k]? = c.literals[k]? := by
    rw [getElem?_literalAt inside, getElem?_literalAt (size ▸ inside),
      literalAt_turn inside positive other]
  unfold replacement?
  rw [pointer_turn, size,
    candidate?_congr fun k later inside => same k (by omega) inside (by omega),
    candidate?_congr fun k positive before => same k positive (by omega) (by omega)]

theorem WellFormed.turn {proper : Literal → Prop} {c : WatchedClause}
    (wellFormed : c.WellFormed proper) (a : Atom) : (c.turn a).WellFormed proper :=
  wellFormed.of_perm (c.turn_perm a) (by simpa using wellFormed.pointer_pos)
    (by simpa using wellFormed.pointer_lt)

theorem WellFormed.turn_watched {proper : Literal → Prop} {c : WatchedClause}
    (wellFormed : c.WellFormed proper) {l : Literal} (watches : c.Watches l) :
    (c.turn l.natAbs).first = c.other l.natAbs ∧ (c.turn l.natAbs).second = l := by
  have two_le := wellFormed.two_le
  have pointer_lt := wellFormed.pointer_lt
  have pointer_pos := wellFormed.pointer_pos
  unfold WatchedClause.turn other
  by_cases inFront : c.first.natAbs = l.natAbs
  · have same : c.first = l :=
      wellFormed.eq_of_atom wellFormed.first_mem (wellFormed.watches_mem watches) inFront
    simp only [if_pos inFront]
    constructor
    · simp [first, second, literalAt, Array.getD, pointer_lt,
        show 0 < c.literals.size by omega, Array.getElem_swapIfInBounds_left]
    · rw [← same]
      simp [first, second, literalAt, Array.getD, pointer_lt,
        show 0 < c.literals.size by omega, Array.getElem_swapIfInBounds_right]
  · simp only [if_neg inFront]
    rcases watches with rfl | rfl
    · exact absurd rfl inFront
    · exact ⟨trivial, rfl⟩

theorem WellFormed.turn_watches {proper : Literal → Prop} {c : WatchedClause}
    (wellFormed : c.WellFormed proper) {l : Literal} (watches : c.Watches l) (m : Literal) :
    (c.turn l.natAbs).Watches m ↔ c.Watches m := by
  obtain ⟨front, back⟩ := wellFormed.turn_watched watches
  unfold Watches
  rw [front, back]
  unfold other
  by_cases inFront : c.first.natAbs = l.natAbs
  · have same : c.first = l :=
      wellFormed.eq_of_atom wellFormed.first_mem (wellFormed.watches_mem watches) inFront
    rw [if_pos inFront, same, or_comm]
  · rw [if_neg inFront]
    rcases watches with rfl | rfl
    · exact absurd rfl inFront
    · rfl

theorem WellFormed.other_mem {proper : Literal → Prop} {c : WatchedClause}
    (wellFormed : c.WellFormed proper) (a : Atom) : c.other a ∈ c.clause := by
  unfold other
  split
  · exact wellFormed.second_mem
  · exact wellFormed.first_mem

theorem ofClause_perm (value : Atom → Option Bool) (key : ClauseKey) (c : Clause) :
    (ofClause value key c).clause.Perm c :=
  swapIfInBounds_perm c.toArray 0 _

theorem ofClause_wellFormed (value : Atom → Option Bool) (key : ClauseKey) {c : Clause}
    {proper : Literal → Prop} (two_le : 2 ≤ c.length) (distinct : (c.map Int.natAbs).Nodup)
    (known : ∀ l ∈ c, proper l) : (ofClause value key c).WellFormed proper := by
  have perm := ofClause_perm value key c
  have size : (ofClause value key c).literals.size = c.length := by
    simpa [clause] using perm.length_eq
  have pointer : 1 ≤ (ofClause value key c).pointer ∧
      (ofClause value key c).pointer < (ofClause value key c).literals.size := by
    simp only [ofClause] at size ⊢
    cases found : candidate? value (c.toArray.swapIfInBounds 0
        ((candidate? value c.toArray 0 c.toArray.size).getD 0)) 1
        (c.toArray.swapIfInBounds 0 ((candidate? value c.toArray 0 c.toArray.size).getD 0)).size with
    | none => simp only [Option.getD_none]; omega
    | some k =>
      obtain ⟨le, lt, -⟩ := candidate?_some found
      exact ⟨le, lt⟩
  exact {
    two_le := size ▸ two_le
    pointer_pos := pointer.1
    pointer_lt := pointer.2
    distinct := (perm.map _).nodup_iff.2 distinct
    known := fun l member => known l (perm.mem_iff.1 member) }

theorem ofClause_asserting {value : Atom → Option Bool} {l m : Literal} {rest : Clause}
    (key : ClauseKey) (asserted : l.value value ≠ some false)
    (others : ∀ n ∈ m :: rest, n.value value = some false) :
    ofClause value key (l :: m :: rest) = ⟨key, (l :: m :: rest).toArray, 1⟩ := by
  have front : candidate? value (l :: m :: rest).toArray 0 (l :: m :: rest).toArray.size =
      some 0 := by
    unfold candidate?
    rw [if_pos (by simp)]
    simp only [List.getElem?_toArray, List.getElem?_cons_zero]
  have back : candidate? value (l :: m :: rest).toArray 1 (l :: m :: rest).toArray.size =
      none := by
    cases found : candidate? value (l :: m :: rest).toArray 1 (l :: m :: rest).toArray.size with
    | none => rfl
    | some k =>
      obtain ⟨le, lt, n, located, notFalse⟩ := candidate?_some found
      refine absurd (others n ?_) notFalse
      obtain ⟨k, rfl⟩ := Nat.exists_eq_add_of_le le
      simp only [List.getElem?_toArray, Nat.add_comm 1 k, List.getElem?_cons_succ] at located
      exact List.mem_of_getElem? located
  have unmoved : (l :: m :: rest).toArray.swapIfInBounds 0 0 = (l :: m :: rest).toArray := by
    simp [Array.swapIfInBounds]
  simp only [ofClause, front, Option.getD_some, unmoved, back, Option.getD_none]

end WatchedClause

end ClauseLearning
