import ClauseLearning.Proofs.WatchWalks

namespace ClauseLearning

theorem WatchStatus.ofValue_of_ne {value : Option Bool} (notFalse : value ≠ some false) :
    ofValue value = witness ∧ value = some true ∨ ofValue value = unvalued ∧ value = none := by
  cases value with
  | none => exact .inr ⟨rfl, rfl⟩
  | some b =>
    cases b with
    | true => exact .inl ⟨rfl, rfl⟩
    | false => exact absurd rfl notFalse

namespace WatchedClause

def wrap (size i : Nat) : Nat := if i = size then 1 else i

def behind (size i : Nat) : Nat := wrap size (i + 1)

section Sweep

variable {value : Atom → Option Bool} {literals : Array Literal} {start : Nat}

/-- A sweep which has come to position `i` passes `n` false literals, and ends at one which is not
false or where it started. -/
inductive Sweeps (value : Atom → Option Bool) (literals : Array Literal) (start : Nat) :
    (i n : Nat) → Option Nat → Prop
  | around : Sweeps value literals start start 0 none
  | found {i : Nat} {l : Literal} (ahead : i ≠ start) (located : literals[i]? = some l)
      (notFalse : l.value value ≠ some false) : Sweeps value literals start i 0 (some i)
  | pass {i n : Nat} {l : Literal} {answer : Option Nat} (ahead : i ≠ start)
      (located : literals[i]? = some l) (isFalse : l.value value = some false)
      (rest : Sweeps value literals start (behind literals.size i) n answer) :
      Sweeps value literals start i (n + 1) answer

theorem Sweeps.steps {i n : Nat} {answer : Option Nat}
    (sweeps : Sweeps value literals start i n answer) :
    (∀ k < n, (behind literals.size)^[k] i ≠ start ∧
      ∃ l, literals[(behind literals.size)^[k] i]? = some l ∧ l.value value = some false) ∧
      ∀ j, answer = some j → j = (behind literals.size)^[n] i ∧ j ≠ start ∧
        ∃ l, literals[j]? = some l ∧ l.value value ≠ some false := by
  induction sweeps with
  | around =>
    exact ⟨fun k before => absurd before (Nat.not_lt_zero k), fun j ended => nomatch ended⟩
  | found ahead located notFalse =>
    refine ⟨fun k before => absurd before (Nat.not_lt_zero k), fun j ended => ?_⟩
    cases ended
    exact ⟨rfl, ahead, _, located, notFalse⟩
  | @pass i n l answer ahead located isFalse rest ih =>
    refine ⟨fun k before => ?_, ih.2⟩
    cases k with
    | zero => exact ⟨ahead, l, located, isFalse⟩
    | succ k => exact ih.1 k (Nat.lt_of_succ_lt_succ before)

theorem sweeps_candidate {i stop k : Nat} (found : candidate? value literals i stop = some k)
    (inside : stop ≤ literals.size) (apart : ∀ j, i ≤ j → j < stop → j ≠ start) :
    Sweeps value literals start (wrap literals.size i) (k - i) (some k) := by
  fun_induction candidate? value literals i stop with
  | case1 => cases found
  | case2 i before l located isFalse ih =>
    have le := (candidate?_some found).1
    have rest := ih found fun j after => apart j (by omega)
    rw [wrap, if_neg (by omega), show k - i = k - (i + 1) + 1 by omega]
    exact .pass (apart i (Nat.le_refl i) before) located isFalse rest
  | case3 i before l located notFalse =>
    obtain rfl := Option.some.inj found
    rw [wrap, if_neg (by omega), Nat.sub_self]
    exact .found (apart i (Nat.le_refl i) before) located notFalse
  | case4 => cases found

theorem sweeps_past {i stop n : Nat} {answer : Option Nat}
    (absent : candidate? value literals i stop = none) (le : i ≤ stop)
    (inside : stop ≤ literals.size) (apart : ∀ j, i ≤ j → j < stop → j ≠ start)
    (rest : Sweeps value literals start (wrap literals.size stop) n answer) :
    Sweeps value literals start (wrap literals.size i) (stop - i + n) answer := by
  fun_induction candidate? value literals i stop with
  | case1 i before outside =>
    have := Array.getElem?_eq_none_iff.1 outside
    omega
  | case2 i before l located isFalse ih =>
    have later := ih absent before fun j after => apart j (by omega)
    rw [wrap, if_neg (by omega), show stop - i + n = stop - (i + 1) + n + 1 by omega]
    exact .pass (apart i (Nat.le_refl i) before) located isFalse later
  | case3 => cases absent
  | case4 i outside =>
    obtain rfl : i = stop := by omega
    rwa [Nat.sub_self, Nat.zero_add]

variable {proper : Literal → Prop} {c : WatchedClause}

theorem WellFormed.sweeps (wellFormed : c.WellFormed proper) (value : Atom → Option Bool) :
    ∃ n, Sweeps value c.literals c.pointer (behind c.literals.size c.pointer) n
        (c.replacement? value) ∧
      (c.replacement? value = none → n + 2 = c.literals.size) := by
  have two_le := wellFormed.two_le
  have pointer_pos := wellFormed.pointer_pos
  have pointer_lt := wellFormed.pointer_lt
  have ends : wrap c.literals.size c.literals.size = wrap c.literals.size 1 := by
    rw [wrap, if_pos rfl, wrap, if_neg (by omega)]
  have back : Sweeps value c.literals c.pointer (wrap c.literals.size c.pointer) 0 none := by
    rw [wrap, if_neg (by omega)]
    exact .around
  have later (j : Nat) (after : c.pointer + 1 ≤ j) (_ : j < c.literals.size) : j ≠ c.pointer := by
    omega
  have before (j : Nat) (_ : 1 ≤ j) (less : j < c.pointer) : j ≠ c.pointer := by omega
  -- From the pointer to the end, and then from behind the front to the pointer.
  unfold replacement? behind
  cases last : candidate? value c.literals (c.pointer + 1) c.literals.size with
  | some k => exact ⟨_, sweeps_candidate last (Nat.le_refl _) later, fun absent => nomatch absent⟩
  | none =>
    cases front : candidate? value c.literals 1 c.pointer with
    | some k =>
      have rest := sweeps_candidate front (Nat.le_of_lt pointer_lt) before
      exact ⟨_, sweeps_past last pointer_lt (Nat.le_refl _) later (ends ▸ rest),
        fun absent => nomatch absent⟩
    | none =>
      have rest := sweeps_past front pointer_pos (Nat.le_of_lt pointer_lt) before back
      exact ⟨_, sweeps_past last pointer_lt (Nat.le_refl _) later (ends ▸ rest),
        fun _ => by omega⟩

end Sweep

/-- What is answered when the watched literal `l` becomes false, with the clause and the lists after
it. -/
inductive Swept (value : Atom → Option Bool) (c : WatchedClause) (l : Literal) (w : WatchLists) :
    Option WatchStatus × WatchedClause × WatchLists → Prop
  | moved {told : WatchStatus} {c' : WatchedClause} {w' : WatchLists} (n : Nat)
      (sweeps : Sweeps value c'.literals c.pointer (behind c'.literals.size c.pointer) n
        (some c'.pointer))
      (pointer : c'.pointer = (behind c'.literals.size)^[n + 1] c.pointer)
      (passed : ∀ k < n, (behind c'.literals.size)^[k + 1] c.pointer ≠ c.pointer ∧
        ∃ m, c'.literals[(behind c'.literals.size)^[k + 1] c.pointer]? = some m ∧
          m.value value = some false)
      (fresh : c'.second ∈ c.clause) (unwatched : ¬c.Watches c'.second)
      (status : told = .witness ∧ c'.second.value value = some true ∨
        told = .unvalued ∧ c'.second.value value = none)
      (lists : ∀ m, w'.watchers m =
        if m = c'.second then (w.watchers m).push c.key else w.watchers m) :
      Swept value c l w (some told, c', w')
  | kept {c' : WatchedClause} (n : Nat)
      (sweeps : Sweeps value c'.literals c.pointer (behind c'.literals.size c.pointer) n none)
      (exhaustive : n + 2 = c'.literals.size)
      (false : ∀ m ∈ c.clause, ¬c.Watches m → m.value value = some false)
      (pointer : c'.pointer = c.pointer) (second : c'.second = l) :
      Swept value c l w (none, c', w)

theorem moveWatch_swept {c : WatchedClause} {proper : Literal → Prop}
    (wellFormed : c.WellFormed proper) {l : Literal} (watches : c.Watches l)
    (value : Atom → Option Bool) (w : WatchLists) :
    c.Swept value l w (c.moveWatch value l.natAbs w) := by
  have turned := wellFormed.turn l.natAbs
  have same := c.turn_perm l.natAbs
  have watched (m : Literal) := wellFormed.turn_watches watches m
  obtain ⟨-, back⟩ := wellFormed.turn_watched watches
  obtain ⟨n, sweeps, exhaustive⟩ := turned.sweeps value
  rw [pointer_turn] at sweeps
  unfold moveWatch
  simp only
  cases found : (c.turn l.natAbs).replacement? value with
  | none =>
    rw [found] at sweeps
    exact .kept n sweeps (exhaustive found) (fun m member unwatched =>
      false_of_not_watches found (same.mem_iff.2 member) (mt (watched m).1 unwatched))
      (c.pointer_turn _) back
  | some i =>
    rw [found] at sweeps
    obtain ⟨positive, inside, other, notFalse⟩ :=
      replacement?_some found turned.pointer_pos turned.pointer_lt
    obtain ⟨passed, ends⟩ := sweeps.steps
    refine .moved n ?_ ?_ ?_ ?_ ?_ ?_ fun m => ?_
    · exact sweeps
    · exact (ends i rfl).1
    · exact passed
    · exact same.mem_iff.1 (literalAt_mem inside)
    · exact mt (watched _).2 (turned.not_watches positive inside other)
    · exact WatchStatus.ofValue_of_ne notFalse
    · rw [WatchLists.watchers_watch, show ((c.turn l.natAbs).pointTo i).key = c.key from
        c.key_turn l.natAbs]
      split
      · rename_i same
        rw [same]
      · rfl

theorem Swept.isSome_iff {value : Atom → Option Bool} {c c' : WatchedClause} {l : Literal}
    {w w' : WatchLists} {status : Option WatchStatus}
    (swept : c.Swept value l w (status, c', w')) :
    status.isSome ↔ ∃ m ∈ c.clause, ¬c.Watches m ∧ m.value value ≠ some false := by
  cases swept with
  | moved n sweeps pointer passed fresh unwatched status lists =>
    refine iff_of_true rfl ⟨c'.second, fresh, unwatched, ?_⟩
    rcases status with ⟨-, isTrue⟩ | ⟨-, unvalued⟩
    · simp [isTrue]
    · simp [unvalued]
  | kept n sweeps exhaustive false pointer second =>
    refine iff_of_false Bool.false_ne_true ?_
    rintro ⟨m, member, unwatched, notFalse⟩
    exact notFalse (false m member unwatched)

theorem moveWatch_eq (value : Atom → Option Bool) (c : WatchedClause) (a : Atom)
    (w : WatchLists) : ∃ status pointer w',
      c.moveWatch value a w = (status, (c.turn a).pointTo pointer, w') := by
  unfold moveWatch
  simp only
  split
  · exact ⟨_, _, _, rfl⟩
  · exact ⟨none, (c.turn a).pointer, w, rfl⟩

/-- After a watched literal became false, the other one is in front. If some literal which was not
watched is not false, the pointer goes to the first of these around the clause, and the clause comes
to the end of its list and of no other. If there is none, the pointer and all lists stay. -/
theorem moveWatch_sweeps {c : WatchedClause} (wellFormed : c.WellFormed fun _ => True)
    {l : Literal} (watches : c.Watches l) (value : Atom → Option Bool) (w : WatchLists) :
    ∃ status c' w', c.moveWatch value l.natAbs w = (status, c', w') ∧
      c'.key = c.key ∧ c'.clause.Perm c.clause ∧
      (c'.first ≠ l ∧ ∀ m, c.Watches m ↔ m = c'.first ∨ m = l) ∧
      (status.isSome ↔ ∃ m ∈ c.clause, ¬c.Watches m ∧ m.value value ≠ some false) ∧
      c.Swept value l w (status, c', w') := by
  obtain ⟨status, pointer, w', answer⟩ := moveWatch_eq value c l.natAbs w
  have swept := moveWatch_swept wellFormed watches value w
  have front : ((c.turn l.natAbs).pointTo pointer).first = c.other l.natAbs :=
    (wellFormed.turn_watched watches).1
  rw [answer] at swept
  refine ⟨status, _, w', answer, c.key_turn l.natAbs, c.turn_perm l.natAbs, ⟨?_, fun m => ?_⟩,
    swept.isSome_iff, swept⟩
  · rw [front]
    exact wellFormed.other_ne watches
  · rw [front]
    exact wellFormed.watches_iff watches

def fourWatched : WatchedClause := ⟨.original 0, #[1, 2, 3, 4], 3⟩

def fourValues (a : Atom) : Option Bool :=
  if a = 3 then some true else if a = 4 then none else some false

theorem fourWatched_sweeps :
    let answer := fourWatched.moveWatch fourValues (1 : Literal).natAbs {}
    fourWatched.WellFormed (fun _ => True) ∧ fourWatched.Watches 1 ∧ answer.1 = some .witness ∧
      answer.2.1 = ⟨.original 0, #[4, 2, 3, 1], 2⟩ ∧
      answer.2.2.lists = #[#[], #[], #[], #[], #[], #[], #[], #[.original 0]] ∧
      fourWatched.Swept fourValues 1 {} answer := by
  have wellFormed : fourWatched.WellFormed fun _ => True :=
    ⟨by decide, by decide, by decide, by decide, fun _ _ => trivial⟩
  have watches : fourWatched.Watches 1 := by decide
  obtain ⟨status, c', w', answer, -, -, -, -, swept⟩ :=
    moveWatch_sweeps wellFormed watches fourValues {}
  rw [← answer] at swept
  exact ⟨wellFormed, watches, by decide +kernel, by decide +kernel, by decide +kernel, swept⟩

end WatchedClause

end ClauseLearning
