import ClauseLearning.Proofs.Propagation

/-!
Resolution along the trail. What the buffer holds stands for a clause: its settled literals and, for
each marked literal of the current level that is still ahead, the negation. That clause follows from
the formula throughout, so the one it ends with does.
-/

namespace ClauseLearning

namespace ResolutionBuffer

theorem isMerged_add {b : ResolutionBuffer} {l : Literal} (room : l.natAbs < b.merged.size)
    (ofCurrentLevel : Bool) (a : Atom) :
    (b.add l ofCurrentLevel).isMerged a = true ↔ a = l.natAbs ∨ b.isMerged a = true := by
  simp only [isMerged, add, Array.getD_eq_getD_getElem?, Array.getElem?_setIfInBounds]
  by_cases same : l.natAbs = a
  · subst same
    simp [room]
  · simp [same, Ne.symm same]

theorem isMerged_refresh {b : ResolutionBuffer} (marked : b.Marked) (count : Nat) (a : Atom) :
    (b.refresh count).isMerged a = false := by
  have unmark (used : List Atom) (merged : Array Bool)
      (marked : ∀ a, merged.getD a false = true → a ∈ used) (a : Atom) :
      (used.foldl (fun merged a => merged.setIfInBounds a false) merged).getD a false = false := by
    induction used generalizing merged with
    | nil =>
      by_contra merged
      exact absurd (marked a (by simpa using merged)) List.not_mem_nil
    | cons first rest ih =>
      refine ih _ fun b isMarked => ?_
      simp only [Array.getD_eq_getD_getElem?, Array.getElem?_setIfInBounds] at isMarked marked
      by_cases same : first = b
      · subst same
        rw [if_pos rfl] at isMarked
        split at isMarked <;> cases isMarked
      · rw [if_neg same] at isMarked
        exact (List.mem_cons.1 (marked b isMarked)).resolve_left (Ne.symm same)
  have unmarked := unmark b.used.toList b.merged fun a isMarked => by simpa using marked a isMarked
  simp only [isMerged, refresh, ← Array.foldl_toList] at unmarked ⊢
  rw [Array.getD_eq_getD_getElem?, Array.getElem?_append]
  split
  · rw [← Array.getD_eq_getD_getElem?, unmarked]
  · rw [Array.getElem?_replicate]
    split <;> rfl

theorem le_size_refresh (b : ResolutionBuffer) (count : Nat) :
    count ≤ (b.refresh count).merged.size := by
  simp only [refresh, Array.size_append, Array.size_replicate]
  omega

def isOpenAt (b : ResolutionBuffer) (trail : Trail) (i : Nat) : Bool :=
  decide (trail.levelAt i = trail.level) && b.isMerged (trail.literals.getD i 0).natAbs

theorem isOpenAt_iff {b : ResolutionBuffer} {trail : Trail} {i : Nat} {l : Literal}
    (found : trail.literals[i]? = some l) :
    b.isOpenAt trail i = true ↔ trail.levelAt i = trail.level ∧ b.isMerged l.natAbs = true := by
  simp [isOpenAt, Array.getD_eq_getD_getElem?, found]

theorem isOpenAt_mono {b b' : ResolutionBuffer}
    (kept : ∀ a, b.isMerged a = true → b'.isMerged a = true) {trail : Trail} {i : Nat}
    (isOpen : b.isOpenAt trail i = true) : b'.isOpenAt trail i = true := by
  simp only [isOpenAt, Bool.and_eq_true] at isOpen ⊢
  exact ⟨isOpen.1, kept _ isOpen.2⟩

/-- The buffer has collected false literals, of which those of the current level and the first `n`
positions are pending and those of lower levels are settled. -/
structure Collected (b : ResolutionBuffer) (trail : Trail) (count n : Nat) : Prop where
  room : count ≤ b.merged.size
  marked : b.Marked
  settled : ∀ l ∈ b.settled, b.isMerged l.natAbs = true ∧ ∃ i : Nat,
    trail.literals[i]? = some (-l) ∧ 0 < trail.levelAt i ∧ trail.levelAt i < trail.level
  distinct : (b.settled.toList.map Int.natAbs).Nodup
  lower : ∀ (i : Nat) l, trail.literals[i]? = some l → b.isMerged l.natAbs = true →
    trail.levelAt i < trail.level → -l ∈ b.settled
  pending : b.pending = (List.range n).countP (b.isOpenAt trail)

theorem countP_range_insert {p q : Nat → Bool} {i n : Nat} (inside : i < n) (absent : p i = false)
    (inserted : ∀ j, q j = (decide (j = i) || p j)) :
    (List.range n).countP q = (List.range n).countP p + 1 := by
  have below (m : Nat) (le : m ≤ i) : (List.range m).countP q = (List.range m).countP p := by
    refine List.countP_congr fun j member => ?_
    have := List.mem_range.1 member
    rw [inserted, decide_eq_false (by omega), Bool.false_or]
  induction n with
  | zero => omega
  | succ n ih =>
    rw [List.range_succ, List.countP_append, List.countP_append]
    by_cases last : n = i
    · subst last
      rw [below n (Nat.le_refl n)]
      simp [inserted, absent]
    · rw [ih (by omega)]
      have same : q n = p n := by rw [inserted, decide_eq_false last, Bool.false_or]
      simp only [List.countP_singleton, same]
      omega

section Add

variable {b : ResolutionBuffer} {l : Literal} {ofCurrentLevel : Bool}

theorem Marked.add (marked : b.Marked) : (b.add l ofCurrentLevel).Marked := by
  intro a isMarked
  simp only [ResolutionBuffer.add, Array.mem_push]
  by_cases same : a = l.natAbs
  · exact .inr same
  · refine .inl (marked a ?_)
    simpa [isMerged, ResolutionBuffer.add, Array.getElem?_setIfInBounds, Ne.symm same]
      using isMarked

theorem mem_settled_add {m : Literal} :
    m ∈ (b.add l ofCurrentLevel).settled ↔ m ∈ b.settled ∨ ofCurrentLevel = false ∧ m = l := by
  cases ofCurrentLevel <;> simp [add]

theorem isOpenAt_add {t : AtomTable} {trail : Trail} {i : Nat} (agrees : t.Agrees trail)
    (room : l.natAbs < b.merged.size) (found : trail.literals[i]? = some (-l)) (j : Nat) :
    (b.add l ofCurrentLevel).isOpenAt trail j =
      (decide (j = i ∧ trail.levelAt i = trail.level) || b.isOpenAt trail j) := by
  have atom : (trail.literals.getD j 0).natAbs = l.natAbs ↔ j = i := by
    rw [Array.getD_eq_getD_getElem?]
    constructor
    · intro same
      cases located : trail.literals[j]? with
      | none =>
        rw [located] at same
        have nonzero := agrees.nonzero (Array.mem_of_getElem? found)
        exact absurd (Int.natAbs_eq_zero.1 same.symm) (Int.neg_ne_zero.1 nonzero)
      | some m =>
        rw [located] at same
        exact agrees.distinct j i m (-l) located found (same.trans (Int.natAbs_neg l).symm)
    · rintro rfl
      rw [found]
      exact Int.natAbs_neg l
  rw [Bool.eq_iff_iff]
  simp only [isOpenAt, Bool.and_eq_true, Bool.or_eq_true, decide_eq_true_eq, isMerged_add room,
    atom]
  constructor
  · rintro ⟨inLevel, rfl | before⟩
    · exact .inl ⟨rfl, inLevel⟩
    · exact .inr ⟨inLevel, before⟩
  · rintro (⟨rfl, inLevel⟩ | ⟨inLevel, before⟩)
    · exact ⟨inLevel, .inl rfl⟩
    · exact ⟨inLevel, .inr before⟩

end Add

namespace Collected

variable {b : ResolutionBuffer} {t : AtomTable} {trail : Trail} {n : Nat}

theorem known (collected : b.Collected trail t.size n) (agrees : t.Agrees trail) {l : Literal}
    (isFalse : -l ∈ trail.literals) : l.natAbs < b.merged.size := by
  have known := agrees.known isFalse
  rw [Int.natAbs_neg] at known
  exact known.trans_le collected.room

theorem add (collected : b.Collected trail t.size n) (agrees : t.Agrees trail) {l : Literal}
    {i : Nat} (found : trail.literals[i]? = some (-l)) (inside : i < n)
    (positive : 0 < trail.levelAt i) (fresh : b.isMerged l.natAbs = false) :
    (b.add l (decide (trail.levelAt i = trail.level))).Collected trail t.size n := by
  have room := collected.known agrees (Array.mem_of_getElem? found)
  have merged := isMerged_add room (decide (trail.levelAt i = trail.level))
  constructor
  · exact collected.room.trans (by simp [ResolutionBuffer.add])
  · exact collected.marked.add
  · intro m member
    rcases mem_settled_add.1 member with before | ⟨lower, rfl⟩
    · obtain ⟨isMerged, rest⟩ := collected.settled m before
      exact ⟨(merged _).2 (.inr isMerged), rest⟩
    · have below := (trail.levelAt_le_level i).lt_of_ne (of_decide_eq_false lower)
      exact ⟨(merged _).2 (.inl rfl), i, found, positive, below⟩
  · by_cases current : trail.levelAt i = trail.level
    · simpa [ResolutionBuffer.add, current] using collected.distinct
    · simp only [ResolutionBuffer.add, current, decide_false, Bool.false_eq_true, if_false,
        Array.toList_push, List.map_append, List.map_cons, List.map_nil]
      refine List.Nodup.append collected.distinct (List.nodup_singleton _) fun a member last => ?_
      obtain ⟨m, settled, rfl⟩ := List.mem_map.1 member
      have isMerged := (collected.settled m (Array.mem_toList_iff.1 settled)).1
      rw [List.mem_singleton.1 last, fresh] at isMerged
      cases isMerged
  · intro j m located isMerged below
    rcases (merged _).1 isMerged with same | before
    · obtain rfl := agrees.distinct j i m (-l) located found (same.trans (Int.natAbs_neg l).symm)
      obtain rfl := Option.some.inj (located.symm.trans found)
      exact mem_settled_add.2 (.inr ⟨decide_eq_false below.ne, Int.neg_neg l⟩)
    · exact mem_settled_add.2 (.inl (collected.lower j m located before below))
  · have opened (j : Nat) : (b.add l (decide (trail.levelAt i = trail.level))).isOpenAt trail j = _ :=
      isOpenAt_add agrees room found j
    -- Only a literal of the current level opens a position, and it is one more to resolve on.
    by_cases current : trail.levelAt i = trail.level
    · have absent : b.isOpenAt trail i = false := by
        simp [isOpenAt, Array.getD_eq_getD_getElem?, found, fresh]
      rw [countP_range_insert inside absent fun j => by simpa [current] using opened j,
        ← collected.pending]
      simp [ResolutionBuffer.add, current]
    · have same : (b.add l (decide (trail.levelAt i = trail.level))).isOpenAt trail =
          b.isOpenAt trail := by
        funext j
        simpa [current] using opened j
      rw [same, ← collected.pending]
      simp [ResolutionBuffer.add, current]

theorem retire (collected : b.Collected trail t.size (n + 1)) :
    ({ b with pending := b.pending - if b.isOpenAt trail n then 1 else 0 } :
      ResolutionBuffer).Collected trail t.size n where
  room := collected.room
  marked := collected.marked
  settled := collected.settled
  distinct := collected.distinct
  lower := collected.lower
  pending := by
    have pending := collected.pending
    rw [List.range_succ, List.countP_append, List.countP_singleton] at pending
    change b.pending - _ = (List.range n).countP (b.isOpenAt trail)
    omega

theorem exists_isOpenAt (collected : b.Collected trail t.size n) (pending : 0 < b.pending) :
    ∃ i < n, b.isOpenAt trail i = true := by
  rw [collected.pending] at pending
  obtain ⟨i, member, isOpen⟩ := List.countP_pos_iff.1 pending
  exact ⟨i, List.mem_range.1 member, isOpen⟩

theorem pending_pos (collected : b.Collected trail t.size n) {i : Nat} (inside : i < n)
    (isOpen : b.isOpenAt trail i = true) : 0 < b.pending := by
  rw [collected.pending]
  exact List.countP_pos_iff.2 ⟨i, List.mem_range.2 inside, isOpen⟩

end Collected

/-- A clause was merged: its literals are marked, but for those which level zero makes false. -/
structure Merges (b b' : ResolutionBuffer) (trail : Trail) (c : Clause) : Prop where
  kept : ∀ a, b.isMerged a = true → b'.isMerged a = true
  only : ∀ a, b'.isMerged a = true → b.isMerged a = true ∨ ∃ l ∈ c, l.natAbs = a
  settled : ∀ l ∈ b.settled, l ∈ b'.settled
  covered : ∀ l ∈ c, b'.isMerged l.natAbs = true ∨
    ∃ i : Nat, trail.literals[i]? = some (-l) ∧ trail.levelAt i = 0

theorem Merges.cons_of_merged {b b' : ResolutionBuffer} {trail : Trail} {c : Clause} {l : Literal}
    (merges : b.Merges b' trail c)
    (merged : b.isMerged l.natAbs = true ∨ ∃ i : Nat, trail.literals[i]? = some (-l) ∧
      trail.levelAt i = 0) : b.Merges b' trail (l :: c) where
  kept := merges.kept
  only a isMerged := (merges.only a isMerged).imp_right fun ⟨m, member, atom⟩ =>
    ⟨m, List.mem_cons_of_mem l member, atom⟩
  settled := merges.settled
  covered := List.forall_mem_cons.2 ⟨merged.imp_left (merges.kept _), merges.covered⟩

theorem Merges.cons_of_added {b b' : ResolutionBuffer} {trail : Trail} {c : Clause} {l : Literal}
    {ofCurrentLevel : Bool} (room : l.natAbs < b.merged.size)
    (merges : (b.add l ofCurrentLevel).Merges b' trail c) : b.Merges b' trail (l :: c) where
  kept a before := merges.kept a ((isMerged_add room ofCurrentLevel a).2 (.inr before))
  only a isMerged := by
    rcases merges.only a isMerged with added | ⟨m, member, atom⟩
    · rcases (isMerged_add room ofCurrentLevel a).1 added with rfl | before
      · exact .inr ⟨l, List.mem_cons_self, rfl⟩
      · exact .inl before
    · exact .inr ⟨m, List.mem_cons_of_mem l member, atom⟩
  settled m before := merges.settled m (mem_settled_add.2 (.inl before))
  covered := List.forall_mem_cons.2
    ⟨.inl (merges.kept _ ((isMerged_add room ofCurrentLevel _).2 (.inl rfl))), merges.covered⟩

theorem Merges.isOpenAt_or {b b' : ResolutionBuffer} {trail : Trail} {c : Clause} {i : Nat}
    {l : Literal} (merges : b.Merges b' trail c) (found : trail.literals[i]? = some l)
    (isOpen : b'.isOpenAt trail i = true) : b.isOpenAt trail i = true ∨ l ∈ c ∨ -l ∈ c := by
  obtain ⟨current, merged⟩ := (isOpenAt_iff found).1 isOpen
  refine (merges.only _ merged).imp (fun before => ?_) fun ⟨m, member, atom⟩ => ?_
  · exact (isOpenAt_iff found).2 ⟨current, before⟩
  · rcases Literal.eq_or_eq_neg atom with rfl | rfl
    · exact .inl member
    · exact .inr (by rwa [Int.neg_neg])

theorem merge_spec {b : ResolutionBuffer} {t : AtomTable} {trail : Trail} {n : Nat} {c : Clause}
    (collected : b.Collected trail t.size n) (agrees : t.Agrees trail)
    (false : ∀ l ∈ c, b.isMerged l.natAbs = true ∨ ∃ i < n, trail.literals[i]? = some (-l)) :
    ∃ b', b.merge t.level trail.level c = (.ok (), b') ∧ b'.Collected trail t.size n ∧
      b.Merges b' trail c := by
  induction c generalizing b with
  | nil =>
    exact ⟨b, rfl, collected, fun _ => id, fun _ => .inl, fun _ => id, fun _ member => nomatch member⟩
  | cons l rest ih =>
    have later := fun m member => false m (List.mem_cons_of_mem l member)
    by_cases fresh : b.isMerged l.natAbs = true
    · obtain ⟨b', answer, collected', merges⟩ := ih collected later
      exact ⟨b', by rw [merge, if_pos fresh, answer], collected', merges.cons_of_merged (.inl fresh)⟩
    · obtain ⟨i, inside, found⟩ := (false l List.mem_cons_self).resolve_left fresh
      have level := agrees.level_of_neg found
      have fresh := Bool.eq_false_iff.2 fresh
      cases depth : trail.levelAt i with
      | zero =>
        obtain ⟨b', answer, collected', merges⟩ := ih collected later
        refine ⟨b', ?_, collected', merges.cons_of_merged (.inr ⟨i, found, depth⟩)⟩
        simp only [merge, fresh, level, depth, answer, Bool.false_eq_true, if_false]
      | succ k =>
        have room := collected.known agrees (Array.mem_of_getElem? found)
        have merged := isMerged_add room (decide (trail.levelAt i = trail.level))
        obtain ⟨b', answer, collected', merges⟩ :=
          ih (collected.add agrees found inside (by omega) fresh) fun m member =>
            (later m member).imp_left fun before => (merged _).2 (.inr before)
        refine ⟨b', ?_, collected', merges.cons_of_added room⟩
        rw [← answer]
        simp only [merge, fresh, level, depth, Bool.false_eq_true, if_false]

theorem collected_refresh {b : ResolutionBuffer} (marked : b.Marked) (trail : Trail)
    (count n : Nat) : (b.refresh count).Collected trail count n where
  room := le_size_refresh b count
  marked a isMarked := absurd isMarked (by simp [isMerged_refresh marked])
  settled l member := absurd member (Array.not_mem_empty l)
  distinct := List.nodup_nil
  lower _ l _ isMerged := absurd isMerged (by simp [isMerged_refresh marked])
  pending := by
    refine (List.countP_eq_zero.2 fun i _ => ?_).symm
    simp [isOpenAt, isMerged_refresh marked]

end ResolutionBuffer

theorem ClauseStore.clauseOf_of_get {s : ClauseStore} {key : ClauseKey} {c : WatchedClause}
    (live : s.get key = .ok c) : s.clauseOf key = .ok c.clause := by
  cases key with
  | originalUnit l => exact absurd live get_originalUnit
  | additionUnit l => exact absurd live get_additionUnit
  | original i => simp only [clauseOf, live, Except.map]
  | addition i token => simp only [clauseOf, live, Except.map]

namespace Solver

variable {s : Solver} {formula : List Clause} {n : Nat}

theorem buffer_resembles (s : Solver) (buffer : ResolutionBuffer) :
    s.Resembles { s with buffer } :=
  .of_eq rfl rfl rfl rfl rfl

theorem mergeClause_spec (agrees : s.atoms.Agrees s.trail)
    (collected : s.buffer.Collected s.trail s.atoms.size n) {key : ClauseKey} {c : WatchedClause}
    (live : s.clauses.store.get key = .ok c)
    (false : ∀ l ∈ c.clause, s.buffer.isMerged l.natAbs = true ∨
      ∃ i < n, s.trail.literals[i]? = some (-l)) :
    ∃ s', s.mergeClause key s.trail.level = (.ok (), s') ∧ s.Resembles s' ∧
      s'.buffer.Collected s.trail s.atoms.size n ∧ s.buffer.Merges s'.buffer s.trail c.clause := by
  obtain ⟨buffer, merged, rest⟩ := ResolutionBuffer.merge_spec collected agrees false
  refine ⟨({ s with buffer } : Solver).raiseClause key, ?_,
    (s.buffer_resembles buffer).trans (raiseClause_resembles _ key), ?_⟩
  · simp only [mergeClause, ClauseStore.clauseOf_of_get live, merged]
  · rw [buffer_raiseClause]
    exact rest

/-- The clause resolution has come to follows from the formula: one of the settled literals holds,
or the negation of an open literal among the first `n`. -/
structure Resolving (formula : List Clause) (s : Solver) (n : Nat) : Prop where
  coherent : s.Coherent
  entailed : s.Entailed formula
  collected : s.buffer.Collected s.trail s.atoms.size n
  resolvent : ∀ v : World, v.Models formula → (∃ l ∈ s.buffer.settled, Literal.HoldsIn v l) ∨
    ∃ i < n, ∃ l, s.trail.literals[i]? = some l ∧ s.buffer.isOpenAt s.trail i = true ∧
      Literal.HoldsIn v (-l)

theorem holds_of_merges {b b' : ResolutionBuffer} {l : Literal} {i : Nat} {c : Clause} {v : World}
    (agrees : s.atoms.Agrees s.trail) (entailed : s.Entailed formula)
    (collected : b'.Collected s.trail s.atoms.size n) (merges : b.Merges b' s.trail c)
    (models : v.Models formula) (member : l ∈ c) (found : s.trail.literals[i]? = some (-l))
    (holds : Literal.HoldsIn v l) : l ∈ b'.settled ∨ b'.isOpenAt s.trail i = true := by
  have nonzero : l ≠ 0 := Int.neg_ne_zero.1 (agrees.nonzero (Array.mem_of_getElem? found))
  rcases merges.covered l member with isMerged | ⟨j, located, zero⟩
  · have isMerged' : b'.isMerged (-l).natAbs = true := by rwa [Int.natAbs_neg]
    rcases (s.trail.levelAt_le_level i).lt_or_eq with below | current
    · exact .inl (by simpa using collected.lower i (-l) found isMerged' below)
    · exact .inr ((ResolutionBuffer.isOpenAt_iff found).2 ⟨current, isMerged'⟩)
  · have refuted := Clause.holdsIn_singleton.1 (entailed.zero j (-l) located zero v models)
    exact absurd holds ((Literal.holdsIn_neg nonzero).1 refuted)

theorem Resolving.resolvent_of_merges (resolving : s.Resolving formula (n + 1)) {l : Literal}
    (found : s.trail.literals[n]? = some l) {key : ClauseKey} {c : WatchedClause}
    (live : s.clauses.store.get key = .ok c) (implies : s.trail.Implies n c l)
    {b : ResolutionBuffer} (collected : b.Collected s.trail s.atoms.size n)
    (merges : s.buffer.Merges b s.trail c.clause) {v : World} (models : v.Models formula) :
    (∃ m ∈ b.settled, Literal.HoldsIn v m) ∨ ∃ i < n, ∃ m, s.trail.literals[i]? = some m ∧
      b.isOpenAt s.trail i = true ∧ Literal.HoldsIn v (-m) := by
  have agrees := resolving.coherent.agrees
  rcases resolving.resolvent v models with
    ⟨m, settled, holds⟩ | ⟨i, before, m, located, isOpen, holds⟩
  · exact .inl ⟨m, merges.settled m settled, holds⟩
  · rcases Nat.lt_succ_iff_lt_or_eq.1 before with before | rfl
    · exact .inr ⟨i, before, m, located, ResolutionBuffer.isOpenAt_mono merges.kept isOpen, holds⟩
    -- The literal resolved on was the one that held, so another of its reason does.
    · obtain rfl := Option.some.inj (located.symm.trans found)
      obtain ⟨o, inClause, true⟩ := resolving.entailed.long key c live v models
      have other : o ≠ m := by
        rintro rfl
        exact (Literal.holdsIn_neg (agrees.nonzero (Array.mem_of_getElem? found))).1 holds true
      obtain ⟨j, before, false⟩ := implies.earlier o inClause other
      rcases holds_of_merges agrees resolving.entailed collected merges models inClause false true
        with settled | isOpen'
      · exact .inl ⟨o, settled, true⟩
      · exact .inr ⟨j, before, -o, false, isOpen', by rwa [Int.neg_neg]⟩

theorem Resolving.resolve (resolving : s.Resolving formula (n + 1)) {l : Literal}
    (found : s.trail.literals[n]? = some l) (isOpen : s.buffer.isOpenAt s.trail n = true)
    {key : ClauseKey} {c : WatchedClause} (live : s.clauses.store.get key = .ok c)
    (implies : s.trail.Implies n c l) (journal : Journal) :
    ∃ s', ({ s with buffer := { s.buffer with pending := s.buffer.pending - 1 }, journal } :
        Solver).mergeClause key s.trail.level = (.ok (), s') ∧ s.Resembles s' ∧
      s'.Resolving formula n ∧ s.buffer.Merges s'.buffer s.trail c.clause ∧
      (1 < s.buffer.pending → 0 < s'.buffer.pending) := by
  have retired := resolving.collected.retire
  rw [if_pos isOpen] at retired
  let t : Solver :=
    { s with buffer := { s.buffer with pending := s.buffer.pending - 1 }, journal }
  have counted : s.Resembles t := .of_eq rfl rfl rfl rfl rfl
  obtain ⟨s', answer, same, collected, merges⟩ :=
    mergeClause_spec (s := t) resolving.coherent.agrees retired live fun m member => by
      by_cases resolved : m = l
      · subst resolved
        exact .inl ((ResolutionBuffer.isOpenAt_iff found).1 isOpen).2
      · obtain ⟨j, before, located⟩ := implies.earlier m member resolved
        exact .inr ⟨j, before, located⟩
  replace same := counted.trans same
  refine ⟨s', answer, same, ⟨?_, resolving.entailed.congr same, ?_, fun v models => ?_⟩,
    { merges with }, ?_⟩
  · exact resolving.coherent.congr same collected.marked
  · rw [same.trail, same.assignments.size_eq]
    exact collected
  · rw [same.trail]
    exact resolving.resolvent_of_merges found live implies collected { merges with } models
  · intro more
    have left : 0 < s.buffer.pending - 1 := Nat.sub_pos_of_lt more
    obtain ⟨j, inside, isOpen'⟩ := retired.exists_isOpenAt left
    exact collected.pending_pos inside (ResolutionBuffer.isOpenAt_mono merges.kept isOpen')

theorem Resolving.skip (resolving : s.Resolving formula (n + 1))
    (closed : ¬s.buffer.isOpenAt s.trail n = true) : s.Resolving formula n := by
  have retired := resolving.collected.retire
  rw [if_neg closed] at retired
  refine ⟨resolving.coherent, resolving.entailed, retired, fun v models => ?_⟩
  refine (resolving.resolvent v models).imp_right ?_
  rintro ⟨i, before, rest⟩
  rcases Nat.lt_succ_iff_lt_or_eq.1 before with before | rfl
  · exact ⟨i, before, rest⟩
  · obtain ⟨m, -, isOpen, -⟩ := rest
    exact absurd isOpen closed

theorem Resolving.finish (resolving : s.Resolving formula (n + 1)) {l : Literal}
    (found : s.trail.literals[n]? = some l)
    (last : ∀ i < n, ¬s.buffer.isOpenAt s.trail i = true) :
    Entails formula (-l :: s.buffer.settled.toList) := by
  intro v models
  rcases resolving.resolvent v models with
    ⟨m, settled, holds⟩ | ⟨i, before, m, located, isOpen, holds⟩
  · exact ⟨m, List.mem_cons_of_mem _ (Array.mem_toList_iff.2 settled), holds⟩
  · rcases Nat.lt_succ_iff_lt_or_eq.1 before with before | rfl
    · exact absurd isOpen (last i before)
    · obtain rfl := Option.some.inj (located.symm.trans found)
      exact ⟨-m, List.mem_cons_self, holds⟩

theorem Coherent.reason (coherent : s.Coherent) {l : Literal} {i : Nat}
    (found : s.trail.literals[n]? = some l) (before : i < n)
    (level : s.trail.levelAt i = s.trail.levelAt n) (decided : 0 < s.trail.levelAt n) :
    ∃ key c, s.atoms.source l.natAbs = some (.propagation key) ∧
      s.clauses.store.get key = .ok c ∧ s.trail.Implies n c l := by
  obtain ⟨source, known, justifies⟩ := coherent.justified n l found
  cases source with
  | decision =>
    have lower := Trail.levelAt_lt_of_mem_starts coherent.aligned.trail justifies before
    exact absurd level lower.ne
  | unit key => exact absurd justifies.2 decided.ne'
  | propagation key =>
    obtain ⟨-, c, live, implies⟩ := justifies
    exact ⟨key, c, known, live, implies⟩

theorem Resolving.isOpenAt_eq (resolving : s.Resolving formula n) {i : Nat} {l : Literal}
    (found : s.trail.literals[i]? = some l) :
    (s.buffer.isMerged l.natAbs && s.atoms.level l.natAbs == some s.trail.level) =
      s.buffer.isOpenAt s.trail i := by
  rw [Bool.eq_iff_iff, ResolutionBuffer.isOpenAt_iff found,
    resolving.coherent.agrees.level_of_getElem? found]
  simp [and_comm]

theorem Resolving.advance (resolving : s.Resolving formula (n + 1)) {l : Literal}
    (found : s.trail.literals[n]? = some l) (isOpen : s.buffer.isOpenAt s.trail n = true)
    (more : 1 < s.buffer.pending) (decided : 0 < s.trail.level) (journal : Journal) :
    ∃ key c s', s.atoms.source l.natAbs = some (.propagation key) ∧
      s.clauses.store.get key = .ok c ∧ s.trail.Implies n c l ∧
      ({ s with buffer := { s.buffer with pending := s.buffer.pending - 1 }, journal } :
        Solver).mergeClause key s.trail.level = (.ok (), s') ∧ s.Resembles s' ∧
      s'.Resolving formula n ∧ s.buffer.Merges s'.buffer s.trail c.clause ∧
      0 < s'.buffer.pending := by
  have inLevel := ((ResolutionBuffer.isOpenAt_iff found).1 isOpen).1
  have retired := resolving.collected.retire
  rw [if_pos isOpen] at retired
  obtain ⟨j, before, other⟩ := retired.exists_isOpenAt (Nat.sub_pos_of_lt more)
  have level : s.trail.levelAt j = s.trail.level := by
    simp only [ResolutionBuffer.isOpenAt, Bool.and_eq_true, decide_eq_true_eq] at other
    exact other.1
  obtain ⟨key, c, known, live, implies⟩ :=
    resolving.coherent.reason found before (level.trans inLevel.symm) (inLevel ▸ decided)
  obtain ⟨s', answer, same, resolving', merges, left⟩ :=
    resolving.resolve found isOpen live implies journal
  exact ⟨key, c, s', known, live, implies, answer, same, resolving', merges, left more⟩

inductive Retraces (formula : List Clause) : Nat → Solver → Nat → Literal → Solver → Prop
  | finish {n : Nat} {s : Solver} {l : Literal} (resolving : s.Resolving formula (n + 1))
      (found : s.trail.literals[n]? = some l) (isOpen : s.buffer.isOpenAt s.trail n = true)
      (last : ∀ i < n, ¬s.buffer.isOpenAt s.trail i = true) :
      Retraces formula (n + 1) s n l
        { s with buffer := { s.buffer with pending := s.buffer.pending - 1 } }
  | skip {n i : Nat} {s s' : Solver} {l : Literal} (resolving : s.Resolving formula (n + 1))
      (closed : ¬s.buffer.isOpenAt s.trail n = true)
      (other : ∃ j < n, s.buffer.isOpenAt s.trail j = true) (rest : Retraces formula n s i l s') :
      Retraces formula (n + 1) s i l s'
  | resolve {n i : Nat} {s t s' : Solver} {l m : Literal} {key : ClauseKey} {c : WatchedClause}
      (resolving : s.Resolving formula (n + 1)) (found : s.trail.literals[n]? = some m)
      (isOpen : s.buffer.isOpenAt s.trail n = true)
      (other : ∃ j < n, s.buffer.isOpenAt s.trail j = true)
      (known : s.atoms.source m.natAbs = some (.propagation key))
      (live : s.clauses.store.get key = .ok c) (implies : s.trail.Implies n c m)
      (same : s.Resembles t) (merges : s.buffer.Merges t.buffer s.trail c.clause)
      (rest : Retraces formula n t i l s') : Retraces formula (n + 1) s i l s'

theorem Retraces.resolving {s' : Solver} {i : Nat} {l : Literal}
    (way : Retraces formula n s i l s') : s.Resolving formula n := by
  cases way <;> assumption

theorem Resolving.retraces (resolving : s.Resolving formula n) (le : n ≤ s.trail.literals.size)
    (isOpen : 0 < s.buffer.pending) (decided : 0 < s.trail.level) :
    ∃ i l s', resolveBack s.trail.level n s = (.ok l, s') ∧ Retraces formula n s i l s' := by
  -- On what is left of the trail, which an open position keeps from running out.
  induction n generalizing s with
  | zero =>
    rw [resolving.collected.pending] at isOpen
    exact absurd isOpen (Nat.lt_irrefl 0)
  | succ n ih =>
    obtain ⟨l, found⟩ : ∃ l, s.trail.literals[n]? = some l := ⟨_, Array.getElem?_eq_getElem le⟩
    have front : s.trail.literals.getD n 0 = l := by
      rw [Array.getD_eq_getD_getElem?, found, Option.getD_some]
    have retired := resolving.collected.retire
    unfold resolveBack
    simp only [front, resolving.isOpenAt_eq found]
    by_cases isOpen' : s.buffer.isOpenAt s.trail n = true
    · rw [if_pos isOpen'] at retired ⊢
      by_cases last : s.buffer.pending - 1 = 0
      · rw [if_pos last]
        have none (i : Nat) (before : i < n) : ¬s.buffer.isOpenAt s.trail i = true :=
          fun isOpen => absurd (retired.pending_pos before isOpen) (Nat.not_lt.2 last.le)
        exact ⟨n, l, _, rfl, .finish resolving found isOpen' none⟩
      · rw [if_neg last]
        obtain ⟨journal, noted⟩ := note_eq
          { s with buffer := { s.buffer with pending := s.buffer.pending - 1 } } .trace .resolution
          fun _ => "Resolving on " ++ l.text
        obtain ⟨key, c, t, known, live, implies, answer, same, resolving', merges, left⟩ :=
          resolving.advance found isOpen' (by omega) decided journal
        obtain ⟨i, l', s', answer', rest⟩ :=
          ih resolving' (same.trail ▸ Nat.le_of_succ_le le) left (same.trail ▸ decided)
        rw [same.trail] at answer'
        refine ⟨i, l', s', ?_, .resolve resolving found isOpen'
          (retired.exists_isOpenAt (Nat.pos_of_ne_zero last)) known live implies same merges rest⟩
        rw [noted]
        simp only [known, answer, answer']
    · rw [if_neg isOpen'] at retired ⊢
      obtain ⟨i, l', s', answer, rest⟩ :=
        ih (resolving.skip isOpen') (Nat.le_of_succ_le le) isOpen decided
      exact ⟨i, l', s', answer, .skip resolving isOpen' (retired.exists_isOpenAt isOpen) rest⟩

theorem Retraces.spec {s' : Solver} {i : Nat} {l : Literal} (way : Retraces formula n s i l s') :
    s.Resembles s' ∧ s'.buffer.Collected s.trail s.atoms.size i ∧
      s.trail.literals[i]? = some l ∧ s.trail.levelAt i = s.trail.level ∧
      Entails formula (-l :: s'.buffer.settled.toList) := by
  induction way with
  | finish resolving found isOpen last =>
    have retired := resolving.collected.retire
    rw [if_pos isOpen] at retired
    exact ⟨buffer_resembles _ _, retired, found, ((ResolutionBuffer.isOpenAt_iff found).1 isOpen).1,
      resolving.finish found last⟩
  | skip _ _ _ _ ih => exact ih
  | resolve _ _ _ _ _ _ _ same _ _ ih =>
    rw [same.trail, same.assignments.size_eq] at ih
    exact ⟨same.trans ih.1, ih.2⟩

end Solver

namespace Clause

def depth (level : Atom → Option Nat) (l : Literal) : Nat := (level l.natAbs).getD 0

theorem firstHighest_spec (level : Atom → Option Nat) (best highest i : Nat) (rest : Clause) :
    (firstHighest level best highest i rest = best ∧ ∀ m ∈ rest, depth level m ≤ highest) ∨
      ∃ j l, firstHighest level best highest i rest = i + j ∧ rest[j]? = some l ∧
        highest < depth level l ∧ ∀ m ∈ rest, depth level m ≤ depth level l := by
  induction rest generalizing best highest i with
  | nil => exact .inl ⟨rfl, fun _ member => nomatch member⟩
  | cons l rest ih =>
    unfold firstHighest
    by_cases above : highest < depth level l
    · simp only [show highest < (level l.natAbs).getD 0 from above, if_true]
      rcases ih i (depth level l) (i + 1) with ⟨same, le⟩ | ⟨j, m, place, found, higher, le⟩
      · exact .inr ⟨0, l, same, rfl, above, List.forall_mem_cons.2 ⟨Nat.le_refl _, le⟩⟩
      · refine .inr ⟨j + 1, m, place.trans (by omega), found, above.trans higher, ?_⟩
        exact List.forall_mem_cons.2 ⟨higher.le, le⟩
    · simp only [show ¬highest < (level l.natAbs).getD 0 from above, if_false]
      rcases ih best highest (i + 1) with ⟨same, le⟩ | ⟨j, m, place, found, higher, le⟩
      · exact .inl ⟨same, List.forall_mem_cons.2 ⟨Nat.le_of_not_lt above, le⟩⟩
      · refine .inr ⟨j + 1, m, place.trans (by omega), found, higher, ?_⟩
        exact List.forall_mem_cons.2 ⟨(Nat.le_of_not_lt above).trans higher.le, le⟩

theorem asserting_spec (level : Atom → Option Nat) (l : Literal) (rest : Clause) :
    ∃ rest', asserting level l rest = l :: rest' ∧ rest'.Perm rest ∧
      ∀ first, rest'[0]? = some first → ∀ m ∈ rest', depth level m ≤ depth level first := by
  have perm : (asserting level l rest).Perm (l :: rest) := swapIfInBounds_perm ..
  -- The literals are only swapped, so two positions say what is in front.
  suffices front : (asserting level l rest)[0]? = some l ∧
      ∀ first, (asserting level l rest)[1]? = some first →
        ∀ m ∈ rest, depth level m ≤ depth level first by
    obtain ⟨head, second⟩ := front
    cases shape : asserting level l rest with
    | nil => simp [shape] at head
    | cons l' rest' =>
      rw [shape] at head perm second
      obtain rfl := Option.some.inj head
      refine ⟨rest', rfl, perm.cons_inv, fun first found m member => ?_⟩
      exact second first found m (perm.cons_inv.mem_iff.1 member)
  unfold asserting
  simp only [Array.getElem?_toList]
  rcases rest with - | ⟨m, rest⟩
  · simp [Array.swapIfInBounds]
  · have second : (l :: m :: rest).toArray[1]? = some m := rfl
    rcases firstHighest_spec level 1 0 1 (m :: rest) with
      ⟨same, le⟩ | ⟨j, o, place, found, -, le⟩
    · rw [same, getElem?_swapIfInBounds second second, getElem?_swapIfInBounds second second]
      refine ⟨rfl, fun first located => ?_⟩
      obtain rfl := Option.some.inj located
      exact fun m member => (le m member).trans (Nat.zero_le _)
    · have chosen : (l :: m :: rest).toArray[1 + j]? = some o := by
        rw [Nat.add_comm]
        simpa using found
      rw [place, getElem?_swapIfInBounds second chosen, getElem?_swapIfInBounds second chosen]
      refine ⟨by rw [if_neg (by omega), if_neg (by omega)]; rfl, fun first located => ?_⟩
      by_cases unmoved : 1 = 1 + j
      · rw [if_pos unmoved] at located
        rw [← unmoved] at chosen
        obtain rfl := Option.some.inj (located.symm.trans (second.symm.trans chosen))
        exact le
      · rw [if_neg unmoved, if_pos rfl] at located
        obtain rfl := Option.some.inj located
        exact le

end Clause

/-- A clause derived from a conflict: it follows from the formula, its first literal is false since
the current level, and the others since lower levels, the second since the highest of these. -/
structure Derived (formula : List Clause) (trail : Trail) (l : Literal) (rest : Clause) : Prop where
  entailed : Entails formula (l :: rest)
  distinct : ((l :: rest).map Int.natAbs).Nodup
  decided : 0 < trail.level
  current : ∃ i : Nat, trail.literals[i]? = some (-l) ∧ trail.levelAt i = trail.level
  lower : ∀ m ∈ rest, ∃ i : Nat, trail.literals[i]? = some (-m) ∧ 0 < trail.levelAt i ∧
    trail.levelAt i < trail.level
  highest : ∀ first, rest[0]? = some first → ∀ m ∈ rest, ∀ i j : Nat,
    trail.literals[i]? = some (-m) → trail.literals[j]? = some (-first) →
      trail.levelAt i ≤ trail.levelAt j

namespace Solver

variable {s : Solver} {formula : List Clause} {key : ClauseKey}

theorem Conflicting.resolving (conflicting : s.Conflicting key) (coherent : s.Coherent)
    (entailed : s.Entailed formula) (decided : 0 < s.trail.level) :
    ∃ s', ({ s with buffer := s.buffer.refresh s.atoms.size } : Solver).mergeClause key
        s.trail.level = (.ok (), s') ∧ s.Resembles s' ∧
      s'.Resolving formula s.trail.literals.size ∧ 0 < s'.buffer.pending ∧
      ∃ c, s.clauses.store.get key = .ok c ∧ (∀ m ∈ c.clause, -m ∈ s.trail.literals) ∧
        (s.buffer.refresh s.atoms.size).Merges s'.buffer s.trail c.clause := by
  obtain ⟨c, live, false, last⟩ := conflicting
  let t : Solver := { s with buffer := s.buffer.refresh s.atoms.size }
  have refreshed : s.Resembles t := s.buffer_resembles _
  have before : ∀ l ∈ c.clause, ∃ i < s.trail.literals.size, s.trail.literals[i]? = some (-l) := by
    intro l member
    obtain ⟨i, found⟩ := Array.getElem?_of_mem (false l member)
    exact ⟨i, (Array.getElem?_eq_some_iff.1 found).1, found⟩
  obtain ⟨s', answer, same, collected, merges⟩ := mergeClause_spec (s := t) coherent.agrees
    (ResolutionBuffer.collected_refresh coherent.marked s.trail s.atoms.size
      s.trail.literals.size) live fun l member => .inr (before l member)
  replace same := refreshed.trans same
  refine ⟨s', answer, same, ⟨?_, entailed.congr same, ?_, fun v models => ?_⟩, ?_, c, live, false,
    merges⟩
  · exact coherent.congr same collected.marked
  · rw [same.trail, same.assignments.size_eq]
    exact collected
  · rw [same.trail]
    obtain ⟨l, member, holds⟩ := entailed.long key c live v models
    obtain ⟨i, inside, found⟩ := before l member
    rcases holds_of_merges coherent.agrees entailed collected merges models member found holds with
      settled | isOpen
    · exact .inl ⟨l, settled, holds⟩
    · exact .inr ⟨i, inside, -l, found, isOpen, by rwa [Int.neg_neg]⟩
  · obtain ⟨l, member, i, found, current⟩ := last
    have isMerged : s'.buffer.isMerged (-l).natAbs = true := by
      rw [Int.natAbs_neg]
      refine (merges.covered l member).resolve_right ?_
      rintro ⟨j, located, zero⟩
      obtain rfl := coherent.agrees.distinct i j _ _ found located rfl
      exact absurd (current.symm.trans zero) decided.ne'
    rw [collected.pending]
    exact List.countP_pos_iff.2 ⟨i, List.mem_range.2 (Array.getElem?_eq_some_iff.1 found).1,
      (ResolutionBuffer.isOpenAt_iff found).2 ⟨current, isMerged⟩⟩

theorem derive_of_resolved {s₁ s₂ : Solver} {uip : Literal}
    (merged : ({ s with buffer := s.buffer.refresh s.atoms.size } : Solver).mergeClause key
      s.trail.level = (.ok (), s₁)) (trail : s₁.trail = s.trail)
    (resolved : resolveBack s₁.trail.level s₁.trail.literals.size s₁ = (.ok uip, s₂)) :
    ∃ rest, s.derive key = (.ok (-uip :: rest),
        ({ s₂ with buffer := { s₂.buffer with settled := #[] } } : Solver).note .trace .resolution
          fun _ => "Derived " ++ Clause.text (-uip :: rest)) ∧
      rest.Perm s₂.buffer.settled.toList ∧ ∀ first, rest[0]? = some first → ∀ m ∈ rest,
        Clause.depth s₂.atoms.level m ≤ Clause.depth s₂.atoms.level first := by
  obtain ⟨rest, asserting, spec⟩ :=
    Clause.asserting_spec s₂.atoms.level (-uip) s₂.buffer.settled.toList
  refine ⟨rest, ?_, spec⟩
  rw [trail] at resolved
  simp only [derive, merged, trail, resolved, takeSettled]
  rw [asserting]

theorem derive_spec (conflicting : s.Conflicting key) (coherent : s.Coherent)
    (entailed : s.Entailed formula) (decided : 0 < s.trail.level) :
    ∃ l rest s', s.derive key = (.ok (l :: rest), s') ∧ s.Resembles s' ∧ s'.buffer.Marked ∧
      Derived formula s.trail l rest := by
  obtain ⟨s₁, merged, same₁, resolving, isOpen, -⟩ :=
    conflicting.resolving coherent entailed decided
  rw [← same₁.trail] at resolving
  obtain ⟨i, uip, s₂, resolved, way⟩ :=
    resolving.retraces (Nat.le_refl _) isOpen (same₁.trail ▸ decided)
  obtain ⟨same₂, collected, found, current, resolvent⟩ := way.spec
  rw [same₁.trail] at found current collected
  have agrees := coherent.agrees
  have same : s.Resembles s₂ := same₁.trans same₂
  obtain ⟨rest, derived, perm, highest⟩ := derive_of_resolved merged same₁.trail resolved
  have settled (m : Literal) (member : m ∈ rest) := collected.settled m
    (Array.mem_toList_iff.1 (perm.mem_iff.1 member))
  have depth {m : Literal} {j : Nat} (located : s.trail.literals[j]? = some (-m)) :
      Clause.depth s₂.atoms.level m = s.trail.levelAt j := by
    rw [Clause.depth, same.assignments.level, agrees.level_of_neg located, Option.getD_some]
  refine ⟨-uip, rest, _, derived, (same.trans (s₂.buffer_resembles _)).trans (note_resembles ..),
    ?_, ?_⟩
  · rw [buffer_note]
    exact collected.marked
  -- The literal left open is in front, and those behind were settled at lower levels.
  · constructor
    · exact resolvent.subset (List.cons_subset_cons _ perm.symm.subset)
    · refine List.nodup_cons.2 ⟨fun member => ?_, (perm.map _).nodup_iff.2 collected.distinct⟩
      obtain ⟨m, inRest, atom⟩ := List.mem_map.1 member
      obtain ⟨-, j, located, -, below⟩ := settled m inRest
      have := agrees.distinct i j uip (-m) found located (by omega)
      subst this
      omega
    · exact decided
    · exact ⟨i, by rwa [Int.neg_neg], current⟩
    · intro m member
      exact (settled m member).2
    · intro first front m member j k located atFirst
      rw [← depth located, ← depth atFirst]
      exact highest first front m member

end Solver

end ClauseLearning
