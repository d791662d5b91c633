import ClauseLearning.Proofs.Assignment
import ClauseLearning.Proofs.WatchWalks

/-!
Propagation by watched literals does what the rule of unit propagation does. Each literal visited
leaves every clause guarded against it, each literal added is one that the rule adds, and a clause
that is found false ends it.
-/

namespace ClauseLearning

def Walk.Pending (w : Walk) (i : Nat) (key : ClauseKey) : Prop :=
  ∃ j, i ≤ j ∧ j < w.length ∧ w.list[j]? = some key

namespace Solver

def Implied (s : Solver) (l : Literal) : Prop :=
  UnitClosure (s.clauses.store.longClauses.map WatchedClause.clause) s.trail.literals.toList l

structure Draws (start s : Solver) : Prop where
  extends_trail : start.trail.Extends s.trail
  starts : s.trail.starts = start.trail.starts
  size : s.atoms.size = start.atoms.size
  rearranged : start.clauses.store.Rearranged s.clauses.store
  implied : ∀ l ∈ s.trail.literals, start.Implied l
  buffer : s.buffer = start.buffer
  status : s.status = start.status
  learned : s.learned = start.learned

namespace Draws

variable {start s s' : Solver}

theorem refl (s : Solver) : s.Draws s where
  extends_trail := .refl _
  starts := rfl
  size := rfl
  rearranged := .refl _
  implied l member := .given (by simpa using member)
  buffer := rfl
  status := rfl
  learned := rfl

theorem rearranged_clauses (draws : start.Draws s) {proper proper' : Literal → Prop}
    (before : start.clauses.store.WellFormed proper) (after : s.clauses.store.WellFormed proper') :
    ∀ c' ∈ s.clauses.store.longClauses.map WatchedClause.clause,
      ∃ c ∈ start.clauses.store.longClauses.map WatchedClause.clause, c'.Perm c := by
  intro c' member
  obtain ⟨d', listed, rfl⟩ := List.mem_map.1 member
  obtain ⟨d, live, perm⟩ := draws.rearranged.back _ d' (after.mem_longClauses.1 listed)
  refine ⟨d.clause, List.mem_map_of_mem (before.mem_longClauses.2 ?_), perm⟩
  rw [before.key_eq live, live]

theorem trans (first : start.Draws s) (second : s.Draws s') {proper proper' : Literal → Prop}
    (before : start.clauses.store.WellFormed proper) (after : s.clauses.store.WellFormed proper') :
    start.Draws s' where
  extends_trail := first.extends_trail.trans second.extends_trail
  starts := second.starts.trans first.starts
  size := second.size.trans first.size
  rearranged := first.rearranged.trans second.rearranged
  implied l member := (second.implied l member).trans
    (fun m given => first.implied m (by simpa using given))
    (first.rearranged_clauses before after)
  buffer := second.buffer.trans first.buffer
  status := second.status.trans first.status
  learned := second.learned.trans first.learned

theorem gain (draws : start.Draws s) {l : Literal} {source : Source} (gains : s.Gains s' l source)
    (trail : s'.trail = s.trail.push l) (implied : start.Implied l) : start.Draws s' where
  extends_trail := draws.extends_trail.trans gains.extends_trail
  starts := by
    rw [trail]
    exact draws.starts
  size := gains.size.trans draws.size
  rearranged := by
    rw [gains.clauses]
    exact draws.rearranged
  implied m member := by
    rw [gains.literals, Array.mem_push] at member
    rcases member with before | rfl
    · exact draws.implied m before
    · exact implied
  buffer := gains.buffer.trans draws.buffer
  status := gains.status.trans draws.status
  learned := gains.learned.trans draws.learned

theorem level (draws : start.Draws s) : s.trail.level = start.trail.level := by
  simp only [Trail.level, draws.starts]

end Draws

section Rewatch

variable {start s : Solver} {key : ClauseKey} {c : WatchedClause} {f : WatchedClause → WatchedClause}

theorem Coherent.rewatch (coherent : s.Coherent) (live : s.clauses.store.get key = .ok c)
    (keeps : ∀ d, (f d).key = d.key) (shaped : (f c).WellFormed (Literal.Below s.atoms.size))
    (perm : (f c).clause.Perm c.clause)
    (front : c.first ∈ s.trail.literals → (f c).first = c.first) :
    (s.modifyStore (·.modify key f)).Coherent where
  agrees := coherent.agrees
  trail := coherent.trail
  justified := by
    refine coherent.justified.store fun other d live' isTrue _ => ?_
    by_cases same : other = key
    · subst same
      obtain rfl := Except.ok.inj (live.symm.trans live')
      exact ⟨f c, (ClauseStore.get_modify live (keeps c) _ _).2 (.inl ⟨rfl, rfl⟩), front isTrue, perm⟩
    · exact ⟨d, (ClauseStore.get_modify live (keeps c) _ _).2 (.inr ⟨same, live'⟩), rfl, .refl _⟩
  orderly := coherent.orderly.modify live keeps shaped
  offering := coherent.offering
  marked := coherent.marked
  bounded := coherent.bounded

theorem Draws.rewatch (draws : start.Draws s) (live : s.clauses.store.get key = .ok c)
    (keeps : ∀ d, (f d).key = d.key) (perm : (f c).clause.Perm c.clause) :
    start.Draws (s.modifyStore (·.modify key f)) :=
  { draws with
    rearranged := draws.rearranged.trans (ClauseStore.rearranged_modify live (keeps c) perm) }

theorem Coherent.modifyWatches (coherent : s.Coherent) (f : WatchLists → WatchLists) :
    (s.modifyWatches f).Coherent :=
  { coherent with }

theorem Draws.modifyWatches (draws : start.Draws s) (f : WatchLists → WatchLists) :
    start.Draws (s.modifyWatches f) :=
  { draws with }

end Rewatch

section Visit

variable {s : Solver} {l : Literal}

theorem imply_gains (coherent : s.Coherent) (unvalued : s.atoms.Unvalued l.natAbs)
    (key : ClauseKey) : s.Gains (s.imply l key) l (.propagation key) ∧
      (s.imply l key).trail = s.trail.push l := by
  obtain ⟨journal, noted⟩ := s.note_eq .trace .propagation fun _ => l.text ++ " from " ++ key.text
  have coherent' : ({ s with journal } : Solver).Coherent := { coherent with }
  obtain ⟨s', answer, gains, trail⟩ := assign_of_unvalued coherent' (.propagation key) unvalued
  unfold imply
  simp only [noted]
  rw [answer]
  exact ⟨{ gains with }, trail⟩

end Visit

/-- A walk along the list of `-l`, for the literal `l` at the head, that has come to position `i`.
The clauses which are not pending are guarded against `l` too. -/
structure Walking (start : Solver) (l : Literal) (w : Walk) (i : Nat) : Prop where
  origin : start.Coherent
  draws : start.Draws w.solver
  coherent : w.solver.Coherent
  head : w.solver.trail.head = start.trail.head
  now : w.solver.trail.next? = some l
  lists : ∀ m, m ≠ -l →
    w.solver.clauses.store.Lists m (w.solver.clauses.watches.watchers m).toList
  taken : w.solver.clauses.watches.watchers (-l) = #[]
  length_le : w.length ≤ w.list.size
  listed : w.solver.clauses.store.Lists (-l) (w.list.toList.take w.length)
  guarded : w.solver.clauses.store.Guarded w.solver.trail fun _ => False
  visited : ∀ key c, w.solver.clauses.store.get key = .ok c → ¬w.Pending i key →
    w.solver.trail.GuardsClause (w.solver.trail.head + 1) c

def Conflicting (s : Solver) (key : ClauseKey) : Prop :=
  ∃ c, s.clauses.store.get key = .ok c ∧ (∀ m ∈ c.clause, -m ∈ s.trail.literals) ∧
    ∃ m ∈ c.clause, ∃ i : Nat, s.trail.literals[i]? = some (-m) ∧
      s.trail.levelAt i = s.trail.level

namespace Walking

variable {start s : Solver} {l : Literal} {list : Array ClauseKey} {length i : Nat} {key : ClauseKey}

theorem mem (walking : Walking start l ⟨s, list, length⟩ i) : l ∈ s.trail.literals :=
  Array.mem_of_getElem? walking.now

theorem level_head (walking : Walking start l ⟨s, list, length⟩ i) :
    s.trail.levelAt s.trail.head = s.trail.level :=
  Trail.levelAt_eq_level walking.coherent.trail.drawn

theorem mirrors (walking : Walking start l ⟨s, list, length⟩ i) :
    Walk.Mirrors l ⟨s, list, length⟩ :=
  ⟨walking.lists, walking.taken, walking.length_le, walking.listed⟩

theorem live (walking : Walking start l ⟨s, list, length⟩ i) (inside : i < length)
    (found : list[i]? = some key) :
    ∃ c, s.clauses.store.get key = .ok c ∧ c.Watches (-l) ∧
      c.WellFormed (Literal.Below s.atoms.size) := by
  obtain ⟨c, live, watches⟩ := walking.mirrors.live inside found
  exact ⟨c, live, watches, walking.coherent.orderly.wellFormed.shaped key c live⟩

theorem front (walking : Walking start l ⟨s, list, length⟩ i) {c : WatchedClause}
    (wellFormed : c.WellFormed (Literal.Below s.atoms.size)) (watches : c.Watches (-l))
    (isTrue : c.first ∈ s.trail.literals) : (c.turn l.natAbs).first = c.first := by
  unfold WatchedClause.turn
  split
  · rename_i atom
    have same : c.first = -l := wellFormed.eq_of_atom wellFormed.first_mem
      (wellFormed.watches_mem watches) (atom.trans (Int.natAbs_neg l).symm)
    exact absurd (same ▸ isTrue) (walking.coherent.agrees.not_neg_mem walking.mem)
  · rfl

theorem ne_pending (walking : Walking start l ⟨s, list, length⟩ i) (inside : i < length)
    (found : list[i]? = some key) {other : ClauseKey} (apart : other ≠ key)
    (pending : Walk.Pending ⟨s, list, length⟩ i other) (s' : Solver) :
    Walk.Pending ⟨s', list.swapIfInBounds i (length - 1), length - 1⟩ i other := by
  obtain ⟨j, le, before, located⟩ := pending
  have length_le : length ≤ list.size := walking.length_le
  obtain ⟨last, atLast⟩ : ∃ last, list[length - 1]? = some last :=
    ⟨_, Array.getElem?_eq_getElem (by omega)⟩
  have at_i : j ≠ i := by
    rintro rfl
    exact apart (Option.some.inj (located.symm.trans found))
  have swapped := getElem?_swapIfInBounds found atLast
  change j < length at before
  change list[j]? = some other at located
  by_cases isLast : j = length - 1
  · refine ⟨i, Nat.le_refl i, ?_, ?_⟩
    · change i < length - 1
      omega
    · rw [isLast, atLast] at located
      simp only [swapped, if_neg (show i ≠ length - 1 by omega), if_true, located]
  · refine ⟨j, le, ?_, ?_⟩
    · change j < length - 1
      omega
    · simp only [swapped, if_neg isLast, if_neg at_i, located]

theorem guards_moved (walking : Walking start l ⟨s, list, length⟩ i) {c c' : WatchedClause}
    (live : s.clauses.store.get key = .ok c) (watches : c.Watches (-l)) {fresh : Literal}
    (moved : c.Moves c' (-l) fresh) (apart : c.other (-l).natAbs ≠ -l)
    (watched : ∀ m, c.Watches m ↔ m = c.other (-l).natAbs ∨ m = -l)
    (notFalse : -fresh ∉ s.trail.literals) : s.trail.GuardsClause (s.trail.head + 1) c' := by
  intro w o first second different
  rcases (moved.watches w).1 first with rfl | rfl
  · refine Trail.Guards.succ (fun j before found => ?_) fun found => ?_
    · obtain ⟨k, located, -⟩ := walking.guarded key c live id _ _ ((watched _).2 (.inl rfl))
        watches apart j before found
      exact absurd (Array.mem_of_getElem? located)
        (walking.coherent.agrees.not_neg_mem walking.mem)
    · have same := Option.some.inj (found.symm.trans walking.now)
      exact absurd (Int.neg_eq_comm.1 same).symm apart
  · exact .of_not_mem notFalse

theorem moved (walking : Walking start l ⟨s, list, length⟩ i) (inside : i < length)
    (found : list[i]? = some key) {c : WatchedClause} (live : s.clauses.store.get key = .ok c)
    (watches : c.Watches (-l)) {k : Nat} (moves : c.replacement? s.atoms.value = some k) :
    Walking start l
      ⟨(s.modifyStore (·.modify key fun c => (c.turn l.natAbs).pointTo k)).modifyWatches
        (·.watch (c.literalAt k) key), list.swapIfInBounds i (length - 1), length - 1⟩ i := by
  have wellFormed := walking.coherent.orderly.wellFormed.shaped key c live
  obtain ⟨shaped, moved, notFalse⟩ := wellFormed.moves watches moves
  have watched (m : Literal) := wellFormed.watches_iff (m := m) watches
  have apart := wellFormed.other_ne watches
  have nonzero := (wellFormed.known _ moved.fresh_mem).1
  have open_or_true : -c.literalAt k ∉ s.trail.literals := fun isFalse =>
    notFalse ((walking.coherent.agrees.literalValue_eq_false_iff nonzero).2 isFalse)
  simp only [Int.natAbs_neg] at shaped moved
  generalize c.literalAt k = fresh at moved open_or_true ⊢
  let f : WatchedClause → WatchedClause := fun c => (c.turn l.natAbs).pointTo k
  have keeps (d : WatchedClause) : (f d).key = d.key := d.key_turn l.natAbs
  have guards : s.trail.GuardsClause (s.trail.head + 1) (f c) :=
    walking.guards_moved live watches moved apart watched open_or_true
  have front (isTrue : c.first ∈ s.trail.literals) : (f c).first = c.first :=
    walking.front wellFormed watches isTrue
  have mirrors := walking.mirrors.moved inside found live wellFormed watches (keeps c) moved
  refine {
    origin := walking.origin
    draws := (walking.draws.rewatch live keeps moved.perm).modifyWatches (·.watch fresh key)
    coherent := (walking.coherent.rewatch live keeps shaped moved.perm front).modifyWatches
      (·.watch fresh key)
    head := walking.head
    now := walking.now
    lists := mirrors.lists
    taken := mirrors.taken
    length_le := mirrors.length_le
    listed := mirrors.listed
    guarded := walking.guarded.modify live (keeps c) fun _ => guards.le (Nat.le_succ _)
    visited := fun other d live' pending => ?_ }
  rcases (ClauseStore.get_modify live (keeps c) other d).1 live' with ⟨rfl, rfl⟩ | ⟨ne, before⟩
  · exact guards
  · exact walking.visited other d before fun was =>
      pending (walking.ne_pending inside found ne was _)

theorem watches_turn (walking : Walking start l ⟨s, list, length⟩ i) {c : WatchedClause}
    (live : s.clauses.store.get key = .ok c) (watches : c.Watches (-l)) (m : Literal) :
    (c.turn l.natAbs).Watches m ↔ c.Watches m := by
  have wellFormed := walking.coherent.orderly.wellFormed.shaped key c live
  have turned := wellFormed.turn_watches watches m
  rwa [Int.natAbs_neg] at turned

theorem turned (walking : Walking start l ⟨s, list, length⟩ i) (inside : i < length)
    (found : list[i]? = some key) {c : WatchedClause} (live : s.clauses.store.get key = .ok c)
    (watches : c.Watches (-l)) :
    Walking start l ⟨s.modifyStore (·.modify key (·.turn l.natAbs)), list, length⟩ i := by
  have wellFormed := walking.coherent.orderly.wellFormed.shaped key c live
  have same := walking.watches_turn live watches
  let f : WatchedClause → WatchedClause := (·.turn l.natAbs)
  have keeps (d : WatchedClause) : (f d).key = d.key := d.key_turn l.natAbs
  have perm : (f c).clause.Perm c.clause := c.turn_perm l.natAbs
  have mirrors := walking.mirrors.turned live wellFormed watches
  refine {
    origin := walking.origin
    draws := walking.draws.rewatch live keeps perm
    coherent := walking.coherent.rewatch live keeps (wellFormed.turn _) perm
      (walking.front wellFormed watches)
    head := walking.head
    now := walking.now
    lists := mirrors.lists
    taken := mirrors.taken
    length_le := mirrors.length_le
    listed := mirrors.listed
    guarded := walking.guarded.modify live (keeps c) fun counts =>
      (walking.guarded key c live counts).congr fun m => (same m).1
    visited := fun other d live' done => ?_ }
  rcases (ClauseStore.get_modify live (keeps c) other d).1 live' with ⟨rfl, rfl⟩ | ⟨-, before⟩
  · exact absurd ⟨i, Nat.le_refl i, inside, found⟩ done
  · exact walking.visited other d before done

theorem succ (walking : Walking start l ⟨s, list, length⟩ i) (found : list[i]? = some key)
    (guards : ∀ c, s.clauses.store.get key = .ok c →
      s.trail.GuardsClause (s.trail.head + 1) c) : Walking start l ⟨s, list, length⟩ (i + 1) :=
  { walking with
    visited := fun other d live done => by
      by_cases same : other = key
      · exact guards d (same ▸ live)
      · refine walking.visited other d live fun pending => done ?_
        obtain ⟨j, le, before, located⟩ := pending
        refine ⟨j, Nat.lt_of_le_of_ne le ?_, before, located⟩
        rintro rfl
        exact same (Option.some.inj (located.symm.trans found)) }

theorem guards_kept (walking : Walking start l ⟨s, list, length⟩ i) {c : WatchedClause}
    (watched : ∀ m, c.Watches m → m = c.first ∨ m = -l) (isTrue : c.first ∈ s.trail.literals) :
    s.trail.GuardsClause (s.trail.head + 1) c := by
  intro w o first second different
  rcases watched w first with rfl | rfl
  · exact .of_not_mem (walking.coherent.agrees.not_neg_mem isTrue)
  · intro j before falsified
    rw [Int.neg_neg] at falsified
    obtain rfl := walking.coherent.agrees.distinct _ _ _ _ falsified walking.now rfl
    rcases watched o second with rfl | rfl
    · obtain ⟨k, located⟩ := Array.getElem?_of_mem isTrue
      exact ⟨k, located, (s.trail.levelAt_le_level k).trans walking.level_head.ge⟩
    · exact absurd rfl different

theorem gained (walking : Walking start l ⟨s, list, length⟩ i) {m : Literal} {s' : Solver}
    (gains : s.Gains s' m (.propagation key)) (trail : s'.trail = s.trail.push m) (nonzero : m ≠ 0)
    (unvalued : s.atoms.assignment? m.natAbs = none) {c : WatchedClause}
    (live : s.clauses.store.get key = .ok c)
    (implies : s'.trail.Implies s.trail.literals.size c m) (implied : start.Implied m) :
    Walking start l ⟨s', list, length⟩ i := by
  have head_le := walking.coherent.trail.head_le
  have head_lt : s.trail.head < s.trail.literals.size :=
    (Array.getElem?_eq_some_iff.1 walking.now).1
  have clauses : s'.clauses = s.clauses := gains.clauses
  have mirrors := walking.mirrors.congr clauses
  have outside : s.trail.literals.size ∉ s'.trail.starts := by
    rw [trail]
    exact walking.coherent.trail.size_not_mem_starts
  exact {
    origin := walking.origin
    draws := walking.draws.gain gains trail implied
    coherent := walking.coherent.gain gains nonzero unvalued ⟨outside, c, live, implies⟩
    head := gains.head.trans walking.head
    now := by
      simp only [Trail.next?, gains.head]
      exact gains.extends_trail.getElem?_eq_some walking.now
    lists := mirrors.lists
    taken := mirrors.taken
    length_le := mirrors.length_le
    listed := mirrors.listed
    guarded := by
      simp only [clauses]
      exact walking.guarded.extend gains.extends_trail gains.head head_le
    visited := by
      simp only [clauses, gains.head]
      exact fun other d live done =>
        (walking.visited other d live done).extend gains.extends_trail head_lt }

theorem journal (walking : Walking start l ⟨s, list, length⟩ i) (journal : Journal) :
    Walking start l ⟨{ s with journal }, list, length⟩ i :=
  { walking with
    draws := { walking.draws with }
    coherent := { walking.coherent with } }

section Unmoved

variable {c : WatchedClause}

theorem others (walking : Walking start l ⟨s, list, length⟩ i)
    (live : s.clauses.store.get key = .ok c) (watches : c.Watches (-l))
    (absent : c.replacement? s.atoms.value = none) {m : Literal} (member : m ∈ c.clause)
    (other : m ≠ c.other l.natAbs) : -m ∈ s.trail.literals := by
  have wellFormed := walking.coherent.orderly.wellFormed.shaped key c live
  have agrees := walking.coherent.agrees
  have isFalse : s.atoms.literalValue (-l) = some false :=
    agrees.literalValue_of_neg_mem (by rw [Int.neg_neg]; exact walking.mem)
  rw [← Int.natAbs_neg l] at other
  exact (agrees.literalValue_eq_false_iff (wellFormed.known m member).1).1
    (wellFormed.false_of_replacement?_none watches absent isFalse member other)

theorem conflicting (walking : Walking start l ⟨s, list, length⟩ i)
    (live : s.clauses.store.get key = .ok c) (member : -l ∈ c.clause)
    (false : ∀ m ∈ c.clause, -m ∈ s.trail.literals) : s.Conflicting key := by
  refine ⟨c, live, false, -l, member, s.trail.head, ?_, walking.level_head⟩
  rw [Int.neg_neg]
  exact walking.now

theorem implies (walking : Walking start l ⟨s, list, length⟩ i) (member : -l ∈ c.clause)
    (false : ∀ m ∈ c.clause, m ≠ c.first → -m ∈ s.trail.literals) :
    (s.trail.push c.first).Implies s.trail.literals.size c c.first := by
  have kept := Trail.Extends.push s.trail c.first
  refine ⟨rfl, fun m inClause other => ?_, -l, member, s.trail.head,
    (Array.getElem?_eq_some_iff.1 walking.now).1, ?_, ?_⟩
  · obtain ⟨j, located⟩ := Array.getElem?_of_mem (false m inClause other)
    exact ⟨j, (Array.getElem?_eq_some_iff.1 located).1, kept.getElem?_eq_some located⟩
  · rw [Int.neg_neg]
    exact kept.getElem?_eq_some walking.now
  · refine walking.level_head.trans (Trail.levelAt_eq_level fun start member => ?_).symm
    exact (walking.coherent.trail.inside start member).le

theorem implied (walking : Walking start l ⟨s, list, length⟩ i)
    (live : s.clauses.store.get key = .ok c) (front : c.first ∈ c.clause)
    (false : ∀ m ∈ c.clause, m ≠ c.first → -m ∈ s.trail.literals) : start.Implied c.first := by
  have wellFormed := walking.origin.orderly.wellFormed
  obtain ⟨d, before, perm⟩ := walking.draws.rearranged.back key c live
  have stored : d ∈ start.clauses.store.longClauses := by
    rw [wellFormed.mem_longClauses, wellFormed.key_eq before, before]
  refine .unit (List.mem_map_of_mem stored) (perm.mem_iff.1 front) fun m inClause other => ?_
  exact walking.draws.implied _ (false m (perm.mem_iff.2 inClause) other)

theorem asserted (walking : Walking start l ⟨s, list, length⟩ i) (found : list[i]? = some key)
    (live : s.clauses.store.get key = .ok c) (member : -l ∈ c.clause)
    (watched : ∀ m, c.Watches m → m = c.first ∨ m = -l)
    (unvalued : s.atoms.assignment? c.first.natAbs = none)
    (false : ∀ m ∈ c.clause, m ≠ c.first → -m ∈ s.trail.literals) :
    Walking start l ⟨s.imply c.first key, list, length⟩ (i + 1) := by
  have wellFormed := walking.coherent.orderly.wellFormed.shaped key c live
  have known := wellFormed.known _ wellFormed.first_mem
  obtain ⟨gains, trail⟩ := imply_gains walking.coherent ⟨known.2, unvalued⟩ key
  have after := walking.gained gains trail known.1 unvalued live
    (trail ▸ walking.implies member false) (walking.implied live wellFormed.first_mem false)
  refine after.succ found fun d live' => ?_
  rw [gains.clauses, live] at live'
  obtain rfl := Except.ok.inj live'
  refine after.guards_kept watched ?_
  rw [gains.literals]
  exact Array.mem_push_self

end Unmoved

theorem unmoved (walking : Walking start l ⟨s, list, length⟩ i) (inside : i < length)
    (found : list[i]? = some key) {c : WatchedClause} (live : s.clauses.store.get key = .ok c)
    (watches : c.Watches (-l)) (absent : c.replacement? s.atoms.value = none) :
    (∃ s', s.visit l key = (.kept, s') ∧ Walking start l ⟨s', list, length⟩ (i + 1)) ∨
      ∃ s', s.visit l key = (.conflict, s') ∧ Walking start l ⟨s', list, length⟩ i ∧
        s'.Conflicting key := by
  have wellFormed := walking.coherent.orderly.wellFormed.shaped key c live
  have agrees := walking.coherent.agrees
  have nonzero := (wellFormed.known _ (wellFormed.other_mem l.natAbs)).1
  have turned := walking.turned inside found live watches
  have perm := c.turn_perm l.natAbs
  have front : (c.turn l.natAbs).first = c.other l.natAbs := by
    have turned := (wellFormed.turn_watched watches).1
    rwa [Int.natAbs_neg] at turned
  have watched (m : Literal) (watches' : (c.turn l.natAbs).Watches m) :
      m = (c.turn l.natAbs).first ∨ m = -l := by
    rw [front, ← Int.natAbs_neg l]
    exact (wellFormed.watches_iff watches).1 ((walking.watches_turn live watches m).1 watches')
  have member : -l ∈ (c.turn l.natAbs).clause :=
    perm.mem_iff.2 (wellFormed.watches_mem watches)
  have false (m : Literal) (inClause : m ∈ (c.turn l.natAbs).clause)
      (other : m ≠ (c.turn l.natAbs).first) : -m ∈ s.trail.literals :=
    walking.others live watches absent (perm.mem_iff.1 inClause) (front ▸ other)
  have live' : (s.clauses.store.modify key (·.turn l.natAbs)).get key = .ok (c.turn l.natAbs) :=
    (ClauseStore.get_modify (f := (·.turn l.natAbs)) live (c.key_turn _) _ _).2 (.inl ⟨rfl, rfl⟩)
  rw [visit_unmoved walking.coherent.orderly.wellFormed live watches absent]
  rw [← front] at nonzero ⊢
  -- All literals but the one in front are false, so its value says what becomes of the clause.
  cases value : s.atoms.literalValue (c.turn l.natAbs).first with
  | some isTrue =>
    cases isTrue with
    | true =>
      refine .inl ⟨_, rfl, turned.succ found fun d live'' => ?_⟩
      obtain rfl := Except.ok.inj (live'.symm.trans live'')
      exact turned.guards_kept watched ((agrees.literalValue_eq_true_iff nonzero).1 value)
    | false =>
      refine .inr ⟨_, rfl, ?_⟩
      obtain ⟨journal, noted⟩ := note_eq (s.modifyStore (·.modify key (·.turn l.natAbs))) .trace
        .propagation fun _ => "Conflict on " ++ key.text ++ " from " ++ l.text
      rw [noted]
      have after := turned.journal journal
      refine ⟨after, after.conflicting live' member fun m inClause => ?_⟩
      by_cases other : m = (c.turn l.natAbs).first
      · rw [other]
        exact (agrees.literalValue_eq_false_iff nonzero).1 value
      · exact false m inClause other
  | none =>
    have unvalued : s.atoms.assignment? (c.turn l.natAbs).first.natAbs = none := by
      rwa [AtomTable.literalValue_eq, Option.map_eq_none_iff] at value
    exact .inl ⟨_, rfl, turned.asserted found live' member watched unvalued false⟩

theorem visit (walking : Walking start l ⟨s, list, length⟩ i) (inside : i < length)
    (found : list[i]? = some key) :
    (∃ s', s.visit l key = (.moved, s') ∧
        Walking start l ⟨s', list.swapIfInBounds i (length - 1), length - 1⟩ i) ∨
      (∃ s', s.visit l key = (.kept, s') ∧ Walking start l ⟨s', list, length⟩ (i + 1)) ∨
      ∃ s', s.visit l key = (.conflict, s') ∧ Walking start l ⟨s', list, length⟩ i ∧
        s'.Conflicting key := by
  obtain ⟨c, live, watches, wellFormed⟩ := walking.live inside found
  cases moves : c.replacement? s.atoms.value with
  | some k =>
    have visited := visit_moved walking.coherent.orderly.wellFormed live watches moves
    exact .inl ⟨_, visited, walking.moved inside found live watches moves⟩
  | none => exact .inr (walking.unmoved inside found live watches moves)

end Walking

theorem walk_spec {start : Solver} {l : Literal} {w : Walk} {i : Nat}
    (walking : Walking start l w i) :
    (∃ w' j, walk l w i = (.ok .complete, w') ∧ Walking start l w' j ∧ w'.length ≤ j) ∨
      ∃ key w' j, walk l w i = (.ok (.conflict key), w') ∧ Walking start l w' j ∧
        w'.solver.Conflicting key := by
  fun_induction walk l w i with
  | case1 i s list length inside absent =>
    have length_le : length ≤ list.size := walking.length_le
    exact absurd (Array.getElem?_eq_none_iff.1 absent) (by omega)
  | case2 i s list length inside key found s' answer ih =>
    refine ih ?_
    rcases walking.visit inside found with ⟨_, visited, after⟩ | ⟨_, visited, -⟩ | ⟨_, visited, -⟩ <;>
      cases answer.symm.trans visited
    exact after
  | case3 i s list length inside key found s' answer ih =>
    refine ih ?_
    rcases walking.visit inside found with ⟨_, visited, -⟩ | ⟨_, visited, after⟩ | ⟨_, visited, -⟩ <;>
      cases answer.symm.trans visited
    exact after
  | case4 i s list length inside key found s' answer =>
    rcases walking.visit inside found with ⟨_, visited, -⟩ | ⟨_, visited, -⟩ | ⟨_, visited, after⟩ <;>
      cases answer.symm.trans visited
    exact .inr ⟨key, _, i, rfl, after⟩
  | case5 i s list length inside key found failure s' answer =>
    rcases walking.visit inside found with ⟨_, visited, -⟩ | ⟨_, visited, -⟩ | ⟨_, visited, -⟩ <;>
      cases answer.symm.trans visited
  | case6 i s list length outside =>
    exact .inl ⟨_, i, rfl, walking, Nat.le_of_not_lt outside⟩

structure Watched (s : Solver) : Prop where
  coherent : s.Coherent
  mirrors : s.clauses.Mirrors
  guarded : s.clauses.store.Guarded s.trail fun _ => False

theorem Watched.walking {s : Solver} (watched : s.Watched) {l : Literal}
    (next : s.trail.next? = some l) :
    Walking s l ⟨s.modifyWatches fun w => (w.take (-l)).2, s.clauses.watches.watchers (-l),
      (s.clauses.watches.watchers (-l)).size⟩ 0 := by
  have mirrors := Walk.Mirrors.start watched.mirrors l
  refine {
    origin := watched.coherent
    draws := (Draws.refl s).modifyWatches fun w => (w.take (-l)).2
    coherent := watched.coherent.modifyWatches fun w => (w.take (-l)).2
    head := rfl
    now := next
    lists := mirrors.lists
    taken := mirrors.taken
    length_le := mirrors.length_le
    listed := mirrors.listed
    guarded := watched.guarded
    visited := fun key c live done w o first second apart => ?_ }
  refine Trail.Guards.succ (watched.guarded key c live id w o first second apart) fun found => ?_
  have same : w = -l := Int.neg_eq_comm.1 (Option.some.inj (found.symm.trans next)) |>.symm
  obtain ⟨j, located⟩ := Array.getElem?_of_mem (watched.mirrors.mem_iff.2 ⟨c, live, same ▸ first⟩)
  exact absurd ⟨j, Nat.zero_le j, (Array.getElem?_eq_some_iff.1 located).1, located⟩ done

theorem Walking.restored {start s : Solver} {l : Literal} {list : Array ClauseKey} {length i : Nat}
    (walking : Walking start l ⟨s, list, length⟩ i) :
    (s.modifyWatches (·.restore (-l) (list.shrink length))).Watched where
  coherent := walking.coherent.modifyWatches _
  mirrors := walking.mirrors.restored
  guarded := walking.guarded

def pastHead (s : Solver) : Solver := { s with trail := s.trail.advance }

theorem Coherent.pastHead {s : Solver} (coherent : s.Coherent)
    (waiting : s.trail.head < s.trail.literals.size) : s.pastHead.Coherent :=
  { coherent with
    agrees := { coherent.agrees with }
    trail := coherent.trail.advance waiting
    justified := fun i l found => by
      obtain ⟨source, known, justifies⟩ := coherent.justified i l found
      refine ⟨source, known, ?_⟩
      cases source with
      | decision => exact justifies
      | unit key => exact justifies
      | propagation key =>
        obtain ⟨inner, c, live, implies⟩ := justifies
        exact ⟨inner, c, live, { implies with }⟩ }

theorem propagateLiteral_spec {s : Solver} (watched : s.Watched) {l : Literal}
    (next : s.trail.next? = some l) :
    ∃ s', s.Draws s' ∧ s'.Watched ∧ s'.trail.head = s.trail.head ∧
      ((s.propagateLiteral l = (.ok .complete, s') ∧ s'.pastHead.Watched) ∨
        ∃ key, s.propagateLiteral l = (.ok (.conflict key), s') ∧ s'.Conflicting key) := by
  rcases walk_spec (watched.walking next) with
    ⟨⟨s', list, length⟩, j, ended, walking, all⟩ | ⟨key, ⟨s', list, length⟩, j, ended, walking, false⟩
  · have restored := walking.restored
    refine ⟨_, walking.draws.modifyWatches (·.restore (-l) (list.shrink length)), restored,
      walking.head, .inl ⟨propagateLiteral_eq ended, ?_⟩⟩
    have waiting : s'.trail.head < s'.trail.literals.size :=
      (Array.getElem?_eq_some_iff.1 walking.now).1
    refine ⟨restored.coherent.pastHead waiting, restored.mirrors, fun key c live _ => ?_⟩
    refine walking.visited key c live ?_
    rintro ⟨k, le, before, -⟩
    exact absurd (all.trans le) (Nat.not_le.2 before)
  · exact ⟨_, walking.draws.modifyWatches (·.restore (-l) (list.shrink length)), walking.restored,
      walking.head, .inr ⟨key, propagateLiteral_eq ended, false⟩⟩

theorem propagate_spec {s : Solver} (watched : s.Watched) :
    ∃ s', s.Draws s' ∧ s'.Watched ∧
      ((s.propagate = (.ok .complete, s') ∧ s'.trail.head = s'.trail.literals.size) ∨
        ∃ key, s.propagate = (.ok (.conflict key), s') ∧ s'.Conflicting key) := by
  -- Along the recursion, one literal at the head after the other.
  fun_induction propagate s with
  | case1 s none =>
    have outside := Array.getElem?_eq_none_iff.1 none
    exact ⟨s, .refl s, watched, .inl ⟨rfl, watched.coherent.trail.head_le.antisymm outside⟩⟩
  | case2 s l next after answer ih =>
    obtain ⟨s', draws, watched', head, ⟨ended, past⟩ | ⟨key, ended, -⟩⟩ :=
      propagateLiteral_spec watched next
    · cases answer.symm.trans ended
      obtain ⟨s'', draws', rest⟩ := ih past
      refine ⟨s'', ?_, rest⟩
      have advanced : s.Draws after.pastHead :=
        { draws with extends_trail := { draws.extends_trail with } }
      exact advanced.trans draws' watched.coherent.orderly.wellFormed
        past.coherent.orderly.wellFormed
    · cases answer.symm.trans ended
  | case3 s l next result after notComplete answer =>
    obtain ⟨s', draws, watched', head, ⟨ended, -⟩ | ⟨key, ended, false⟩⟩ :=
      propagateLiteral_spec watched next
    · cases answer.symm.trans ended
      exact (notComplete rfl).elim
    · cases answer.symm.trans ended
      exact ⟨_, draws, watched', .inr ⟨key, rfl, false⟩⟩

section Invariant

variable {s s' : Solver} {formula : List Clause} {exempt : ClauseKey → Prop}

theorem Entailed.draw (entailed : s.Entailed formula) (draws : s.Draws s') (coherent : s.Coherent) :
    s'.Entailed formula where
  long key c live := by
    obtain ⟨d, before, perm⟩ := draws.rearranged.back key c live
    exact (entailed.long key d before).subset perm.symm.subset
  originalUnits := draws.rearranged.originalUnits ▸ entailed.originalUnits
  additionUnits := draws.rearranged.additionUnits ▸ entailed.additionUnits
  zero i l found zero := by
    by_cases inside : i < s.trail.literals.size
    · rw [draws.extends_trail.getElem? inside] at found
      rw [draws.extends_trail.levels i inside] at zero
      exact entailed.zero i l found zero
    -- The literal was drawn, and at level zero everything it was drawn from is entailed.
    · have starts (start : Nat) (member : start ∈ s'.trail.starts) : start ≤ i := by
        rw [draws.starts] at member
        exact ((coherent.trail.inside start member).trans_le (Nat.le_of_not_lt inside)).le
      have level : s.trail.level = 0 := by
        rw [← draws.level, ← Trail.levelAt_eq_level starts, zero]
      refine (draws.implied l (Array.mem_of_getElem? found)).entails ?_ ?_ ?_
      · intro m given
        obtain ⟨j, located⟩ := Array.getElem?_of_mem (Array.mem_toList_iff.1 given)
        exact entailed.zero j m located
          (Nat.le_zero.1 ((s.trail.levelAt_le_level j).trans level.le))
      · intro c member
        obtain ⟨d, stored, rfl⟩ := List.mem_map.1 member
        exact entailed.long _ d (coherent.orderly.wellFormed.mem_longClauses.1 stored)
      · intro c member m inClause
        obtain ⟨d, stored, rfl⟩ := List.mem_map.1 member
        have live := coherent.orderly.wellFormed.mem_longClauses.1 stored
        exact ((coherent.orderly.wellFormed.shaped _ d live).known m inClause).1
  learned := draws.learned ▸ entailed.learned
  refuted := draws.status ▸ entailed.refuted

theorem Covers.rearrange (covered : s.Covers formula)
    (rearranged : s.clauses.store.Rearranged s'.clauses.store) (status : s'.status = s.status) :
    s'.Covers formula := by
  unfold Covers ClauseStore.originalClauses at covered ⊢
  rw [status]
  refine covered.imp_right fun parts c member => ?_
  obtain ⟨d, stored, subset⟩ := parts c member
  simp only [List.mem_append, List.mem_map, Array.mem_toList_iff] at stored ⊢
  rcases stored with ⟨l, unit, rfl⟩ | ⟨e, stored, rfl⟩
  · exact ⟨[l], .inl ⟨l, rearranged.originalUnits ▸ unit, rfl⟩, subset⟩
  · obtain ⟨i, found⟩ := Array.getElem?_of_mem stored
    obtain ⟨e', live, perm⟩ := rearranged.forth (.original i) e (ClauseStore.get_original.2 found)
    exact ⟨e'.clause, .inr ⟨e', Array.mem_of_getElem? (ClauseStore.get_original.1 live), rfl⟩,
      fun l member => subset (perm.subset member)⟩

theorem Grounded.draw (grounded : s.Grounded exempt) (draws : s.Draws s') : s'.Grounded exempt :=
  grounded.extend draws.rearranged.originalUnits draws.rearranged.additionUnits draws.extends_trail

theorem Invariant.watched (invariant : s.Invariant formula fun _ => False) : s.Watched :=
  ⟨invariant.coherent, invariant.mirrors, invariant.guarded⟩

theorem Invariant.draw (invariant : s.Invariant formula fun _ => False) (draws : s.Draws s')
    (watched : s'.Watched) : s'.Invariant formula fun _ => False where
  coherent := watched.coherent
  mirrors := watched.mirrors
  guarded := watched.guarded
  grounded := invariant.grounded.draw draws
  entailed := invariant.entailed.draw draws invariant.coherent
  covered := invariant.covered.rearrange draws.rearranged draws.status

end Invariant

end Solver

end ClauseLearning
