import ClauseLearning.Proofs.Passes
import Mathlib.Data.Finset.Card
import Mathlib.Data.Nat.Digits.Lemmas

/-!
Progress between restarts. What grows is the profile of the levels, which says how many literals each
level has, from level zero on: a decision adds to the last levels, and a lesson adds a literal to
the level that the search goes back to, at the cost of later levels only. So no profile comes twice
before a restart, and there are only so many.
-/

namespace ClauseLearning

namespace Trail

def positions (t : Trail) (n : Nat) : Finset Nat :=
  {i ∈ Finset.range t.literals.size | t.levelAt i = n}

structure RisesAt (n : Nat) (t t' : Trail) : Prop where
  lower : ∀ m < n, t'.positions m = t.positions m
  more : t.positions n ⊂ t'.positions n

variable {t t' t'' : Trail} {n : Nat}

theorem mem_positions {i : Nat} :
    i ∈ t.positions n ↔ i < t.literals.size ∧ t.levelAt i = n := by
  simp [positions]

theorem Extends.rises (extended : t.Extends t') (longer : t.literals.size < t'.literals.size) :
    t.RisesAt (t'.levelAt t.literals.size) t' := by
  have kept {m : Nat} : t.positions m ⊆ t'.positions m := by
    intro i member
    obtain ⟨inside, level⟩ := mem_positions.1 member
    exact mem_positions.2 ⟨inside.trans longer, (extended.levels i inside).trans level⟩
  constructor
  · intro m below
    refine Finset.Subset.antisymm (fun i member => ?_) kept
    obtain ⟨inside, level⟩ := mem_positions.1 member
    have old : i < t.literals.size := by
      by_contra new
      exact absurd (t'.levelAt_mono (Nat.le_of_not_lt new)) (Nat.not_le.2 (level ▸ below))
    exact mem_positions.2 ⟨old, (extended.levels i old).symm.trans level⟩
  · refine (Finset.ssubset_iff_of_subset kept).2 ⟨t.literals.size, ?_, ?_⟩
    · exact mem_positions.2 ⟨longer, rfl⟩
    · exact fun member => absurd (mem_positions.1 member).1 (Nat.lt_irrefl _)

theorem RisesAt.congr (rises : t'.RisesAt n t'')
    (same : ∀ m ≤ n, t'.positions m = t.positions m) : t.RisesAt n t'' where
  lower m below := (rises.lower m below).trans (same m below.le)
  more := same n le_rfl ▸ rises.more

theorem Extends.positions_of_lt (extended : t.Extends t') (wellFormed : t.WellFormed)
    (starts : t'.starts = t.starts) (below : n < t'.level) : t'.positions n = t.positions n := by
  ext i
  simp only [mem_positions]
  constructor
  · rintro ⟨inside, level⟩
    have old : i < t.literals.size := by
      by_contra new
      have current : t'.levelAt i = t'.level := levelAt_eq_level fun start member =>
        (wellFormed.inside start (starts ▸ member)).le.trans (Nat.le_of_not_lt new)
      exact absurd (current.symm.trans level) below.ne'
    exact ⟨old, (extended.levels i old).symm.trans level⟩
  · rintro ⟨inside, level⟩
    exact ⟨inside.trans_le extended.size_le, (extended.levels i inside).trans level⟩

theorem positions_cut (sorted : t.Sorted) {m : Nat} (le : m ≤ n) :
    (t.cut n).positions m = t.positions m := by
  ext i
  have size : i < (t.cut n).literals.size ↔ i < t.literals.size ∧ t.levelAt i ≤ n := by
    have present (u : Trail) : i < u.literals.size ↔ u.literals[i]? ≠ none := by simp
    rw [present, present, getElem?_cut sorted]
    by_cases kept : t.levelAt i ≤ n
    · rw [if_pos kept, and_iff_left kept]
    · rw [if_neg kept]
      exact ⟨fun impossible => (impossible rfl).elim, fun impossible => (kept impossible.2).elim⟩
  simp only [mem_positions, size]
  constructor
  · rintro ⟨⟨inside, kept⟩, level⟩
    exact ⟨inside, (levelAt_cut sorted kept).symm.trans level⟩
  · rintro ⟨inside, level⟩
    have kept : t.levelAt i ≤ n := level.trans_le le
    exact ⟨⟨inside, kept⟩, (levelAt_cut sorted kept).trans level⟩

theorem rises_of_cut (extended : t.Extends t') (wellFormed : t.WellFormed)
    (wellFormed' : t'.WellFormed) (starts : t'.starts = t.starts) (below : n < t'.level)
    (l : Literal) : t.RisesAt n ((t'.cut n).push l) := by
  have rises := (Extends.push (t'.cut n) l).rises (by simp [Trail.push])
  have last : ((t'.cut n).push l).levelAt (t'.cut n).literals.size = n := by
    rw [levelAt_push, levelAt_eq_level fun start member =>
      ((wellFormed'.cut n).inside start member).le, level_cut, min_eq_left below.le]
  rw [last] at rises
  refine rises.congr fun m le => ?_
  rw [positions_cut wellFormed'.sorted le,
    extended.positions_of_lt wellFormed starts (le.trans_lt below)]

theorem WellFormed.level_le_size (wellFormed : t.WellFormed) : t.level ≤ t.literals.size := by
  have distinct : t.starts.toList.Nodup := wellFormed.ordered.imp Nat.ne_of_lt
  have inside : t.starts.toList ⊆ List.range t.literals.size := fun start member =>
    List.mem_range.2 (wellFormed.inside start (Array.mem_toList_iff.1 member))
  simpa [level] using (distinct.subperm inside).length_le

theorem card_positions_le (t : Trail) (n : Nat) : (t.positions n).card ≤ t.literals.size :=
  (Finset.card_filter_le _ _).trans (Finset.card_range _).le

end Trail

namespace Solver

/-- How many literals of the trail each level has, from level zero on. -/
def levelProfile (s : Solver) : List Nat :=
  (List.range (s.atomCount + 1)).map fun n =>
    s.trail.literals.toList.countP fun l => s.atoms.level l.natAbs == some n

end Solver

section Profile

theorem countP_eq_card {α : Type} {p : α → Bool} {q : Nat → Prop} [DecidablePred q] (xs : List α)
    (same : ∀ i x, xs[i]? = some x → (p x = true ↔ q i)) :
    xs.countP p = {i ∈ Finset.range xs.length | q i}.card := by
  induction xs using List.reverseRecOn with
  | nil => rfl
  | append_singleton xs x ih =>
    have last : p x = true ↔ q xs.length := same xs.length x (by simp)
    have before := ih fun i y found => same i y (by
      rw [List.getElem?_append_left (List.getElem?_eq_some_iff.1 found).1, found])
    rw [List.countP_append, before, List.length_append, List.length_singleton, Finset.range_add_one,
      Finset.filter_insert]
    by_cases holds : q xs.length
    · rw [if_pos holds, Finset.card_insert_of_notMem (by simp)]
      simp [last.2 holds]
    · rw [if_neg holds]
      simp [mt last.1 holds]

theorem map_range_lt {f g : Nat → Nat} {n size : Nat} (inside : n < size)
    (lower : ∀ m < n, f m = g m) (more : f n < g n) :
    (List.range size).map f < (List.range size).map g := by
  rw [List.lt_iff_exists]
  right
  refine ⟨n, by simpa using inside, by simpa using inside, fun m below => ?_, by simpa using more⟩
  simpa using lower m below

theorem ofDigits_lt_pow {b : Nat} {digits : List Nat} (positive : 0 < b)
    (inside : ∀ d ∈ digits, d < b) : Nat.ofDigits b digits < b ^ digits.length := by
  rcases Nat.eq_or_lt_of_le positive with rfl | large
  · have zero : digits.sum = 0 :=
      List.sum_eq_zero fun d member => Nat.lt_one_iff.1 (inside d member)
    rw [Nat.ofDigits_one, zero]
    exact Nat.pow_pos positive
  · exact Nat.ofDigits_lt_base_pow_length large inside

theorem ofDigits_reverse_lt {b : Nat} {xs ys : List Nat} (length : xs.length = ys.length)
    (inside : ∀ x ∈ xs, x < b) (lt : xs < ys) :
    Nat.ofDigits b xs.reverse < Nat.ofDigits b ys.reverse := by
  induction xs generalizing ys with
  | nil =>
    cases ys with
    | nil => exact absurd lt (List.not_lt_nil _)
    | cons y ys => cases length
  | cons x xs ih =>
    cases ys with
    | nil => cases length
    | cons y ys =>
      have same : xs.length = ys.length := Nat.succ.inj length
      have rest : ∀ d ∈ xs, d < b := fun d member => inside d (List.mem_cons_of_mem x member)
      rw [List.reverse_cons, List.reverse_cons, Nat.ofDigits_append, Nat.ofDigits_append,
        Nat.ofDigits_singleton, Nat.ofDigits_singleton, List.length_reverse, List.length_reverse,
        same]
      rcases List.cons_lt_cons_iff.1 lt with more | ⟨rfl, later⟩
      · have below : Nat.ofDigits b xs.reverse < b ^ ys.length := by
          have bound := ofDigits_lt_pow (Nat.zero_lt_of_lt (inside x List.mem_cons_self))
            fun d member => rest d (List.mem_reverse.1 member)
          rwa [List.length_reverse, same] at bound
        calc Nat.ofDigits b xs.reverse + b ^ ys.length * x
            < b ^ ys.length + b ^ ys.length * x := Nat.add_lt_add_right below _
          _ = b ^ ys.length * (x + 1) := by ring
          _ ≤ b ^ ys.length * y := Nat.mul_le_mul_left _ more
          _ ≤ Nat.ofDigits b ys.reverse + b ^ ys.length * y := Nat.le_add_left _ _
      · exact Nat.add_lt_add_right (ih same rest later) _

end Profile

namespace Solver

variable {s s' : Solver} {formula : List Clause}

theorem length_levelProfile (s : Solver) : s.levelProfile.length = s.atomCount + 1 := by
  simp [levelProfile]

theorem Coherent.levelProfile_eq (coherent : s.Coherent) :
    s.levelProfile = (List.range (s.atomCount + 1)).map fun n => (s.trail.positions n).card := by
  refine List.map_congr_left fun n _ => ?_
  rw [countP_eq_card (q := fun i => s.trail.levelAt i = n), Array.length_toList, Trail.positions]
  intro i l found
  rw [coherent.agrees.level_of_getElem? (by simpa using found)]
  simp

theorem Coherent.levelProfile_le (coherent : s.Coherent) {c : Nat} (member : c ∈ s.levelProfile) :
    c ≤ s.atomCount := by
  rw [coherent.levelProfile_eq] at member
  obtain ⟨n, -, rfl⟩ := List.mem_map.1 member
  exact (s.trail.card_positions_le n).trans coherent.literals_le

theorem Coherent.levelProfile_lt (coherent : s.Coherent) (coherent' : s'.Coherent)
    (count : s'.atomCount = s.atomCount) {n : Nat} (rises : s.trail.RisesAt n s'.trail) :
    s.levelProfile < s'.levelProfile := by
  obtain ⟨i, member, -⟩ := Finset.exists_of_ssubset rises.more
  have inside : n ≤ s.atomCount := by
    rw [← (Trail.mem_positions.1 member).2, ← count]
    exact ((s'.trail.levelAt_le_level i).trans coherent'.trail.level_le_size).trans
      coherent'.literals_le
  rw [coherent.levelProfile_eq, coherent'.levelProfile_eq, count]
  refine map_range_lt (Nat.lt_succ_of_le inside) (fun m below => ?_) (Finset.card_lt_card rises.more)
  rw [rises.lower m below]

theorem Searching.pass_rises (searching : s.Searching formula) (answer : s.pass = (.ok .ongoing, s'))
    (unrestarted : s'.counters.restarts = s.counters.restarts) :
    ∃ n, s.trail.RisesAt n s'.trail := by
  cases searching.pass_cases answer with
  | decision draws _ _ gains =>
    have longer : s.trail.literals.size < s'.trail.literals.size := by
      rw [gains.literals, Array.size_push]
      exact Nat.lt_succ_of_le draws.extends_trail.size_le
    exact ⟨_, (draws.extends_trail.trans gains.extends_trail).rises longer⟩
  | @lesson s₁ s₂ s₃ key l rest level source draws _ clash learns asserted _ _ schedule restarts
      maintained =>
    obtain ⟨pushed, -⟩ := assertLesson_ok asserted
    have early : s₃.schedule.conflict.1 = false := by
      have told := restarts_maintain s₃
      rw [maintained, unrestarted, restarts] at told
      exact Bool.eq_false_iff.2 fun due => by simp [due] at told
    have kept := (s₃.sameTrail_maintain early).answered maintained
    refine ⟨level, ?_⟩
    rw [kept.1, pushed, learns.trail.1]
    exact Trail.rises_of_cut draws.extends_trail searching.invariant.coherent.trail
      clash.1.invariant.coherent.trail draws.starts learns.below l

theorem Searching.pass_profile (searching : s.Searching formula)
    (answer : s.pass = (.ok .ongoing, s'))
    (unrestarted : s'.counters.restarts = s.counters.restarts) :
    s'.atomCount = s.atomCount ∧ s.levelProfile < s'.levelProfile := by
  obtain ⟨n, rises⟩ := searching.pass_rises answer unrestarted
  have count : s'.atomCount = s.atomCount := congrArg (· - 1) (searching.size_pass answer)
  exact ⟨count, searching.invariant.coherent.levelProfile_lt
    (searching.pass_ongoing answer).invariant.coherent count rises⟩

def levelWeight (s : Solver) : Nat := Nat.ofDigits (s.atomCount + 1) s.levelProfile.reverse

theorem Coherent.levelWeight_lt (coherent : s.Coherent) :
    s.levelWeight < (s.atomCount + 1) ^ (s.atomCount + 1) := by
  have bound := ofDigits_lt_pow s.atomCount.succ_pos fun c member =>
    Nat.lt_succ_of_le (coherent.levelProfile_le (List.mem_reverse.1 member))
  rwa [List.length_reverse, s.length_levelProfile] at bound

theorem Coherent.levelWeight_lt_of_lt (coherent : s.Coherent) (count : s'.atomCount = s.atomCount)
    (grows : s.levelProfile < s'.levelProfile) : s.levelWeight < s'.levelWeight := by
  rw [levelWeight, levelWeight, count]
  refine ofDigits_reverse_lt ?_ (fun c member => Nat.lt_succ_of_le (coherent.levelProfile_le member))
    grows
  rw [length_levelProfile, length_levelProfile, count]

theorem restarts_le_pass (answer : s.pass = (.ok .ongoing, s')) :
    s.counters.restarts ≤ s'.counters.restarts := by
  rcases pass_surroundings answer with ⟨polls, journal, kept⟩ | ⟨journal, kept⟩
  · exact (congrArg Surroundings.restarts kept).ge
  · exact (Nat.le_add_right _ _).trans (congrArg Surroundings.restarts kept).ge

def disturbed (s : Solver) (journal : Journal) (elapsed : Nat) (random : Generator)
    (terminate : Option (Nat → Bool)) (polls : Nat) : Solver :=
  { s with journal, random, terminate, polls, counters := { s.counters with elapsed } }

/-- So many passes, each of which goes on, with anything outside before each of them. -/
inductive Passes : Nat → Solver → Solver → Prop
  | none (s : Solver) : Passes 0 s s
  | pass {n : Nat} {s s' s'' : Solver} (journal : Journal) (elapsed : Nat) (random : Generator)
      (terminate : Option (Nat → Bool)) (polls : Nat)
      (answer : (s.disturbed journal elapsed random terminate polls).pass = (.ok .ongoing, s'))
      (rest : Passes n s' s'') : Passes (n + 1) s s''

namespace Passes

variable {n : Nat}

theorem of_run {n : Nat} (ongoing : run n s = (.ok false, s')) : Passes n s s' := by
  induction n generalizing s with
  | zero =>
    cases ongoing
    exact .none _
  | succ n ih =>
    rw [run] at ongoing
    split at ongoing <;> rename_i answer
    · cases ongoing
    · cases ongoing
    · exact .pass s.journal s.counters.elapsed s.random s.terminate s.polls answer (ih ongoing)

theorem restarts_le (passes : Passes n s s') : s.counters.restarts ≤ s'.counters.restarts := by
  induction passes with
  | none s => exact Nat.le_refl _
  | pass _ _ _ _ _ answer _ ih => exact (restarts_le_pass answer).trans ih

theorem weight (passes : Passes n s s') (searching : s.Searching formula)
    (unrestarted : s'.counters.restarts = s.counters.restarts) :
    s'.atomCount = s.atomCount ∧ s'.Coherent ∧ s.levelWeight + n ≤ s'.levelWeight := by
  induction passes with
  | none s => exact ⟨rfl, searching.invariant.coherent, Nat.le_refl _⟩
  | @pass n s s₁ s' journal elapsed random terminate polls answer rest ih =>
    -- Restarts are counted up only, so this pass had none if there are none at the end.
    have grown := restarts_le_pass answer
    have first : s₁.counters.restarts = s.counters.restarts :=
      (rest.restarts_le.trans unrestarted.le).antisymm grown
    have stepped : Step ⟨formula, .drawing, s⟩
        ⟨formula, .drawing, s.disturbed journal elapsed random terminate polls⟩ :=
      .outside s journal { s.counters with elapsed } random terminate polls
    have searching' := stepped.good searching
    obtain ⟨count, grows⟩ := searching'.pass_profile answer first
    obtain ⟨count', coherent, more⟩ :=
      ih (searching'.pass_ongoing answer) (unrestarted.trans first.symm)
    have gain : s.levelWeight < s₁.levelWeight :=
      searching'.invariant.coherent.levelWeight_lt_of_lt count grows
    exact ⟨count'.trans count, coherent, by omega⟩

theorem bound (passes : Passes n s s') (searching : s.Searching formula)
    (unrestarted : s'.counters.restarts = s.counters.restarts) :
    n + 1 ≤ (s.atomCount + 1) ^ (s.atomCount + 1) := by
  obtain ⟨count, coherent, weight⟩ := passes.weight searching unrestarted
  have bound := coherent.levelWeight_lt
  rw [count] at bound
  omega

end Passes

end Solver

namespace RestartSchedule

def NeverFires (schedule : RestartSchedule) : Prop :=
  ∀ conflicts : Nat, ((·.conflict.2)^[conflicts] schedule).conflict.1 = false

def QuietFor (length : Nat) (schedule : RestartSchedule) : Prop :=
  ∀ conflicts < length, ((·.conflict.2)^[conflicts] schedule).conflict.1 = false

end RestartSchedule

namespace Solver

variable {s s' : Solver} {formula : List Clause}

theorem pass_unrestarted {length : Nat} (quiet : s.schedule.QuietFor (length + 1))
    (answer : s.pass = (.ok .ongoing, s')) :
    s'.counters.restarts = s.counters.restarts ∧ s'.schedule.QuietFor length := by
  rcases pass_surroundings answer with ⟨polls, journal, kept⟩ | ⟨journal, kept⟩
  · have schedule : s'.schedule = s.schedule := congrArg Surroundings.schedule kept
    exact ⟨congrArg Surroundings.restarts kept,
      schedule ▸ fun k below => quiet k (Nat.lt_succ_of_lt below)⟩
  · have schedule : s'.schedule = s.schedule.conflict.2 := congrArg Surroundings.schedule kept
    have early : s.schedule.conflict.1 = false := quiet 0 length.succ_pos
    refine ⟨(congrArg Surroundings.restarts kept).trans ?_,
      schedule ▸ fun k below => quiet (k + 1) (Nat.succ_lt_succ below)⟩
    rw [early]
    rfl

theorem run_unrestarted {passes : Nat} (quiet : s.schedule.QuietFor passes)
    (ongoing : run passes s = (.ok false, s')) : s'.counters.restarts = s.counters.restarts := by
  induction passes generalizing s with
  | zero =>
    cases ongoing
    rfl
  | succ passes ih =>
    rw [run] at ongoing
    split at ongoing <;> rename_i answer
    · cases ongoing
    · cases ongoing
    · obtain ⟨first, quiet'⟩ := pass_unrestarted quiet answer
      exact (ih quiet' ongoing).trans first

theorem Searching.run_ends (searching : s.Searching formula)
    (quiet : s.schedule.QuietFor ((s.atomCount + 1) ^ (s.atomCount + 1))) :
    (run ((s.atomCount + 1) ^ (s.atomCount + 1)) s).1 ≠ .ok false := by
  intro ongoing
  have answer := Prod.ext (y := (_, (run _ s).2)) ongoing rfl
  have bound := (Passes.of_run answer).bound searching (run_unrestarted quiet answer)
  exact Nat.not_succ_le_self _ bound

theorem Settled.solve_returns (settled : s.Settled formula) (never : s.schedule.NeverFires) :
    (s.solve ((s.atomCount + 1) ^ (s.atomCount + 1))).1 ≠ .ok none := by
  cases unsettled : s.isSettled with
  | true => simp [solve, unsettled]
  | false =>
    rw [solve_of_unsettled unsettled, Ne, answerOf_eq_none_iff]
    exact (settled.begin unsettled).run_ends fun k _ => never k

/-- Draws consequences like `propagate`, but has no answer where more than `turns` literals come to
the head. -/
def propagateWithin : (turns : Nat) → Solver → Option (Except Failure Propagated × Solver)
  | 0, s =>
    match s.trail.next? with
    | none => some (.ok .complete, s)
    | some _ => none
  | turns + 1, s =>
    match s.trail.next? with
    | none => some (.ok .complete, s)
    | some l =>
      match s.propagateLiteral l with
      | (.ok .complete, after) => propagateWithin turns after.pastHead
      | stopped => some stopped

theorem Searching.propagateWithin_eq (searching : s.Searching formula) {turns : Nat}
    (enough : s.atomCount ≤ turns + s.trail.head) : propagateWithin turns s = some s.propagate := by
  induction turns generalizing s with
  | zero =>
    have last : s.trail.next? = none :=
      Array.getElem?_eq_none (searching.invariant.coherent.literals_le.trans (by omega))
    rw [propagate_eq, propagateWithin, last]
  | succ turns ih =>
    rw [propagate_eq, propagateWithin]
    match next : s.trail.next? with
    | none => rfl
    | some l =>
      obtain ⟨s₁, draws, -, head, ⟨ended, -⟩ | ⟨key, ended, -⟩⟩ :=
        propagateLiteral_spec searching.invariant.watched next
      · simp only [ended]
        refine ih (searching.draw_literal next ended) ?_
        have count : s₁.pastHead.atomCount = s.atomCount := congrArg (· - 1) draws.size
        have past : s₁.pastHead.trail.head = s.trail.head + 1 := congrArg (· + 1) head
        omega
      · simp only [ended]

/-- In a run, a pass without a restart makes the profile grow, so that only so many follow each
other; propagation has a turn for each atom at most; and a search that never restarts ends. -/
theorem reachable_progress {settings : Settings} {config : Config}
    (reachable : Reachable settings config) :
    (config.stage = .drawing →
      (∀ s', config.solver.pass = (.ok .ongoing, s') →
        s'.counters.restarts = config.solver.counters.restarts →
          s'.atomCount = config.solver.atomCount ∧
            config.solver.levelProfile < s'.levelProfile) ∧
      propagateWithin config.solver.atomCount config.solver = some config.solver.propagate ∧
      ∀ passes s', Passes passes config.solver s' →
        s'.counters.restarts = config.solver.counters.restarts →
          passes + 1 ≤ (config.solver.atomCount + 1) ^ (config.solver.atomCount + 1)) ∧
    (config.stage = .between → config.solver.schedule.NeverFires →
      (config.solver.solve ((config.solver.atomCount + 1) ^ (config.solver.atomCount + 1))).1 ≠
        .ok none) := by
  have good := reachable.good
  constructor
  · intro drawing
    rw [drawing] at good
    have searching : config.solver.Searching config.accepted := good
    exact ⟨fun s' answer unrestarted => searching.pass_profile answer unrestarted,
      searching.propagateWithin_eq (Nat.le_add_right _ _),
      fun n s' passes unrestarted => passes.bound searching unrestarted⟩
  · intro between never
    rw [between] at good
    exact Settled.solve_returns good never

def steady : Settings := { decisionHeuristic := .fixedOrder, restartPolicy := .off }

def steadySigns : Solver :=
  ((((new steady).ensureAtoms 3).2.addNormal [1, 2, 3]).2.addNormal [-3, 1, 2]).2

theorem steadySigns_reachable :
    Reachable steady ⟨[[1, 2, 3], [-3, 1, 2]], .between, steadySigns⟩ := by
  have atoms : Reachable steady ⟨[], .between, ((new steady).ensureAtoms 3).2⟩ :=
    .single (.ensureAtoms (new steady) 3)
  exact (atoms.addNormal normalise_positive (by decide +kernel)).addNormal normalise_negative
    (by decide +kernel)

theorem steadySigns_progress :
    (∃ s', (run 2 steadySigns.start).2.pass = (.ok .ongoing, s') ∧
      s'.levelProfile = [0, 2, 0, 0] ∧ s'.counters.restarts = 0 ∧
        (run 2 steadySigns.start).2.levelProfile = [0, 1, 1, 0] ∧
          (run 2 steadySigns.start).2.levelProfile < s'.levelProfile) ∧
      propagateWithin 3 steadySigns.start = some steadySigns.start.propagate ∧
      Passes 3 steadySigns.start (run 3 steadySigns.start).2 ∧ 3 + 1 ≤ 4 ^ 4 ∧
      steadySigns.schedule.NeverFires ∧ (steadySigns.solve (4 ^ 4)).1 ≠ .ok none := by
  have begun : Reachable steady ⟨[[1, 2, 3], [-3, 1, 2]], .drawing, steadySigns.start⟩ :=
    steadySigns_reachable.tail (.start (by decide +kernel))
  have decided : (run 2 steadySigns.start).1 = .ok false := by decide +kernel
  have before : Reachable steady
      ⟨[[1, 2, 3], [-3, 1, 2]], .drawing, (run 2 steadySigns.start).2⟩ := by
    have searched := run_steps [[1, 2, 3], [-3, 1, 2]] 2 steadySigns.start
    rw [decided] at searched
    exact begun.trans searched
  have ongoing : (run 2 steadySigns.start).2.pass =
      (.ok .ongoing, (run 2 steadySigns.start).2.pass.2) := Prod.ext (by decide +kernel) rfl
  have passes : Passes 3 steadySigns.start (run 3 steadySigns.start).2 :=
    .of_run (Prod.ext (by decide +kernel) rfl)
  have never : steadySigns.schedule.NeverFires := by
    have off : steadySigns.schedule = .never := by rfl
    intro conflicts
    rw [off, Function.iterate_fixed rfl]
    rfl
  have count : steadySigns.atomCount = 3 ∧ steadySigns.start.atomCount = 3 := by decide +kernel
  obtain ⟨grows, -⟩ := (reachable_progress before).1 rfl
  obtain ⟨-, turns, bound⟩ := (reachable_progress begun).1 rfl
  have ends := (reachable_progress steadySigns_reachable).2 rfl never
  simp only [count.1] at ends
  simp only [count.2] at turns bound
  exact ⟨⟨_, ongoing, by decide +kernel, by decide +kernel, by decide +kernel,
    (grows _ ongoing (by decide +kernel)).2⟩, turns, passes, bound 3 _ passes (by decide +kernel),
    never, ends⟩

end Solver

end ClauseLearning
