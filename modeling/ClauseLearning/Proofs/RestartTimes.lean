import ClauseLearning.Proofs.LubySequence
import ClauseLearning.Restart.Schedule
import Mathlib.Algebra.BigOperators.Group.Finset.Basic

namespace ClauseLearning.RestartSchedule

def answers : Nat → RestartSchedule → List Bool
  | 0, _ => []
  | count + 1, s => s.conflict.1 :: answers count s.conflict.2

def after : Nat → RestartSchedule → RestartSchedule
  | 0, s => s
  | count + 1, s => after count s.conflict.2

theorem answers_add (m n : Nat) (s : RestartSchedule) :
    answers (m + n) s = answers m s ++ answers n (after m s) := by
  induction m generalizing s with
  | zero => simp [answers, after]
  | succ m ih => rw [Nat.succ_add, answers, ih, answers, after, List.cons_append]

theorem after_add (m n : Nat) (s : RestartSchedule) : after (m + n) s = after n (after m s) := by
  induction m generalizing s with
  | zero => rw [Nat.zero_add, after]
  | succ m ih => rw [Nat.succ_add, after, ih, after]

/-- The restart of number `k`, counted from one, becomes due with conflict number `n`. -/
structure Due (s : RestartSchedule) (k n : Nat) : Prop where
  count : (answers n s).count true = k
  last : (answers n s).getLast? = some true

theorem run_interval (unit : Nat) (place : Luby) (count rest : Nat) :
    answers (rest + 1) (luby unit place (count + rest + 1) count) =
        List.replicate rest false ++ [true] ∧
      after (rest + 1) (luby unit place (count + rest + 1) count) = nextLuby unit place := by
  induction rest generalizing count with
  | zero => simp [answers, after, conflict]
  | succ rest ih =>
    have same : count + (rest + 1) + 1 = count + 1 + rest + 1 := by omega
    have early : ¬count + (rest + 1) + 1 ≤ count + 1 := by omega
    have waits : (luby unit place (count + (rest + 1) + 1) count).conflict =
        (false, luby unit place (count + 1 + rest + 1) (count + 1)) := by
      rw [conflict, if_neg early, same]
    obtain ⟨told, left⟩ := ih (count + 1)
    rw [answers, after, waits]
    exact ⟨by rw [told, List.replicate_succ, List.cons_append], left⟩

def interval (unit k : Nat) : Nat := min (max unit 1 * Luby.term k) (2 ^ 32 - 1)

theorem interval_pos (unit : Nat) {k : Nat} (positive : 0 < k) : 0 < interval unit k := by
  have unitPos : 0 < max unit 1 := by omega
  exact Nat.lt_min.2 ⟨Nat.mul_pos unitPos (Luby.term_pos positive), by decide⟩

theorem run_next (unit : Nat) {k : Nat} {place : Luby} (reaches : place.Reaches k)
    (more : k < Luby.length) : ∃ place',
      answers (interval unit (k + 1)) (nextLuby (max unit 1) place) =
          List.replicate (interval unit (k + 1) - 1) false ++ [true] ∧
        after (interval unit (k + 1)) (nextLuby (max unit 1) place) =
          nextLuby (max unit 1) place' ∧
        place'.Reaches (k + 1) := by
  obtain ⟨place', answer, value, reaches'⟩ := reaches.next more
  obtain ⟨rest, length⟩ := Nat.exists_eq_succ_of_ne_zero
    (Nat.ne_of_gt (interval_pos unit (Nat.succ_pos k)))
  have begun : nextLuby (max unit 1) place = luby (max unit 1) place' (0 + rest + 1) 0 := by
    rw [nextLuby, answer]
    simp only
    rw [value, Nat.mul_comm, Nat.zero_add]
    exact congrArg (luby _ _ · 0) length
  rw [begun, length]
  exact ⟨place', (run_interval _ _ 0 rest).1, (run_interval _ _ 0 rest).2, reaches'⟩

def elapsed (unit k : Nat) : Nat := ∑ i ∈ Finset.range k, interval unit (i + 1)

theorem run_intervals (unit : Nat) {k : Nat} (le : k ≤ Luby.length) :
    (answers (elapsed unit k) (ofPolicy (.luby unit))).count true = k ∧
      ∃ place : Luby, place.Reaches k ∧
        after (elapsed unit k) (ofPolicy (.luby unit)) = nextLuby (max unit 1) place := by
  induction k with
  | zero => exact ⟨rfl, {}, .start, rfl⟩
  | succ k ih =>
    obtain ⟨count, place, reaches, begun⟩ := ih (Nat.le_of_succ_le le)
    obtain ⟨place', told, ended, reaches'⟩ := run_next unit reaches le
    have next : elapsed unit (k + 1) = elapsed unit k + interval unit (k + 1) :=
      Finset.sum_range_succ ..
    rw [next, answers_add, after_add, begun, told, ended]
    refine ⟨?_, place', reaches', rfl⟩
    simp [count, List.count_append, List.count_replicate]

theorem luby_due (unit : Nat) {k : Nat} (positive : 0 < k) (le : k ≤ Luby.length) :
    Due (ofPolicy (.luby unit)) k (elapsed unit k) := by
  refine ⟨(run_intervals unit le).1, ?_⟩
  obtain ⟨k, rfl⟩ := Nat.exists_eq_succ_of_ne_zero (Nat.ne_of_gt positive)
  obtain ⟨-, place, reaches, begun⟩ := run_intervals unit (Nat.le_of_succ_le le)
  obtain ⟨-, told, -⟩ := run_next unit reaches le
  have next : elapsed unit (k + 1) = elapsed unit k + interval unit (k + 1) :=
    Finset.sum_range_succ ..
  rw [next, answers_add, begun, told, ← List.append_assoc, List.getLast?_concat]

inductive Counting : RestartSchedule → Prop where
  | luby {unit k interval count : Nat} {place : Luby} (positive : 0 < unit)
      (reaches : place.Reaches k) (early : count < interval) (le : interval ≤ 2 ^ 32 - 1) :
      Counting (.luby unit place interval count)

theorem counting_nextLuby {unit k : Nat} {place : Luby} (positive : 0 < unit)
    (reaches : place.Reaches k) : Counting (nextLuby unit place) := by
  rw [nextLuby]
  rcases Nat.lt_or_eq_of_le reaches.le_length with more | last
  · obtain ⟨place', answer, value, reaches'⟩ := reaches.next more
    rw [answer]
    have element : 0 < place'.v.toNat := value ▸ Luby.term_pos (Nat.succ_pos k)
    have length : 0 < min (place'.v.toNat * unit) maxInterval :=
      Nat.lt_min.2 ⟨Nat.mul_pos element positive, by decide⟩
    exact .luby positive reaches' length (Nat.min_le_right ..)
  · rw [(reaches.ends last).1]
    exact .luby positive reaches (by decide) (Nat.le_refl _)

theorem Counting.conflict {s : RestartSchedule} (counting : Counting s) :
    Counting s.conflict.2 := by
  cases counting with
  | luby positive reaches early le =>
    rw [RestartSchedule.conflict]
    split
    · exact counting_nextLuby positive reaches
    · rename_i waits
      exact .luby positive reaches (Nat.lt_of_not_le waits) le

theorem Counting.after {s : RestartSchedule} (counting : Counting s) (count : Nat) :
    Counting (after count s) := by
  induction count generalizing s with
  | zero => exact counting
  | succ count ih => exact ih counting.conflict

/-- The iterator gives the Luby sequence until it ends, and a schedule makes restart number `k` due
with the last conflict of the `k`-th interval, each the next element times the unit but at most the
longest. No count of conflicts is more than a word. -/
theorem luby_onTime :
    Luby.Follows ∧ ∀ unit : Nat,
      (∀ k, 0 < k → k ≤ Luby.length → Due (ofPolicy (.luby unit)) k
        (∑ i ∈ Finset.range k, min (max unit 1 * Luby.term (i + 1)) (2 ^ 32 - 1))) ∧
      ∀ count, Counting (after count (ofPolicy (.luby unit))) := by
  refine ⟨Luby.follows, fun unit => ⟨fun k => luby_due unit, fun count => ?_⟩⟩
  have begun : Counting (ofPolicy (.luby unit)) :=
    counting_nextLuby (Nat.lt_of_lt_of_le Nat.one_pos (Nat.le_max_right unit 1)) .start
  exact begun.after count

example : answers 12 (ofPolicy (.luby 2)) =
    [false, true, false, true, false, false, false, true, false, true, false, true] := by
  decide +kernel

end ClauseLearning.RestartSchedule
