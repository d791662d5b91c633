import ClauseLearning.Restart.Luby
import Mathlib.NumberTheory.Padics.PadicVal.Basic

/-!
The Luby sequence by its recurrence, and by blocks: block `w` counts up the powers of two which
divide `w`. The recurrence copies blocks, and reluctant doubling goes through one block after
another, as the lowest bit set in `w` is the greatest power that divides it. So the pairs give the
sequence, up to the last block that a word can number.
-/

namespace ClauseLearning.Luby

/-- The Luby sequence, from index one on. An index which is one below a power of two has half that
power, and any other has what stands at its place among the indices before the next lower power. -/
def term (i : Nat) : Nat :=
  if i = 0 then 0
  else if i + 1 = 2 ^ (i.log2 + 1) then 2 ^ i.log2
  else term (i - 2 ^ i.log2 + 1)
termination_by i
decreasing_by
  rename_i positive inner
  have le := Nat.log2_self_le positive
  have apart : i.log2 ≠ 0 := by
    intro zero
    have below := Nat.lt_log2_self (n := i)
    rw [zero] at inner below
    omega
  have two_le : 2 ^ 1 ≤ 2 ^ i.log2 := Nat.pow_le_pow_right Nat.two_pos (Nat.pos_of_ne_zero apart)
  omega

theorem log2_eq {m i : Nat} (le : 2 ^ m ≤ i) (lt : i < 2 ^ (m + 1)) : i.log2 = m :=
  (Nat.log2_eq_iff (Nat.ne_of_gt (Nat.lt_of_lt_of_le (Nat.two_pow_pos m) le))).2 ⟨le, lt⟩

theorem term_last (m : Nat) : term (2 ^ (m + 1) - 1) = 2 ^ m := by
  have positive := Nat.two_pow_pos m
  have log : (2 ^ (m + 1) - 1).log2 = m := log2_eq (by omega) (by omega)
  rw [term, log, if_neg (by omega), if_pos (by omega)]

theorem term_inner {m i : Nat} (le : 2 ^ m ≤ i) (lt : i + 1 < 2 ^ (m + 1)) :
    term i = term (i - 2 ^ m + 1) := by
  have positive := Nat.two_pow_pos m
  rw [term, log2_eq le (by omega), if_neg (by omega), if_neg (by omega)]

theorem term_pos {i : Nat} (positive : 0 < i) : 0 < term i := by
  fun_induction term i with
  | case1 => exact absurd positive (Nat.lt_irrefl 0)
  | case2 i => exact Nat.two_pow_pos _
  | case3 i _ _ ih => exact ih (Nat.succ_pos _)

example : (List.range 15).map (fun i => term (i + 1)) =
    [1, 1, 2, 1, 1, 2, 4, 1, 1, 2, 1, 1, 2, 4, 8] := by
  decide +kernel

abbrev twos (w : Nat) : Nat := padicValNat 2 w

def blockEnd : Nat → Nat
  | 0 => 0
  | w + 1 => blockEnd w + twos (w + 1) + 1

theorem blockEnd_strictMono : StrictMono blockEnd := by
  refine strictMono_nat_of_lt_succ fun w => ?_
  rw [blockEnd]
  omega

theorem twos_two_pow_add {m w : Nat} (positive : 0 < w) (lt : w < 2 ^ m) :
    twos (2 ^ m + w) = twos w := by
  have same (n : Nat) : n ≤ twos (2 ^ m + w) ↔ n ≤ twos w := by
    rw [← padicValNat_dvd_iff_le (by omega), ← padicValNat_dvd_iff_le (by omega)]
    by_cases le : n ≤ m
    · exact Nat.dvd_add_right (pow_dvd_pow 2 le)
    · have double : 2 ^ (m + 1) ≤ 2 ^ n := Nat.pow_le_pow_right (by decide) (by omega)
      constructor
      · intro divides
        have := Nat.le_of_dvd (by omega) divides
        omega
      · intro divides
        have := Nat.le_of_dvd positive divides
        omega
  exact Nat.le_antisymm ((same _).1 (Nat.le_refl _)) ((same _).2 (Nat.le_refl _))

theorem blockEnd_two_pow_add {m w : Nat} (lt : w < 2 ^ m) :
    blockEnd (2 ^ m + w) = blockEnd (2 ^ m) + blockEnd w := by
  induction w with
  | zero => rfl
  | succ w ih =>
    have copied := ih (by omega)
    have divided : twos (2 ^ m + w + 1) = twos (w + 1) := twos_two_pow_add (by omega) lt
    rw [← Nat.add_assoc, blockEnd, copied, divided, blockEnd]
    omega

theorem blockEnd_pred_two_pow (m : Nat) : blockEnd (2 ^ m) = blockEnd (2 ^ m - 1) + m + 1 := by
  have power : blockEnd (2 ^ m - 1 + 1) = blockEnd (2 ^ m - 1) + twos (2 ^ m - 1 + 1) + 1 := rfl
  rwa [Nat.sub_add_cancel (Nat.two_pow_pos m), twos, padicValNat.prime_pow] at power

theorem blockEnd_two_pow (m : Nat) : blockEnd (2 ^ m) + 1 = 2 ^ (m + 1) := by
  induction m with
  | zero => simp [blockEnd]
  | succ m ih =>
    have positive := Nat.two_pow_pos m
    have halves : 2 ^ (m + 1) - 1 = 2 ^ m + (2 ^ m - 1) := by omega
    have whole := blockEnd_pred_two_pow (m + 1)
    rw [halves, blockEnd_two_pow_add (by omega)] at whole
    have half := blockEnd_pred_two_pow m
    omega

/-- The elements of a block whose number is a power of two. All but the last are those of the block
of half its number. -/
theorem term_two_pow_block {m j : Nat} (le : j ≤ m) :
    term (blockEnd (2 ^ m - 1) + j + 1) = 2 ^ j := by
  have before := blockEnd_pred_two_pow m
  have whole := blockEnd_two_pow m
  rcases Nat.eq_or_lt_of_le le with rfl | inner
  · have last : blockEnd (2 ^ j - 1) + j + 1 = 2 ^ (j + 1) - 1 := by omega
    rw [last, term_last]
  · cases m with
    | zero => exact absurd inner (Nat.not_lt_zero j)
    | succ m =>
      have before' := blockEnd_pred_two_pow m
      have whole' := blockEnd_two_pow m
      have short := Nat.lt_two_pow_self (n := m)
      have copy : blockEnd (2 ^ (m + 1) - 1) + j + 1 - 2 ^ (m + 1) + 1 =
          blockEnd (2 ^ m - 1) + j + 1 := by omega
      rw [term_inner (m := m + 1) (by omega) (by omega), copy,
        term_two_pow_block (Nat.le_of_lt_succ inner)]

theorem term_copied_block {m w j : Nat} (below : w + 1 < 2 ^ m) (le : j ≤ twos (w + 1)) :
    term (blockEnd (2 ^ m + w) + j + 1) = term (blockEnd w + j + 1) := by
  have first := blockEnd_two_pow m
  have place := blockEnd_two_pow_add (Nat.lt_of_succ_lt below)
  have early : blockEnd (w + 1) < blockEnd (2 ^ m) := blockEnd_strictMono below
  rw [blockEnd] at early
  have copy : blockEnd (2 ^ m + w) + j + 1 - 2 ^ (m + 1) + 1 = blockEnd w + j + 1 := by omega
  rw [term_inner (m := m + 1) (by omega) (by omega), copy]

/-- The elements of a block are the powers of two, one after another. By strong induction on the
number of the block, which is a power of two or lies between two of them. -/
theorem term_block {w j : Nat} (le : j ≤ twos (w + 1)) : term (blockEnd w + j + 1) = 2 ^ j := by
  induction w using Nat.strong_induction_on generalizing j with
  | _ w ih =>
    obtain ⟨m, lower, upper⟩ : ∃ m, 2 ^ m ≤ w + 1 ∧ w + 1 < 2 ^ (m + 1) :=
      ⟨(w + 1).log2, Nat.log2_self_le (Nat.succ_ne_zero w), Nat.lt_log2_self⟩
    rw [Nat.pow_succ] at upper
    rcases Nat.eq_or_lt_of_le lower with power | between
    · obtain rfl : w = 2 ^ m - 1 := by omega
      rw [← power, twos, padicValNat.prime_pow] at le
      exact term_two_pow_block le
    · obtain ⟨v, rfl⟩ : ∃ v, w = 2 ^ m + v := ⟨w - 2 ^ m, by omega⟩
      have below : v + 1 < 2 ^ m := by omega
      have divided : twos (2 ^ m + v + 1) = twos (v + 1) := twos_two_pow_add (by omega) below
      rw [divided] at le
      rw [term_copied_block below le, ih v (by omega) le]

theorem and_two_pow_sub {n u : Nat} (positive : 0 < u) (lt : u < 2 ^ n) :
    u &&& (2 ^ n - u) = 2 ^ twos u := by
  obtain ⟨k, r, ⟨q, rfl⟩, rfl⟩ := Nat.exists_eq_two_pow_mul_odd (Nat.ne_of_gt positive)
  have power : twos (2 ^ k * (2 * q + 1)) = k := by
    rw [twos, padicValNat.mul (by positivity) (by omega), padicValNat.prime_pow,
      padicValNat.eq_zero_of_not_dvd (by omega), Nat.add_zero]
  have inside : k < n := by
    refine (Nat.pow_lt_pow_iff_right Nat.one_lt_two).1 (Nat.lt_of_le_of_lt ?_ lt)
    exact Nat.le_mul_of_pos_right _ (Nat.succ_pos _)
  have before : 2 ^ k * (2 * q + 1) = 2 ^ k * (2 * q) + (2 ^ k - 1) + 1 := by
    have := Nat.two_pow_pos k
    rw [Nat.mul_succ]
    omega
  have bits (i : Nat) : (2 ^ k * (2 * q + 1)).testBit i =
      if i < k then false else (2 * q + 1).testBit (i - k) := by
    simpa using Nat.testBit_two_pow_mul_add (2 * q + 1) (Nat.two_pow_pos k) i
  have missing (i : Nat) : (2 ^ n - 2 ^ k * (2 * q + 1)).testBit i =
      (decide (i < n) && !if i < k then true else (2 * q).testBit (i - k)) := by
    rw [before, Nat.testBit_two_pow_sub_succ (by omega), Nat.testBit_two_pow_mul_add _
      (Nat.sub_lt (Nat.two_pow_pos k) Nat.one_pos), Nat.testBit_two_pow_sub_one]
    by_cases low : i < k
    · simp [low]
    · simp [low]
  -- Below bit k neither has one set, at it both have, and above it they are opposites.
  rw [power]
  refine Nat.eq_of_testBit_eq fun i => ?_
  rw [Nat.testBit_and, bits, missing, Nat.testBit_two_pow]
  rcases Nat.lt_trichotomy i k with low | rfl | high
  · simp [low, Nat.ne_of_gt low]
  · simp [inside, Nat.testBit_zero]
  · obtain ⟨d, rfl⟩ : ∃ d, i = k + (d + 1) := ⟨i - k - 1, by omega⟩
    have half : (2 * q + 1) / 2 = q := by omega
    cases bit : q.testBit d with
    | false => simp [Nat.testBit_succ, half, bit]
    | true => simp [Nat.testBit_succ, half, bit]

theorem toNat_lowestBit {u : UInt32} (positive : 0 < u.toNat) :
    (lowestBit u).toNat = 2 ^ twos u.toNat := by
  have below : u.toNat < 2 ^ 32 := u.toNat_lt
  have complement : (2 ^ 32 - u.toNat + UInt32.toNat 0) % 2 ^ 32 = 2 ^ 32 - u.toNat := by
    rw [UInt32.toNat_zero, Nat.add_zero, Nat.mod_eq_of_lt (by omega)]
  rw [lowestBit, UInt32.toNat_and, UInt32.toNat_sub, complement, and_two_pow_sub positive below]

/-- How many elements there are: those of all blocks whose number is a word. -/
def length : Nat := 2 ^ 33 - 34

theorem blockEnd_maximal : blockEnd (2 ^ 32 - 1) = length := by
  have last := blockEnd_pred_two_pow 32
  have whole := blockEnd_two_pow 32
  rw [length]
  omega

structure At (l : Luby) (w j : Nat) : Prop where
  number : l.u.toNat = w + 1
  value : l.v.toNat = 2 ^ j
  inside : j ≤ twos (w + 1)

namespace At

variable {l : Luby} {w j : Nat}

theorem lowestBit_eq_iff (place : l.At w j) : lowestBit l.u = l.v ↔ j = twos (w + 1) := by
  have positive : 0 < l.u.toNat := place.number ▸ Nat.succ_pos w
  rw [← UInt32.toNat_inj, toNat_lowestBit positive, place.number, place.value,
    Nat.pow_right_inj Nat.one_lt_two, eq_comm]

theorem double_lt (place : l.At w j) (inner : lowestBit l.u ≠ l.v) :
    2 * l.v.toNat < UInt32.size := by
  have more : j < twos (w + 1) :=
    Nat.lt_of_le_of_ne place.inside (mt place.lowestBit_eq_iff.2 inner)
  calc
    2 * l.v.toNat = 2 ^ (j + 1) := by rw [place.value, Nat.pow_succ']
    _ ≤ 2 ^ twos (w + 1) := Nat.pow_le_pow_right Nat.two_pos more
    _ ≤ w + 1 := Nat.le_of_dvd (Nat.succ_pos w) pow_padicValNat_dvd
    _ = l.u.toNat := place.number.symm
    _ < UInt32.size := l.u.toNat_lt_size

theorem next_inner (place : l.At w j) (inner : j < twos (w + 1)) :
    ∃ l', l.next? = some (l'.v, l') ∧ l'.At w (j + 1) := by
  have test : lowestBit l.u ≠ l.v := mt place.lowestBit_eq_iff.1 (Nat.ne_of_lt inner)
  have room := place.double_lt test
  have value : (l.v + l.v).toNat = 2 ^ (j + 1) := by
    rw [UInt32.toNat_add, ← Nat.two_mul, Nat.mod_eq_of_lt room, place.value, Nat.pow_succ']
  refine ⟨⟨l.u, l.v + l.v⟩, ?_, place.number, value, inner⟩
  rw [next?, if_neg test, if_pos room]

theorem next_last (place : l.At w (twos (w + 1))) (room : w + 2 < 2 ^ 32) :
    ∃ l', l.next? = some (l'.v, l') ∧ l'.At (w + 1) 0 := by
  have test : lowestBit l.u = l.v := place.lowestBit_eq_iff.2 rfl
  have room' : l.u.toNat + 1 < UInt32.size := by rwa [place.number]
  have number : (l.u + 1).toNat = w + 1 + 1 := by
    rw [UInt32.toNat_add, UInt32.toNat_one, Nat.mod_eq_of_lt room', place.number]
  refine ⟨⟨l.u + 1, 1⟩, ?_, number, rfl, Nat.zero_le _⟩
  rw [next?, if_pos test, if_pos room']

theorem next_none (place : l.At w (twos (w + 1))) (full : w + 2 = 2 ^ 32) : l.next? = none := by
  have test : lowestBit l.u = l.v := place.lowestBit_eq_iff.2 rfl
  have full' : ¬l.u.toNat + 1 < UInt32.size := by
    rw [place.number]
    exact Nat.not_lt.2 (Nat.le_of_eq full.symm)
  rw [next?, if_pos test, if_neg full']

end At

/-- The place is where an element, counted from one, has just been given. -/
inductive Reaches : Nat → Luby → Prop where
  | start : Reaches 0 {}
  | element {l : Luby} {w j : Nat} (place : l.At w j) : Reaches (blockEnd w + j + 1) l

namespace Reaches

variable {i : Nat} {l : Luby}

theorem le_length (reaches : Reaches i l) : i ≤ length := by
  cases reaches with
  | start => exact Nat.zero_le _
  | @element l w j place =>
    have inside := place.inside
    have below : w + 1 ≤ 2 ^ 32 - 1 := Nat.le_sub_one_of_lt (place.number ▸ l.u.toNat_lt)
    calc
      blockEnd w + j + 1 ≤ blockEnd (w + 1) := by
        rw [blockEnd]
        omega
      _ ≤ length := blockEnd_maximal ▸ blockEnd_strictMono.monotone below

theorem next (reaches : Reaches i l) (more : i < length) :
    ∃ l', l.next? = some (l'.v, l') ∧ l'.v.toNat = term (i + 1) ∧ Reaches (i + 1) l' := by
  have given {w j : Nat} {l' : Luby} (place : l'.At w j) (index : i = blockEnd w + j) :
      l'.v.toNat = term (i + 1) ∧ Reaches (i + 1) l' := by
    rw [place.value, index, term_block place.inside]
    exact ⟨rfl, .element place⟩
  cases reaches with
  | start => exact ⟨⟨1, 1⟩, by decide, given (w := 0) (j := 0) ⟨rfl, rfl, Nat.zero_le _⟩ rfl⟩
  | @element l w j place =>
    rcases Nat.lt_or_eq_of_le place.inside with inner | rfl
    · obtain ⟨l', answer, place'⟩ := place.next_inner inner
      exact ⟨l', answer, given place' rfl⟩
    · have room : w + 2 < 2 ^ 32 := by
        by_contra full
        have le : 2 ^ 32 - 1 ≤ w + 1 := by omega
        exact absurd (blockEnd_maximal ▸ blockEnd_strictMono.monotone le) (Nat.not_le.2 more)
      obtain ⟨l', answer, place'⟩ := place.next_last room
      exact ⟨l', answer, given place' rfl⟩

theorem ends (reaches : Reaches i l) (last : i = length) :
    l.next? = none ∧ l.u.toNat = 2 ^ 32 - 1 := by
  cases reaches with
  | start => exact absurd last (by decide)
  | @element l w j place =>
    have inside := place.inside
    have below := place.number ▸ l.u.toNat_lt
    have reached : blockEnd (2 ^ 32 - 1) ≤ blockEnd (w + 1) := by
      rw [blockEnd_maximal, ← last, blockEnd]
      omega
    have number : w + 1 = 2 ^ 32 - 1 := by
      have := blockEnd_strictMono.le_iff_le.1 reached
      omega
    obtain rfl : j = twos (w + 1) := by
      have whole : blockEnd (w + 1) = length := number ▸ blockEnd_maximal
      rw [blockEnd] at whole
      omega
    exact ⟨place.next_none (by omega), place.number.trans number⟩

theorem next?_eq_none_iff (reaches : Reaches i l) : l.next? = none ↔ i = length := by
  refine ⟨fun none => ?_, fun last => (reaches.ends last).1⟩
  by_contra other
  obtain ⟨l', answer, -⟩ := reaches.next (Nat.lt_of_le_of_ne reaches.le_length other)
  rw [none] at answer
  cases answer

theorem double_lt (reaches : Reaches i l) (inner : lowestBit l.u ≠ l.v) :
    2 * l.v.toNat < UInt32.size := by
  cases reaches with
  | start => exact absurd rfl inner
  | element place => exact place.double_lt inner

theorem take (reaches : Reaches i l) (count : Nat) :
    (l.take count).map UInt32.toNat =
      (List.range (min count (length - i))).map fun k => term (i + k + 1) := by
  induction count generalizing i l with
  | zero => simp [Luby.take]
  | succ count ih =>
    rcases Nat.lt_or_eq_of_le reaches.le_length with more | last
    · obtain ⟨l', answer, value, reaches'⟩ := reaches.next more
      have left : min (count + 1) (length - i) = min count (length - (i + 1)) + 1 := by omega
      have index (k : Nat) : i + 1 + k + 1 = i + (k + 1) + 1 := by omega
      simp only [Luby.take, answer, List.map_cons, value, ih reaches', left,
        List.range_succ_eq_map, List.map_map, Function.comp_def, index]
    · simp [Luby.take, (reaches.ends last).1, last]

theorem drop (reaches : Reaches i l) (count : Nat) :
    Reaches (min (i + count) length) (l.drop count) := by
  induction count generalizing i l with
  | zero => rwa [Luby.drop, Nat.add_zero, Nat.min_eq_left reaches.le_length]
  | succ count ih =>
    rcases Nat.lt_or_eq_of_le reaches.le_length with more | last
    · obtain ⟨l', answer, -, reaches'⟩ := reaches.next more
      have index : i + 1 + count = i + (count + 1) := by omega
      simpa only [Luby.drop, answer, index] using ih reaches'
    · have full : min (i + (count + 1)) length = i := by omega
      simpa only [Luby.drop, (reaches.ends last).1, full] using reaches

end Reaches

/-- The iterator gives the Luby sequence as far as a word can number the blocks, and no word
overflows before. -/
structure Follows : Prop where
  elements : ∀ count, (take count {}).map UInt32.toNat =
    (List.range (min count length)).map fun i => term (i + 1)
  ends_iff : ∀ count, (drop count {}).next? = none ↔ length ≤ count
  full : ∀ count, (drop count {}).next? = none → (drop count {}).u.toNat = 2 ^ 32 - 1
  doubles : ∀ count, lowestBit (drop count {}).u ≠ (drop count {}).v →
    2 * (drop count {}).v.toNat < 2 ^ 32

theorem follows : Follows where
  elements count := by simpa using Reaches.start.take count
  ends_iff count := by
    rw [(Reaches.start.drop count).next?_eq_none_iff]
    omega
  full count ended := by
    have reaches := Reaches.start.drop count
    exact (reaches.ends (reaches.next?_eq_none_iff.1 ended)).2
  doubles count inner := (Reaches.start.drop count).double_lt inner

end ClauseLearning.Luby
