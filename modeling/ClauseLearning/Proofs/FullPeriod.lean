import ClauseLearning.Random.Generator
import Mathlib.Data.Nat.Digits.Defs
import Mathlib.Data.UInt
import Mathlib.Dynamics.PeriodicPts.Lemmas
import Mathlib.Tactic.LinearCombination
import Mathlib.Tactic.Ring

/-!
The generator visits every state before it comes back to the first. The multiplier is one modulo
four and the increment is odd, so by doubling `2 ^ k` draws add an odd multiple of `2 ^ k` to the
state, up to a multiple of `2 ^ (k + 2)`. Hence `2 ^ 64` draws change nothing, while `2 ^ 63` draws
change the highest bit.
-/

namespace ClauseLearning.Generator

open Function
open scoped UInt64.CommRing

def drawn (g : Generator) (count : Nat) : Generator := (fun g => g.next32.2)^[count] g

theorem drawn_eq (g : Generator) (count : Nat) : g.drawn count = advance^[count] g := rfl

theorem drawn_one (g : Generator) : g.drawn 1 = g.advance := rfl

theorem drawn_add (g : Generator) (m n : Nat) : g.drawn (m + n) = (g.drawn m).drawn n := by
  rw [Nat.add_comm, drawn_eq, iterate_add_apply]
  rfl

theorem two_pow_64 : (2 : UInt64) ^ 64 = 0 := by decide +kernel

theorem exists_multiplier : ∃ a : UInt64, multiplier = 1 + 2 ^ 2 * a :=
  ⟨1591034055961698251, by decide +kernel⟩

theorem exists_increment : ∃ c : UInt64, increment = 2 * c + 1 :=
  ⟨721347520444481703, by decide +kernel⟩

theorem exists_drawn_two_pow (k : Nat) : ∃ a c : UInt64, ∀ x : UInt64,
    drawn ⟨x⟩ (2 ^ k) = ⟨x * (1 + 2 ^ (k + 2) * a) + 2 ^ k * (2 * c + 1)⟩ := by
  induction k with
  | zero =>
    obtain ⟨a, multiplier⟩ := exists_multiplier
    obtain ⟨c, increment⟩ := exists_increment
    refine ⟨a, c, fun x => ?_⟩
    rw [pow_zero, pow_zero, one_mul, ← increment, Nat.zero_add, ← multiplier]
    rfl
  | succ k ih =>
    obtain ⟨a, c, run⟩ := ih
    refine ⟨a * (1 + 2 ^ (k + 1) * a), c + 2 ^ k * a * (2 * c + 1), fun x => ?_⟩
    rw [pow_succ, Nat.mul_two, drawn_add, run, run]
    congr 1
    ring

theorem drawn_fullPeriod (g : Generator) : g.drawn (2 ^ 64) = g := by
  obtain ⟨a, c, run⟩ := exists_drawn_two_pow 64
  obtain ⟨x⟩ := g
  refine (run x).trans (congrArg mk ?_)
  linear_combination (x * 2 ^ 2 * a + 2 * c + 1) * two_pow_64

theorem drawn_halfPeriod (g : Generator) : g.drawn (2 ^ 63) ≠ g := by
  obtain ⟨a, c, run⟩ := exists_drawn_two_pow 63
  obtain ⟨x⟩ := g
  intro same
  rw [run] at same
  have highest : (2 : UInt64) ^ 63 = 0 := by
    linear_combination congrArg state same - (2 * x * a + c) * two_pow_64
  exact absurd highest (by decide +kernel)

theorem minimalPeriod_advance (g : Generator) : minimalPeriod advance g = 2 ^ 64 := by
  have prime : Fact (Nat.Prime 2) := ⟨Nat.prime_two⟩
  exact minimalPeriod_eq_prime_pow (drawn_halfPeriod g) (drawn_fullPeriod g)

theorem drawn_eq_self_iff (g : Generator) (count : Nat) : g.drawn count = g ↔ 2 ^ 64 ∣ count := by
  rw [← minimalPeriod_advance g]
  exact isPeriodicPt_iff_minimalPeriod_dvd

theorem advance_injective : Injective advance := by
  intro g g' same
  have period : 2 ^ 64 = 1 + (2 ^ 64 - 1) := by decide
  have back (g : Generator) : (advance g).drawn (2 ^ 64 - 1) = g := by
    rw [← drawn_one g, ← drawn_add, ← period, drawn_fullPeriod]
  rw [← back g, same, back]

theorem existsUnique_drawn (g : Generator) (state : UInt64) :
    ∃! count, count < 2 ^ 64 ∧ g.drawn count = ⟨state⟩ := by
  have apart {m n : Nat} (first : m < 2 ^ 64) (second : n < 2 ^ 64)
      (same : g.drawn m = g.drawn n) : m = n := by
    rw [← minimalPeriod_advance g] at first second
    exact (iterate_eq_iterate_iff_of_lt_minimalPeriod first second).1 same
  have injective : Injective fun i : Fin (2 ^ 64) => (g.drawn i).state.toFin := by
    intro m n same
    exact Fin.ext (apart m.isLt n.isLt (congrArg mk (UInt64.toFin_inj.1 same)))
  obtain ⟨i, reached⟩ := Finite.surjective_of_injective injective state.toFin
  refine ⟨i, ⟨i.isLt, congrArg mk (UInt64.toFin_inj.1 reached)⟩, fun n ⟨below, found⟩ => ?_⟩
  exact apart below i.isLt (found.trans (congrArg mk (UInt64.toFin_inj.1 reached)).symm)

theorem existsUnique_drawn_from (g : Generator) (first : Nat) (state : UInt64) :
    ∃! count, (first ≤ count ∧ count < first + 2 ^ 64) ∧ g.drawn count = ⟨state⟩ := by
  obtain ⟨n, ⟨below, reached⟩, unique⟩ := existsUnique_drawn (g.drawn first) state
  refine ⟨first + n, ⟨⟨Nat.le_add_right .., Nat.add_lt_add_left below first⟩, ?_⟩, ?_⟩
  · rw [drawn_add, reached]
  · rintro count ⟨⟨le, lt⟩, found⟩
    obtain ⟨m, rfl⟩ := Nat.exists_eq_add_of_le le
    rw [drawn_add] at found
    rw [unique m ⟨Nat.lt_of_add_lt_add_left lt, found⟩]

theorem ofSeed_injective : Injective ofSeed := by
  intro seed seed' same
  exact add_left_cancel (congrArg state (advance_injective same))

def seedOfBytes (bytes : Vector UInt8 8) : UInt64 :=
  UInt64.ofNat (Nat.ofDigits 256 (bytes.toList.map UInt8.toNat))

theorem seedOfBytes_injective : Injective seedOfBytes := by
  intro bytes bytes' same
  have digit (bytes : Vector UInt8 8) : ∀ n ∈ bytes.toList.map UInt8.toNat, n < 256 := by
    intro n member
    obtain ⟨byte, -, rfl⟩ := List.mem_map.1 member
    exact byte.toNat_lt
  have length (bytes : Vector UInt8 8) : (bytes.toList.map UInt8.toNat).length = 8 := by simp
  have bounded (bytes : Vector UInt8 8) :
      Nat.ofDigits 256 (bytes.toList.map UInt8.toNat) < UInt64.size := by
    have below := Nat.ofDigits_lt_base_pow_length (by decide) (digit bytes)
    rwa [length] at below
  have numbers := congrArg UInt64.toNat same
  rw [seedOfBytes, seedOfBytes, UInt64.toNat_ofNat_of_lt' (bounded bytes),
    UInt64.toNat_ofNat_of_lt' (bounded bytes')] at numbers
  have digits := Nat.ofDigits_inj_of_len_eq (by decide) ((length bytes).trans (length bytes').symm)
    (digit bytes) (digit bytes') numbers
  exact Vector.toList_inj.1 (List.map_injective_iff.2 (fun _ _ => UInt8.toNat_inj.1) digits)

/-- From any seed the states come back to the first after each `2 ^ 64` draws and at no other time,
and among `2 ^ 64` draws on end each state comes once. Different seeds have different first
states. -/
theorem ofSeed_cycles (seed : UInt64) :
    (∀ count, (ofSeed seed).drawn count = ofSeed seed ↔ 2 ^ 64 ∣ count) ∧
      (∀ (first : Nat) (state : UInt64), ∃! count,
        (first ≤ count ∧ count < first + 2 ^ 64) ∧ (ofSeed seed).drawn count = ⟨state⟩) ∧
      (∀ other, ofSeed other = ofSeed seed → other = seed) ∧
      Injective seedOfBytes :=
  ⟨drawn_eq_self_iff _, existsUnique_drawn_from _, fun _ same => ofSeed_injective same,
    seedOfBytes_injective⟩

end ClauseLearning.Generator
