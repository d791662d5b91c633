import ClauseLearning.Proofs.AtomTable
import ClauseLearning.Proofs.Trail

namespace ClauseLearning

theorem Literal.natAbs_pos {l : Int} : 0 < l.natAbs ↔ l ≠ 0 := Int.natAbs_pos

theorem Literal.eq_or_eq_neg {l m : Int} (atom : l.natAbs = m.natAbs) : m = l ∨ m = -l := by
  omega

theorem Literal.ne_neg {l : Int} (nonzero : l ≠ 0) : l ≠ -l := by
  omega

theorem Literal.bmod_of_le_max {a : Nat} (le : a ≤ Atom.max) :
    Int.bmod (a : Int) (Nat.pow 2 32) = a := by
  have bound : a ≤ 2147483647 := le
  have word : Nat.pow 2 32 = 4294967296 := rfl
  rw [word]
  refine Int.bmod_eq_of_le ?_ ?_ <;> omega

theorem Literal.natAbs_ofAtom {a : Nat} (le : a ≤ Atom.max) (polarity : Bool) :
    (Literal.ofAtom a polarity).natAbs = a := by
  unfold Literal.ofAtom
  simp only [Literal.bmod_of_le_max le]
  cases polarity <;> simp

theorem Literal.ofAtom_natAbs {l : Int} (bounded : l.natAbs ≤ Atom.max) :
    Literal.ofAtom l.natAbs (Literal.polarity l) = l := by
  have positive : 0 < l → (l.natAbs : Int) = l := by omega
  have negative : ¬0 < l → -(l.natAbs : Int) = l := by omega
  unfold Literal.ofAtom Literal.polarity
  simp only [Literal.bmod_of_le_max bounded, decide_eq_true_eq]
  split
  · exact positive ‹_›
  · exact negative ‹_›

structure AtomTable.Agrees (t : AtomTable) (trail : Trail) : Prop where
  top : t.assignment? 0 = some ⟨true, 0, none⟩
  listed : ∀ i l, trail.literals[i]? = some l → l ≠ 0 ∧
    ∃ source, t.assignment? l.natAbs = some ⟨l.polarity, trail.levelAt i, some source⟩
  located : ∀ a assignment, 0 < a → t.assignment? a = some assignment →
    ∃ l ∈ trail.literals, l.natAbs = a
  distinct : ∀ (i j : Nat) (l m : Literal), trail.literals[i]? = some l →
    trail.literals[j]? = some m → l.natAbs = m.natAbs → i = j

namespace AtomTable.Agrees

variable {t : AtomTable} {trail : Trail}

theorem congr {t' : AtomTable} (agrees : t.Agrees trail)
    (same : ∀ a, t'.assignment? a = t.assignment? a) : t'.Agrees trail where
  top := by rw [same, agrees.top]
  listed i l found := by
    rw [same]
    exact agrees.listed i l found
  located a assignment positive assigned :=
    agrees.located a assignment positive (same a ▸ assigned)
  distinct := agrees.distinct

theorem regroup (agrees : t.Agrees trail) {trail' : Trail}
    (literals : trail'.literals = trail.literals)
    (levels : ∀ i < trail.literals.size, trail'.levelAt i = trail.levelAt i) :
    t.Agrees trail' where
  top := agrees.top
  listed i l found := by
    rw [literals] at found
    rw [levels i (Array.getElem?_eq_some_iff.1 found).1]
    exact agrees.listed i l found
  located := literals ▸ agrees.located
  distinct := literals ▸ agrees.distinct

theorem nonzero (agrees : t.Agrees trail) {l : Literal} (member : l ∈ trail.literals) : l ≠ 0 := by
  obtain ⟨i, found⟩ := Array.getElem?_of_mem member
  exact (agrees.listed i l found).1

theorem known (agrees : t.Agrees trail) {l : Literal} (member : l ∈ trail.literals) :
    l.natAbs < t.size := by
  obtain ⟨i, found⟩ := Array.getElem?_of_mem member
  obtain ⟨-, source, assigned⟩ := agrees.listed i l found
  exact lt_size_of_assignment? assigned

theorem not_neg_mem (agrees : t.Agrees trail) {l : Literal} (member : l ∈ trail.literals) :
    -l ∉ trail.literals := by
  intro opposite
  obtain ⟨i, found⟩ := Array.getElem?_of_mem member
  obtain ⟨j, located⟩ := Array.getElem?_of_mem opposite
  have same := agrees.distinct i j l (-l) found located (Int.natAbs_neg l).symm
  subst same
  exact Literal.ne_neg (agrees.nonzero member) (Option.some.inj (found.symm.trans located))

theorem nodup (agrees : t.Agrees trail) : trail.literals.toList.Nodup := by
  refine List.pairwise_iff_getElem.2 fun i j before inside lt same => ?_
  have found : trail.literals[i]? = some trail.literals.toList[i] := by simp
  have located : trail.literals[j]? = some trail.literals.toList[j] := by simp
  exact lt.ne (agrees.distinct i j _ _ found located (congrArg Int.natAbs same))

theorem literalValue_of_mem (agrees : t.Agrees trail) {l : Literal} (member : l ∈ trail.literals) :
    t.literalValue l = some true := by
  obtain ⟨i, found⟩ := Array.getElem?_of_mem member
  obtain ⟨-, source, assigned⟩ := agrees.listed i l found
  simp [literalValue_eq, assigned]

theorem literalValue_of_neg_mem (agrees : t.Agrees trail) {l : Literal}
    (member : -l ∈ trail.literals) : t.literalValue l = some false := by
  obtain ⟨i, found⟩ := Array.getElem?_of_mem member
  obtain ⟨nonzero, source, assigned⟩ := agrees.listed i (-l) found
  rw [Int.natAbs_neg] at assigned
  simp [literalValue_eq, assigned, Literal.polarity_neg (show l ≠ 0 by simpa using nonzero)]

theorem mem_or_neg_mem (agrees : t.Agrees trail) {l : Literal} (nonzero : l ≠ 0)
    {assignment : Assignment} (assigned : t.assignment? l.natAbs = some assignment) :
    l ∈ trail.literals ∨ -l ∈ trail.literals := by
  obtain ⟨m, member, atom⟩ := agrees.located _ _ (Literal.natAbs_pos.2 nonzero) assigned
  rcases Literal.eq_or_eq_neg atom.symm with rfl | rfl
  · exact .inl member
  · exact .inr member

theorem assignment?_eq_none_iff (agrees : t.Agrees trail) {l : Literal} (nonzero : l ≠ 0) :
    t.assignment? l.natAbs = none ↔ l ∉ trail.literals ∧ -l ∉ trail.literals := by
  constructor
  · intro unvalued
    constructor <;> intro member <;> obtain ⟨i, found⟩ := Array.getElem?_of_mem member <;>
      obtain ⟨-, source, assigned⟩ := agrees.listed i _ found
    · simp [unvalued] at assigned
    · simp [unvalued] at assigned
  · rintro ⟨absent, opposite⟩
    cases assigned : t.assignment? l.natAbs with
    | none => rfl
    | some assignment =>
      rcases agrees.mem_or_neg_mem nonzero assigned with member | member
      · exact absurd member absent
      · exact absurd member opposite

theorem literalValue_eq_none_iff (agrees : t.Agrees trail) {l : Literal} (nonzero : l ≠ 0) :
    t.literalValue l = none ↔ l ∉ trail.literals ∧ -l ∉ trail.literals := by
  rw [← agrees.assignment?_eq_none_iff nonzero, literalValue_eq, Option.map_eq_none_iff]

theorem literalValue_eq_true_iff (agrees : t.Agrees trail) {l : Literal} (nonzero : l ≠ 0) :
    t.literalValue l = some true ↔ l ∈ trail.literals := by
  refine ⟨fun true => ?_, agrees.literalValue_of_mem⟩
  by_contra absent
  by_cases opposite : -l ∈ trail.literals
  · simp [agrees.literalValue_of_neg_mem opposite] at true
  · simp [(agrees.literalValue_eq_none_iff nonzero).2 ⟨absent, opposite⟩] at true

theorem literalValue_eq_false_iff (agrees : t.Agrees trail) {l : Literal} (nonzero : l ≠ 0) :
    t.literalValue l = some false ↔ -l ∈ trail.literals := by
  refine ⟨fun false => ?_, agrees.literalValue_of_neg_mem⟩
  by_contra absent
  by_cases member : l ∈ trail.literals
  · simp [agrees.literalValue_of_mem member] at false
  · simp [(agrees.literalValue_eq_none_iff nonzero).2 ⟨member, absent⟩] at false

theorem level_of_getElem? (agrees : t.Agrees trail) {i : Nat} {l : Literal}
    (found : trail.literals[i]? = some l) : t.level l.natAbs = some (trail.levelAt i) := by
  obtain ⟨-, source, assigned⟩ := agrees.listed i l found
  simp [level_eq, assigned]

theorem level_of_neg (agrees : t.Agrees trail) {i : Nat} {l : Literal}
    (isFalse : trail.literals[i]? = some (-l)) : t.level l.natAbs = some (trail.levelAt i) := by
  rw [← Int.natAbs_neg l]
  exact agrees.level_of_getElem? isFalse

theorem exists_getElem? (agrees : t.Agrees trail) {a : Nat} {source : Source}
    (known : t.source a = some source) :
    ∃ (i : Nat) (l : Literal), trail.literals[i]? = some l ∧ l.natAbs = a := by
  rw [source_eq] at known
  obtain ⟨assignment, assigned, origin⟩ := Option.bind_eq_some_iff.1 known
  rcases Nat.eq_zero_or_pos a with rfl | positive
  · -- The constant true has its value from no source.
    rw [agrees.top] at assigned
    obtain rfl := Option.some.inj assigned
    cases origin
  · obtain ⟨l, member, atom⟩ := agrees.located a assignment positive assigned
    obtain ⟨i, found⟩ := Array.getElem?_of_mem member
    exact ⟨i, l, found, atom⟩

theorem extend (agrees : t.Agrees trail) {l : Literal} {level : Nat} {source : Source}
    {t' : AtomTable} {trail' : Trail} (nonzero : l ≠ 0)
    (unvalued : t.assignment? l.natAbs = none)
    (assigned : ∀ a, t'.assignment? a =
      if a = l.natAbs then some ⟨l.polarity, level, some source⟩ else t.assignment? a)
    (literals : trail'.literals = trail.literals.push l)
    (levels : ∀ i < trail.literals.size, trail'.levelAt i = trail.levelAt i)
    (last : trail'.levelAt trail.literals.size = level) : t'.Agrees trail' := by
  have absent := (agrees.assignment?_eq_none_iff nonzero).1 unvalued
  have fresh : ∀ {m : Literal}, m ∈ trail.literals → m.natAbs ≠ l.natAbs := by
    intro m member same
    rcases Literal.eq_or_eq_neg same.symm with rfl | rfl
    · exact absent.1 member
    · exact absent.2 member
  have cases_of {i : Nat} {m : Literal} (found : trail'.literals[i]? = some m) :
      (i = trail.literals.size ∧ m = l) ∨
        (i < trail.literals.size ∧ trail.literals[i]? = some m) := by
    rw [literals, Array.getElem?_push] at found
    split at found
    · exact .inl ⟨‹_›, (Option.some.inj found).symm⟩
    · exact .inr ⟨(Array.getElem?_eq_some_iff.1 found).1, found⟩
  constructor
  · rw [assigned, if_neg (Literal.natAbs_pos.2 nonzero).ne, agrees.top]
  · intro i m found
    rcases cases_of found with ⟨rfl, rfl⟩ | ⟨inside, found⟩
    · exact ⟨nonzero, source, by rw [assigned, if_pos rfl, last]⟩
    · obtain ⟨nonzero, source, known⟩ := agrees.listed i m found
      refine ⟨nonzero, source, ?_⟩
      rw [assigned, if_neg (fresh (Array.mem_of_getElem? found)), levels i inside, known]
  · intro a assignment positive value
    rw [assigned] at value
    rw [literals]
    split at value
    · exact ⟨l, Array.mem_push_self, by simp [*]⟩
    · obtain ⟨m, member, atom⟩ := agrees.located a assignment positive value
      exact ⟨m, Array.mem_push_of_mem l member, atom⟩
  · intro i j m n first second same
    rcases cases_of first with ⟨rfl, rfl⟩ | ⟨_, first⟩ <;>
      rcases cases_of second with ⟨rfl, rfl⟩ | ⟨_, second⟩
    · rfl
    · exact absurd same.symm (fresh (Array.mem_of_getElem? second))
    · exact absurd same (fresh (Array.mem_of_getElem? first))
    · exact agrees.distinct i j m n first second same

theorem cut (agrees : t.Agrees trail) (sorted : trail.Sorted) (n : Nat) {t' : AtomTable}
    (cleared : ∀ a, t'.assignment? a =
      if ∃ l ∈ trail.above n, l.natAbs = a then none else t.assignment? a) :
    t'.Agrees (trail.cut n) := by
  have kept {i : Nat} {l : Literal} (found : trail.literals[i]? = some l)
      (le : trail.levelAt i ≤ n) : t'.assignment? l.natAbs = t.assignment? l.natAbs := by
    rw [cleared, if_neg]
    rintro ⟨m, member, same⟩
    obtain ⟨j, located, above⟩ := (Trail.mem_above sorted n m).1 member
    obtain rfl := agrees.distinct i j l m found located same.symm
    exact absurd above (Nat.not_lt.2 le)
  have cases_of {i : Nat} {l : Literal} (found : (trail.cut n).literals[i]? = some l) :
      trail.literals[i]? = some l ∧ trail.levelAt i ≤ n := by
    rw [Trail.getElem?_cut sorted] at found
    split at found
    · exact ⟨found, ‹_›⟩
    · cases found
  constructor
  · rw [cleared, if_neg, agrees.top]
    rintro ⟨l, member, zero⟩
    obtain ⟨i, found, -⟩ := (Trail.mem_above sorted n l).1 member
    exact (agrees.listed i l found).1 (Int.natAbs_eq_zero.1 zero)
  · intro i l found
    obtain ⟨found, le⟩ := cases_of found
    rw [kept found le, Trail.levelAt_cut sorted le]
    exact agrees.listed i l found
  · intro a assignment positive assigned
    rw [cleared] at assigned
    split at assigned
    · cases assigned
    · rename_i absent
      obtain ⟨l, member, atom⟩ := agrees.located a assignment positive assigned
      obtain ⟨i, found⟩ := Array.getElem?_of_mem member
      refine ⟨l, Array.mem_of_getElem? (i := i) ?_, atom⟩
      rw [Trail.getElem?_cut sorted, if_pos, found]
      by_contra above
      exact absent ⟨l, (Trail.mem_above sorted n l).2 ⟨i, found, by omega⟩, atom⟩
  · intro i j l m first second same
    exact agrees.distinct i j l m (cases_of first).1 (cases_of second).1 same

end AtomTable.Agrees

end ClauseLearning
