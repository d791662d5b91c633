import ClauseLearning.Proofs.Agreement
import ClauseLearning.Proofs.ClauseStore

/-!
Why each literal of the trail is there. A decision starts a level, a unit is of level zero, and any
other literal stands in front of a live clause whose other literals became false before it, one of
them at its own level.
-/

namespace ClauseLearning

structure Trail.Extends (t t' : Trail) : Prop where
  literals : t.literals.toList <+: t'.literals.toList
  starts : ∀ i < t.literals.size, i ∈ t'.starts ↔ i ∈ t.starts
  levels : ∀ i < t.literals.size, t'.levelAt i = t.levelAt i

namespace Trail.Extends

variable {t t' t'' : Trail}

theorem refl (t : Trail) : t.Extends t := ⟨List.prefix_refl _, fun _ _ => Iff.rfl, fun _ _ => rfl⟩

theorem size_le (extended : t.Extends t') : t.literals.size ≤ t'.literals.size := by
  simpa using extended.literals.length_le

theorem trans (first : t.Extends t') (second : t'.Extends t'') : t.Extends t'' where
  literals := first.literals.trans second.literals
  starts i inside :=
    (second.starts i (inside.trans_le first.size_le)).trans (first.starts i inside)
  levels i inside :=
    (second.levels i (inside.trans_le first.size_le)).trans (first.levels i inside)

theorem getElem? (extended : t.Extends t') {i : Nat} (inside : i < t.literals.size) :
    t'.literals[i]? = t.literals[i]? := by
  obtain ⟨rest, appended⟩ := extended.literals
  rw [← Array.getElem?_toList, ← Array.getElem?_toList, ← appended,
    List.getElem?_append_left (by simpa using inside)]

theorem getElem?_eq_some (extended : t.Extends t') {i : Nat} {l : Literal}
    (found : t.literals[i]? = some l) : t'.literals[i]? = some l := by
  rw [extended.getElem? (Array.getElem?_eq_some_iff.1 found).1, found]

theorem levelAt_eq (extended : t.Extends t') {i : Nat} {l : Literal}
    (found : t.literals[i]? = some l) : t'.levelAt i = t.levelAt i :=
  extended.levels i (Array.getElem?_eq_some_iff.1 found).1

theorem push (t : Trail) (l : Literal) : t.Extends (t.push l) where
  literals := by simp [Trail.push]
  starts _ _ := Iff.rfl
  levels _ _ := rfl

theorem decide (t : Trail) (l : Literal) : t.Extends (t.pushLevel.push l) where
  literals := by simp [Trail.push, pushLevel]
  starts i inside := by
    simp only [Trail.push, pushLevel, Array.mem_push]
    exact ⟨fun member => member.resolve_right inside.ne, .inl⟩
  levels i inside := by
    rw [levelAt_push, levelAt_pushLevel, if_neg (Nat.not_le.2 inside), Nat.add_zero]

end Trail.Extends

/-- The literal at a position is in front of a clause whose other literals are false before it, one
of them at its level. -/
structure Trail.Implies (t : Trail) (i : Nat) (c : WatchedClause) (l : Literal) : Prop where
  front : c.first = l
  earlier : ∀ m ∈ c.clause, m ≠ l → ∃ j < i, t.literals[j]? = some (-m)
  latest : ∃ m ∈ c.clause, ∃ j < i, t.literals[j]? = some (-m) ∧ t.levelAt j = t.levelAt i

namespace Trail.Implies

variable {t t' : Trail} {i : Nat} {c c' : WatchedClause} {l : Literal}

theorem mono (implies : t.Implies i c l)
    (kept : ∀ j < i, ∀ m, t.literals[j]? = some m → t'.literals[j]? = some m)
    (levels : ∀ j ≤ i, t'.levelAt j = t.levelAt j) : t'.Implies i c l where
  front := implies.front
  earlier m member other := by
    obtain ⟨j, before, found⟩ := implies.earlier m member other
    exact ⟨j, before, kept j before _ found⟩
  latest := by
    obtain ⟨m, member, j, before, found, same⟩ := implies.latest
    refine ⟨m, member, j, before, kept j before _ found, ?_⟩
    rw [levels j before.le, levels i (Nat.le_refl i), same]

theorem perm (implies : t.Implies i c l) (front : c'.first = c.first)
    (perm : c'.clause.Perm c.clause) : t.Implies i c' l where
  front := front.trans implies.front
  earlier m member := implies.earlier m (perm.mem_iff.1 member)
  latest := by
    obtain ⟨m, member, rest⟩ := implies.latest
    exact ⟨m, perm.mem_iff.2 member, rest⟩

end Trail.Implies

def Source.Justifies (trail : Trail) (s : ClauseStore) (i : Nat) (l : Literal) : Source → Prop
  | .decision => i ∈ trail.starts
  | .unit _ => i ∉ trail.starts ∧ trail.levelAt i = 0
  | .propagation key => i ∉ trail.starts ∧ ∃ c, s.get key = .ok c ∧ trail.Implies i c l

def AtomTable.Justified (t : AtomTable) (trail : Trail) (s : ClauseStore) : Prop :=
  ∀ (i : Nat) (l : Literal), trail.literals[i]? = some l →
    ∃ source, t.source l.natAbs = some source ∧ source.Justifies trail s i l

namespace AtomTable.Justified

variable {t t' : AtomTable} {trail trail' : Trail} {s s' : ClauseStore}

theorem congr (justified : t.Justified trail s)
    (same : ∀ a, t'.assignment? a = t.assignment? a) : t'.Justified trail s := by
  intro i l found
  rw [source_eq, same, ← source_eq]
  exact justified i l found

theorem store (justified : t.Justified trail s)
    (kept : ∀ key c, s.get key = .ok c → c.first ∈ trail.literals →
      t.source c.first.natAbs = some (.propagation key) →
      ∃ c', s'.get key = .ok c' ∧ c'.first = c.first ∧ c'.clause.Perm c.clause) :
    t.Justified trail s' := by
  intro i l found
  obtain ⟨source, known, justifies⟩ := justified i l found
  refine ⟨source, known, ?_⟩
  cases source with
  | decision => exact justifies
  | unit key => exact justifies
  | propagation key =>
    obtain ⟨inner, c, live, implies⟩ := justifies
    obtain ⟨c', live', front, perm⟩ := kept key c live
      (implies.front ▸ Array.mem_of_getElem? found) (implies.front ▸ known)
    exact ⟨inner, c', live', implies.perm front perm⟩

theorem same (justified : t.Justified trail s) (same : s.SameClauses s') :
    t.Justified trail s' :=
  justified.store fun key c live _ _ => ⟨c, (same.get_eq key).trans live, rfl, .refl _⟩

theorem extend (justified : t.Justified trail s) {l : Literal} {level : Nat} {source : Source}
    (agrees : t.Agrees trail) (unvalued : t.assignment? l.natAbs = none)
    (assigned : ∀ a, t'.assignment? a =
      if a = l.natAbs then some ⟨l.polarity, level, some source⟩ else t.assignment? a)
    (extended : trail.Extends trail') (literals : trail'.literals = trail.literals.push l)
    (justifies : source.Justifies trail' s trail.literals.size l) : t'.Justified trail' s := by
  intro i m found
  rw [literals, Array.getElem?_push] at found
  split at found
  · rename_i last
    obtain rfl := Option.some.inj found
    subst last
    exact ⟨source, by rw [source_eq, assigned, if_pos rfl]; rfl, justifies⟩
  · have inside := (Array.getElem?_eq_some_iff.1 found).1
    obtain ⟨source, known, justifies⟩ := justified i m found
    have other : m.natAbs ≠ l.natAbs := by
      intro same
      obtain ⟨-, source, valued⟩ := agrees.listed i m found
      rw [same, unvalued] at valued
      cases valued
    refine ⟨source, by rw [source_eq, assigned, if_neg other, ← source_eq, known], ?_⟩
    cases source with
    | decision => exact (extended.starts i inside).2 justifies
    | unit key =>
      exact ⟨fun member => justifies.1 ((extended.starts i inside).1 member),
        (extended.levels i inside).trans justifies.2⟩
    | propagation key =>
      obtain ⟨inner, c, live, implies⟩ := justifies
      refine ⟨fun member => inner ((extended.starts i inside).1 member), c, live, ?_⟩
      exact implies.mono (fun j _ _ located => extended.getElem?_eq_some located)
        fun j le => extended.levels j (by omega)

theorem cut (justified : t.Justified trail s) (sorted : trail.Sorted) (n : Nat)
    (kept : ∀ (i : Nat) (l : Literal), trail.literals[i]? = some l → trail.levelAt i ≤ n →
      t'.assignment? l.natAbs = t.assignment? l.natAbs) : t'.Justified (trail.cut n) s := by
  intro i l found
  rw [Trail.getElem?_cut sorted] at found
  split at found
  · rename_i le
    obtain ⟨source, known, justifies⟩ := justified i l found
    have starts := Trail.mem_starts_cut sorted le
    refine ⟨source, by rw [source_eq, kept i l found le, ← source_eq, known], ?_⟩
    cases source with
    | decision => exact starts.2 justifies
    | unit key =>
      exact ⟨fun member => justifies.1 (starts.1 member),
        (Trail.levelAt_cut sorted le).trans justifies.2⟩
    | propagation key =>
      obtain ⟨inner, c, live, implies⟩ := justifies
      have before (j : Nat) (earlier : j ≤ i) : trail.levelAt j ≤ n :=
        (trail.levelAt_mono earlier).trans le
      refine ⟨fun member => inner (starts.1 member), c, live, implies.mono ?_ ?_⟩
      · intro j earlier m located
        rw [Trail.getElem?_cut sorted, if_pos (before j earlier.le), located]
      · exact fun j earlier => Trail.levelAt_cut sorted (before j earlier)
  · cases found

end AtomTable.Justified

end ClauseLearning
