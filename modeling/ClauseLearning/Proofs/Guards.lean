import ClauseLearning.Proofs.Reasons
import ClauseLearning.Proofs.WatchedStore

namespace ClauseLearning

/-- If `w` is false at one of the first `n` positions then `o` is true at no higher level. -/
def Trail.Guards (t : Trail) (n : Nat) (w o : Literal) : Prop :=
  ∀ i < n, t.literals[i]? = some (-w) → ∃ j, t.literals[j]? = some o ∧ t.levelAt j ≤ t.levelAt i

def Trail.GuardsClause (t : Trail) (n : Nat) (c : WatchedClause) : Prop :=
  ∀ w o, c.Watches w → c.Watches o → w ≠ o → t.Guards n w o

namespace Trail

variable {t t' : Trail} {n : Nat} {w o : Literal} {c c' : WatchedClause}

theorem Guards.of_not_mem (absent : -w ∉ t.literals) : t.Guards n w o :=
  fun _ _ found => absurd (Array.mem_of_getElem? found) absent

theorem Guards.le (guards : t.Guards n w o) {m : Nat} (le : m ≤ n) : t.Guards m w o :=
  fun i before => guards i (before.trans_le le)

theorem Guards.extend (guards : t.Guards n w o) (extended : t.Extends t')
    (le : n ≤ t.literals.size) : t'.Guards n w o := by
  intro i before found
  rw [extended.getElem? (before.trans_le le)] at found
  obtain ⟨j, located, level⟩ := guards i before found
  refine ⟨j, extended.getElem?_eq_some located, ?_⟩
  rwa [extended.levelAt_eq located, extended.levels i (before.trans_le le)]

theorem Guards.cut (guards : t.Guards t.head w o) (sorted : t.Sorted) (n : Nat) :
    (t.cut n).Guards (t.cut n).head w o := by
  intro i before found
  rw [getElem?_cut sorted] at found
  split at found
  · rename_i le
    -- The other watch is true at no higher level, so a cut that keeps the one keeps the other.
    obtain ⟨j, located, level⟩ := guards i (before.trans_le (head_cut_le t n)) found
    refine ⟨j, by rw [getElem?_cut sorted, if_pos (level.trans le), located], ?_⟩
    rwa [levelAt_cut sorted (level.trans le), levelAt_cut sorted le]
  · cases found

theorem Guards.succ (guards : t.Guards n w o)
    (last : t.literals[n]? = some (-w) → ∃ j, t.literals[j]? = some o ∧ t.levelAt j ≤ t.levelAt n) :
    t.Guards (n + 1) w o := by
  intro i before found
  rcases Nat.eq_or_lt_of_le (Nat.le_of_lt_succ before) with rfl | earlier
  · exact last found
  · exact guards i earlier found

theorem GuardsClause.of_not_mem (absent : ∀ l, c.Watches l → -l ∉ t.literals) :
    t.GuardsClause n c :=
  fun w _ watches _ _ => .of_not_mem (absent w watches)

theorem GuardsClause.le (guards : t.GuardsClause n c) {m : Nat} (le : m ≤ n) :
    t.GuardsClause m c :=
  fun w o first second apart => (guards w o first second apart).le le

theorem GuardsClause.mem_of_neg_mem (guards : t.GuardsClause t.literals.size c)
    (first : c.Watches w) (second : c.Watches o) (apart : w ≠ o) (isFalse : -w ∈ t.literals) :
    o ∈ t.literals := by
  obtain ⟨i, found⟩ := Array.getElem?_of_mem isFalse
  have inside := (Array.getElem?_eq_some_iff.1 found).1
  obtain ⟨j, located, -⟩ := guards w o first second apart i inside found
  exact Array.mem_of_getElem? located

theorem GuardsClause.congr (guards : t.GuardsClause n c)
    (watches : ∀ l, c'.Watches l → c.Watches l) : t.GuardsClause n c' :=
  fun w o first second apart => guards w o (watches w first) (watches o second) apart

theorem GuardsClause.extend (guards : t.GuardsClause n c) (extended : t.Extends t')
    (le : n ≤ t.literals.size) : t'.GuardsClause n c :=
  fun w o first second apart => (guards w o first second apart).extend extended le

end Trail

def ClauseStore.Guarded (s : ClauseStore) (trail : Trail) (exempt : ClauseKey → Prop) : Prop :=
  ∀ key c, s.get key = .ok c → ¬exempt key → trail.GuardsClause trail.head c

namespace ClauseStore.Guarded

variable {s s' : ClauseStore} {t t' : Trail} {exempt : ClauseKey → Prop}

theorem same (guarded : s.Guarded t exempt) (same : s.SameClauses s') : s'.Guarded t exempt :=
  fun key c live => guarded key c (same.get_eq key ▸ live)

theorem extend (guarded : s.Guarded t exempt) (extended : t.Extends t') (head : t'.head = t.head)
    (le : t.head ≤ t.literals.size) : s.Guarded t' exempt := by
  intro key c live counts
  rw [head]
  exact (guarded key c live counts).extend extended le

theorem cut (guarded : s.Guarded t exempt) (sorted : t.Sorted) (n : Nat) :
    s.Guarded (t.cut n) exempt :=
  fun key c live counts w o first second apart =>
    (guarded key c live counts w o first second apart).cut sorted n

theorem modify {key : ClauseKey} {c : WatchedClause} {f : WatchedClause → WatchedClause}
    (guarded : s.Guarded t exempt) (live : s.get key = .ok c) (keeps : (f c).key = c.key)
    (guards : ¬exempt key → t.GuardsClause t.head (f c)) : (s.modify key f).Guarded t exempt := by
  intro other d live' counts
  rcases (get_modify live keeps other d).1 live' with ⟨rfl, rfl⟩ | ⟨-, before⟩
  · exact guards counts
  · exact guarded other d before counts

theorem stored {c : WatchedClause} (guarded : s.Guarded t exempt) (stored : Stored s s' c)
    (guards : ¬exempt c.key → t.GuardsClause t.head c) : s'.Guarded t exempt := by
  intro key d live counts
  rcases (stored.get_iff key d).1 live with ⟨rfl, rfl⟩ | live
  · exact guards counts
  · exact guarded key d live counts

end ClauseStore.Guarded

end ClauseLearning
