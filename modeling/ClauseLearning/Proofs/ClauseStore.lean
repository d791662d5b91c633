import ClauseLearning.ClauseStore.Basic
import ClauseLearning.Proofs.WatchedClause

namespace ClauseLearning.ClauseStore

theorem get_original {s : ClauseStore} {i : Nat} {c : WatchedClause} :
    s.get (.original i) = .ok c ↔ s.originals[i]? = some c := by
  simp only [get]
  cases s.originals[i]? <;> simp

theorem get_addition {s : ClauseStore} {i token : Nat} {c : WatchedClause} :
    s.get (.addition i token) = .ok c ↔
      s.additions[i]? = some (some c) ∧ c.key = .addition i token := by
  simp only [get]
  cases s.additions[i]? with
  | none => simp
  | some slot =>
    cases slot with
    | none => simp
    | some stored =>
      by_cases key : stored.key = .addition i token
      · simp only [if_pos key, Except.ok.injEq, Option.some.injEq]
        exact ⟨fun same => ⟨same, same ▸ key⟩, And.left⟩
      · simp only [if_neg key, reduceCtorEq, Option.some.injEq, false_iff, not_and]
        rintro rfl
        exact key

theorem get_originalUnit {s : ClauseStore} {l : Literal} {c : WatchedClause} :
    s.get (.originalUnit l) ≠ .ok c := by
  simp [get]

theorem get_additionUnit {s : ClauseStore} {l : Literal} {c : WatchedClause} :
    s.get (.additionUnit l) ≠ .ok c := by
  simp [get]

structure WellFormed (proper : Literal → Prop) (s : ClauseStore) : Prop where
  keyed : ∀ (i : Nat) c, s.originals[i]? = some c → c.key = .original i
  slotted : ∀ (i : Nat) c, s.additions[i]? = some (some c) → ∃ token, c.key = .addition i token
  shaped : ∀ key c, s.get key = .ok c → c.WellFormed proper

def stored (s : ClauseStore) : List Clause := s.originalClauses ++ s.additionClauses

namespace WellFormed

variable {proper : Literal → Prop} {s : ClauseStore}

theorem key_eq (wellFormed : s.WellFormed proper) {key : ClauseKey} {c : WatchedClause}
    (live : s.get key = .ok c) : c.key = key := by
  cases key with
  | originalUnit l => exact absurd live get_originalUnit
  | additionUnit l => exact absurd live get_additionUnit
  | original i => exact wellFormed.keyed i c (get_original.1 live)
  | addition i token => exact (get_addition.1 live).2

theorem mem_longClauses (wellFormed : s.WellFormed proper) {c : WatchedClause} :
    c ∈ s.longClauses ↔ s.get c.key = .ok c := by
  simp only [longClauses, longAdditions, List.mem_append, List.mem_filterMap, id_eq,
    exists_eq_right, Array.mem_toList_iff, Array.mem_iff_getElem?]
  constructor
  · rintro (⟨i, found⟩ | ⟨i, found⟩)
    · rw [wellFormed.keyed i c found, get_original, found]
    · obtain ⟨token, key⟩ := wellFormed.slotted i c found
      rw [key, get_addition]
      exact ⟨found, key⟩
  · intro live
    cases key : c.key with
    | originalUnit l => exact absurd (key ▸ live) get_originalUnit
    | additionUnit l => exact absurd (key ▸ live) get_additionUnit
    | original i => exact .inl ⟨i, get_original.1 (key ▸ live)⟩
    | addition i token => exact .inr ⟨i, (get_addition.1 (key ▸ live)).1⟩

theorem mem_stored (wellFormed : s.WellFormed proper) {c : Clause} :
    c ∈ s.stored ↔ (∃ l, c = [l] ∧ (l ∈ s.originalUnits ∨ l ∈ s.additionUnits)) ∨
      ∃ key d, s.get key = .ok d ∧ d.clause = c := by
  simp only [stored, originalClauses, additionClauses, List.mem_append, List.mem_map,
    Array.mem_toList_iff]
  constructor
  · rintro ((⟨l, unit, rfl⟩ | ⟨d, long, rfl⟩) | ⟨l, unit, rfl⟩ | ⟨d, long, rfl⟩)
    · exact .inl ⟨l, rfl, .inl unit⟩
    · exact .inr ⟨_, d, wellFormed.mem_longClauses.1
        (List.mem_append_left _ (Array.mem_toList_iff.2 long)), rfl⟩
    · exact .inl ⟨l, rfl, .inr unit⟩
    · exact .inr ⟨_, d, wellFormed.mem_longClauses.1 (List.mem_append_right _ long), rfl⟩
  · rintro (⟨l, rfl, unit | unit⟩ | ⟨key, d, live, rfl⟩)
    · exact .inl (.inl ⟨l, unit, rfl⟩)
    · exact .inr (.inl ⟨l, unit, rfl⟩)
    · have listed := wellFormed.mem_longClauses.2 ((wellFormed.key_eq live).symm ▸ live)
      rcases List.mem_append.1 listed with original | addition
      · exact .inl (.inr ⟨d, Array.mem_toList_iff.1 original, rfl⟩)
      · exact .inr (.inr ⟨d, addition, rfl⟩)

theorem mono (wellFormed : s.WellFormed proper) {wider : Literal → Prop}
    (included : ∀ l, proper l → wider l) : s.WellFormed wider :=
  ⟨wellFormed.keyed, wellFormed.slotted,
    fun key c live => (wellFormed.shaped key c live).mono included⟩

end WellFormed

structure SameClauses (s s' : ClauseStore) : Prop where
  originalUnits : s'.originalUnits = s.originalUnits
  additionUnits : s'.additionUnits = s.additionUnits
  originals : s'.originals = s.originals
  additions : s'.additions = s.additions

namespace SameClauses

variable {s s' s'' : ClauseStore}

theorem refl (s : ClauseStore) : SameClauses s s := ⟨rfl, rfl, rfl, rfl⟩

theorem trans (first : SameClauses s s') (second : SameClauses s' s'') : SameClauses s s'' :=
  ⟨second.1.trans first.1, second.2.trans first.2, second.3.trans first.3,
    second.4.trans first.4⟩

theorem get_eq (same : SameClauses s s') (key : ClauseKey) : s'.get key = s.get key := by
  cases key <;> simp only [get, same.originals, same.additions]

theorem wellFormed (same : SameClauses s s') {proper : Literal → Prop}
    (wellFormed : s.WellFormed proper) : s'.WellFormed proper where
  keyed := same.originals ▸ wellFormed.keyed
  slotted := same.additions ▸ wellFormed.slotted
  shaped key c live := wellFormed.shaped key c (same.get_eq key ▸ live)

end SameClauses

/-- Two stores hold the same clauses under the same keys, but for the order of their literals. -/
structure Rearranged (s s' : ClauseStore) : Prop where
  originalUnits : s'.originalUnits = s.originalUnits
  additionUnits : s'.additionUnits = s.additionUnits
  forth : ∀ key c, s.get key = .ok c → ∃ c', s'.get key = .ok c' ∧ c'.clause.Perm c.clause
  back : ∀ key c', s'.get key = .ok c' → ∃ c, s.get key = .ok c ∧ c'.clause.Perm c.clause

namespace Rearranged

variable {s s' s'' : ClauseStore}

theorem refl (s : ClauseStore) : Rearranged s s :=
  ⟨rfl, rfl, fun _ c live => ⟨c, live, .refl _⟩, fun _ c live => ⟨c, live, .refl _⟩⟩

theorem trans (first : Rearranged s s') (second : Rearranged s' s'') : Rearranged s s'' where
  originalUnits := second.originalUnits.trans first.originalUnits
  additionUnits := second.additionUnits.trans first.additionUnits
  forth key c live := by
    obtain ⟨c', live', perm⟩ := first.forth key c live
    obtain ⟨c'', live'', perm'⟩ := second.forth key c' live'
    exact ⟨c'', live'', perm'.trans perm⟩
  back key c'' live'' := by
    obtain ⟨c', live', perm'⟩ := second.back key c'' live''
    obtain ⟨c, live, perm⟩ := first.back key c' live'
    exact ⟨c, live, perm'.trans perm⟩

end Rearranged

section Modify

variable {proper : Literal → Prop} {s : ClauseStore} {key : ClauseKey} {c : WatchedClause}
  {f : WatchedClause → WatchedClause}

theorem get_modify (live : s.get key = .ok c)
    (keeps : (f c).key = c.key) (other : ClauseKey) (d : WatchedClause) :
    (s.modify key f).get other = .ok d ↔
      (other = key ∧ d = f c) ∨ (other ≠ key ∧ s.get other = .ok d) := by
  cases key with
  | originalUnit l => exact absurd live get_originalUnit
  | additionUnit l => exact absurd live get_additionUnit
  | original i =>
    have found := get_original.1 live
    cases other with
    | originalUnit l => simp [get]
    | additionUnit l => simp [get]
    | addition j token => simp [get, modify]
    | original j =>
      rw [get_original, get_original, modify]
      simp only [Array.getElem?_modify, ClauseKey.original.injEq]
      by_cases same : j = i
      · subst same
        simp [found, eq_comm]
      · simp [same, Ne.symm same]
  | addition i token =>
    obtain ⟨found, holds⟩ := get_addition.1 live
    cases other with
    | originalUnit l => simp [get]
    | additionUnit l => simp [get]
    | original j => simp [get, modify]
    | addition j token' =>
      rw [get_addition, get_addition, modify]
      simp only [Array.getElem?_modify, ClauseKey.addition.injEq]
      by_cases same : j = i
      · subst same
        simp only [if_pos, found, Option.map_some, Option.some.injEq, true_and]
        constructor
        · rintro ⟨rfl, key⟩
          rw [keeps, holds, ClauseKey.addition.injEq] at key
          exact .inl ⟨key.2.symm, rfl⟩
        · rintro (⟨rfl, rfl⟩ | ⟨stale, rfl, key⟩)
          · exact ⟨rfl, keeps.trans holds⟩
          · rw [holds, ClauseKey.addition.injEq] at key
            exact absurd (by rw [key.2]) stale
      · simp [same, Ne.symm same]

theorem modify_const (live : s.get key = .ok c) :
    (s.modify key fun _ => f c) = s.modify key f := by
  cases key with
  | originalUnit l => rfl
  | additionUnit l => rfl
  | original i =>
    have found := get_original.1 live
    simp only [modify, ClauseStore.mk.injEq, true_and, and_true]
    refine Array.ext_getElem? fun j => ?_
    simp only [Array.getElem?_modify]
    split
    · rename_i same
      rw [← same, found, Option.map_some, Option.map_some]
    · rfl
  | addition i token =>
    have found := (get_addition.1 live).1
    simp only [modify, ClauseStore.mk.injEq, true_and, and_true]
    refine Array.ext_getElem? fun j => ?_
    simp only [Array.getElem?_modify]
    split
    · rename_i same
      rw [← same, found, Option.map_some, Option.map_some, Option.map_some, Option.map_some]
    · rfl

theorem additions_modify (key : ClauseKey) (f : WatchedClause → WatchedClause) (i : Nat) :
    ((s.modify key f).additions[i]?).map Option.isSome = (s.additions[i]?).map Option.isSome := by
  cases key with
  | originalUnit l => rfl
  | additionUnit l => rfl
  | original j => rfl
  | addition j token =>
    simp only [modify, Array.getElem?_modify]
    split
    · cases s.additions[i]? <;> simp
    · rfl

theorem rearranged_modify (live : s.get key = .ok c)
    (keeps : (f c).key = c.key) (perm : (f c).clause.Perm c.clause) :
    Rearranged s (s.modify key f) where
  originalUnits := by cases key <;> rfl
  additionUnits := by cases key <;> rfl
  forth other d found := by
    by_cases same : other = key
    · subst same
      obtain rfl := Except.ok.inj (live.symm.trans found)
      exact ⟨f c, (get_modify live keeps _ _).2 (.inl ⟨rfl, rfl⟩), perm⟩
    · exact ⟨d, (get_modify live keeps _ _).2 (.inr ⟨same, found⟩), .refl _⟩
  back other d found := by
    rcases (get_modify live keeps other d).1 found with ⟨rfl, rfl⟩ | ⟨-, found⟩
    · exact ⟨c, live, perm⟩
    · exact ⟨d, found, .refl _⟩

theorem WellFormed.modify (wellFormed : s.WellFormed proper) (live : s.get key = .ok c)
    (keeps : ∀ d, (f d).key = d.key) (shaped : (f c).WellFormed proper) :
    (s.modify key f).WellFormed proper where
  keyed i d found := by
    cases key with
    | originalUnit l => exact wellFormed.keyed i d found
    | additionUnit l => exact wellFormed.keyed i d found
    | addition j token => exact wellFormed.keyed i d found
    | original j =>
      simp only [ClauseStore.modify, Array.getElem?_modify] at found
      split at found
      · obtain ⟨e, stored, rfl⟩ := Option.map_eq_some_iff.1 found
        rw [keeps, wellFormed.keyed i e stored]
      · exact wellFormed.keyed i d found
  slotted i d found := by
    cases key with
    | originalUnit l => exact wellFormed.slotted i d found
    | additionUnit l => exact wellFormed.slotted i d found
    | original j => exact wellFormed.slotted i d found
    | addition j token =>
      simp only [ClauseStore.modify, Array.getElem?_modify] at found
      split at found
      · obtain ⟨slot, stored, mapped⟩ := Option.map_eq_some_iff.1 found
        obtain ⟨e, rfl, rfl⟩ := Option.map_eq_some_iff.1 mapped
        rw [keeps]
        exact wellFormed.slotted i e stored
      · exact wellFormed.slotted i d found
  shaped other d found := by
    rcases (get_modify live (keeps c) other d).1 found with ⟨-, rfl⟩ | ⟨-, found⟩
    · exact shaped
    · exact wellFormed.shaped other d found

end Modify

end ClauseLearning.ClauseStore
