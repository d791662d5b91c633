import ClauseLearning.Clause

namespace ClauseLearning

abbrev World := Atom → Bool

def Literal.HoldsIn (v : World) (l : Literal) : Prop := v l.natAbs = l.polarity

def Clause.HoldsIn (v : World) (c : Clause) : Prop := ∃ l ∈ c, Literal.HoldsIn v l

def World.Models (v : World) (formula : List Clause) : Prop := ∀ c ∈ formula, Clause.HoldsIn v c

def Entails (formula : List Clause) (c : Clause) : Prop :=
  ∀ v : World, v.Models formula → Clause.HoldsIn v c

theorem Literal.holdsIn_neg {v : World} {l : Literal} (nonzero : l ≠ 0) :
    Literal.HoldsIn v (-l) ↔ ¬Literal.HoldsIn v l := by
  unfold Literal.HoldsIn
  rw [Int.natAbs_neg, Literal.polarity_neg nonzero]
  cases v l.natAbs <;> cases Literal.polarity l <;> simp

theorem Clause.HoldsIn.subset {v : World} {c d : Clause} (holds : Clause.HoldsIn v c)
    (subset : c ⊆ d) : Clause.HoldsIn v d := by
  obtain ⟨l, member, true⟩ := holds
  exact ⟨l, subset member, true⟩

theorem Clause.holdsIn_singleton {v : World} {l : Literal} :
    Clause.HoldsIn v [l] ↔ Literal.HoldsIn v l := by
  simp [Clause.HoldsIn]

namespace Entails

variable {formula : List Clause} {c d : Clause}

theorem of_mem (member : c ∈ formula) : Entails formula c := fun _ models => models c member

theorem subset (entails : Entails formula c) (subset : c ⊆ d) : Entails formula d :=
  fun v models => (entails v models).subset subset

theorem mono {larger : List Clause} (entails : Entails formula c) (included : formula ⊆ larger) :
    Entails larger c :=
  fun v models => entails v fun d member => models d (included member)

theorem strip (entails : Entails formula c)
    (false_or_kept : ∀ l ∈ c, l ∈ d ∨ (l ≠ 0 ∧ Entails formula [-l])) : Entails formula d := by
  intro v models
  obtain ⟨l, member, true⟩ := entails v models
  rcases false_or_kept l member with kept | ⟨nonzero, refuted⟩
  · exact ⟨l, kept, true⟩
  · exact absurd true
      ((Literal.holdsIn_neg nonzero).1 (Clause.holdsIn_singleton.1 (refuted v models)))

theorem not_models_of_nil (entails : Entails formula []) (v : World) : ¬v.Models formula := by
  intro models
  obtain ⟨l, member, -⟩ := entails v models
  cases member

end Entails

/-- What unit propagation makes true, from what is given: a literal of a clause whose other literals
are all false. -/
inductive UnitClosure (clauses : List Clause) (given : List Literal) : Literal → Prop where
  | given {l : Literal} (member : l ∈ given) : UnitClosure clauses given l
  | unit {c : Clause} {l : Literal} (member : c ∈ clauses) (literal : l ∈ c)
      (others : ∀ m ∈ c, m ≠ l → UnitClosure clauses given (-m)) : UnitClosure clauses given l

namespace UnitClosure

variable {clauses clauses' : List Clause} {given given' : List Literal} {l : Literal}

theorem trans (closure : UnitClosure clauses' given' l)
    (reached : ∀ m ∈ given', UnitClosure clauses given m)
    (rearranged : ∀ c' ∈ clauses', ∃ c ∈ clauses, c'.Perm c) : UnitClosure clauses given l := by
  induction closure with
  | given member => exact reached _ member
  | unit member literal others ih =>
    obtain ⟨c, member', perm⟩ := rearranged _ member
    exact .unit member' (perm.mem_iff.1 literal) fun m inside => ih m (perm.mem_iff.2 inside)

theorem entails {formula : List Clause} (closure : UnitClosure clauses given l)
    (facts : ∀ m ∈ given, Entails formula [m]) (lemmas : ∀ c ∈ clauses, Entails formula c)
    (nonzero : ∀ c ∈ clauses, ∀ m ∈ c, m ≠ 0) : Entails formula [l] := by
  induction closure with
  | given member => exact facts _ member
  | @unit c l member literal others ih =>
    refine (lemmas c member).strip fun m inside => ?_
    by_cases same : m = l
    · exact .inl (List.mem_singleton.2 same)
    · exact .inr ⟨nonzero c member m inside, ih m inside same⟩

end UnitClosure

end ClauseLearning
