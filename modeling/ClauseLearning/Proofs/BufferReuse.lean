import ClauseLearning.Proofs.Calls

/-!
All derivations share one buffer, and each clears what the last one left in it, also one that
failed halfway. Marks are taken back atom by atom along the list of those used, so that list must
name every atom with a mark whenever a derivation ends. Then a derivation does what it would do with
an empty buffer; nothing is left of those before but room for their atoms.
-/

namespace ClauseLearning

namespace ResolutionBuffer

variable {b : ResolutionBuffer} {l : Literal} {level : Atom → Option Nat}
  {current count size n : Nat}

def widen (b : ResolutionBuffer) (n : Nat) : ResolutionBuffer :=
  { b with merged := b.merged ++ Array.replicate n false }

@[simp] theorem widen_zero (b : ResolutionBuffer) : b.widen 0 = b := by
  simp [widen]

@[simp] theorem isMerged_widen (b : ResolutionBuffer) (n : Nat) (a : Atom) :
    (b.widen n).isMerged a = b.isMerged a := by
  simp only [isMerged, widen, Array.getD_eq_getD_getElem?, Array.getElem?_append]
  split
  · rfl
  · rename_i outside
    rw [Array.getElem?_eq_none (Nat.not_lt.1 outside), Array.getElem?_replicate]
    split <;> rfl

theorem add_widen (room : l.natAbs < b.merged.size) (ofCurrentLevel : Bool) (n : Nat) :
    (b.widen n).add l ofCurrentLevel = (b.add l ofCurrentLevel).widen n := by
  simp only [add, widen, Array.setIfInBounds_append_left room]

theorem merge_widen (known : ∀ a k, level a = some k → a < count) (room : count ≤ b.merged.size)
    (n : Nat) (c : Clause) : (b.widen n).merge level current c =
      ((b.merge level current c).1, (b.merge level current c).2.widen n) := by
  induction c generalizing b with
  | nil => rfl
  | cons l rest ih =>
    simp only [merge, isMerged_widen]
    split
    · exact ih room
    · split
      · rfl
      · exact ih room
      · rename_i leveled
        have inside := (known _ _ leveled).trans_le room
        rw [add_widen inside]
        exact ih (by simpa [add] using room)

/-- Every mark can be taken back along the list of the atoms used. -/
structure Spans (b : ResolutionBuffer) (size : Nat) : Prop where
  marked : b.Marked
  size_eq : b.merged.size = size

theorem Spans.widen (spans : b.Spans size) (n : Nat) : (b.widen n).Spans (size + n) where
  marked a isMarked := spans.marked a (by rwa [isMerged_widen] at isMarked)
  size_eq := by simp [ResolutionBuffer.widen, spans.size_eq]

theorem Spans.merge (spans : b.Spans size) (c : Clause) :
    (b.merge level current c).2.Spans size := by
  induction c generalizing b with
  | nil => exact spans
  | cons l rest ih =>
    simp only [ResolutionBuffer.merge]
    split
    · exact ih spans
    · split
      · exact spans
      · exact ih spans
      · -- A mark is set and listed in one step, so no failure comes between.
        exact ih ⟨spans.marked.add, by simpa [add] using spans.size_eq⟩

theorem merged_refresh (marked : b.Marked) (count : Nat) :
    (b.refresh count).merged = Array.replicate (max b.merged.size count) false := by
  have size : (b.refresh count).merged.size = max b.merged.size count := by
    have unmarked (used : List Atom) (merged : Array Bool) :
        (used.foldl (fun merged a => merged.setIfInBounds a false) merged).size = merged.size := by
      induction used generalizing merged with
      | nil => rfl
      | cons a rest ih => simp [ih]
    simp only [refresh, Array.size_append, Array.size_replicate, ← Array.foldl_toList, unmarked]
    omega
  refine Array.ext (by simp [size]) fun a inside _ => ?_
  have cleared := isMerged_refresh marked count a
  simp only [isMerged, Array.getD, inside, dif_pos] at cleared
  simpa using cleared

theorem Spans.refresh (spans : b.Spans size) (count : Nat) :
    (b.refresh count).Spans (max size count) where
  marked a isMarked := absurd isMarked (by simp [isMerged_refresh spans.marked])
  size_eq := by simp [merged_refresh spans.marked, spans.size_eq]

theorem refresh_eq_widen (spans : b.Spans size) (count : Nat) :
    b.refresh count = (refresh {} count).widen (size - count) := by
  have fresh : (refresh {} count).merged = Array.replicate count false := by
    simpa using merged_refresh (b := {}) (fun a isMarked => by simp [isMerged] at isMarked) count
  have room : (b.refresh count).merged =
      (refresh {} count).merged ++ Array.replicate (size - count) false := by
    rw [merged_refresh spans.marked, fresh, spans.size_eq, Array.replicate_append_replicate]
    congr 1
    omega
  calc b.refresh count = { refresh {} count with merged := (b.refresh count).merged } := rfl
    _ = (refresh {} count).widen (size - count) := by rw [room]; rfl

end ResolutionBuffer

namespace Solver

open ResolutionBuffer

def widen (s : Solver) (n : Nat) : Solver := { s with buffer := s.buffer.widen n }

structure Roomy (s : Solver) (size : Nat) : Prop where
  spans : s.buffer.Spans size
  room : s.atoms.size ≤ size

/-- The call keeps the room there is, and does the same with any more. -/
def Indifferent {α : Type} (call : Solver → α × Solver) : Prop :=
  ∀ s size, s.Roomy size →
    (call s).2.Roomy size ∧ ∀ n, call (s.widen n) = ((call s).1, (call s).2.widen n)

def Neutral (change : Solver → Solver) : Prop :=
  ∀ s size, s.Roomy size →
    (change s).Roomy size ∧ ∀ n, change (s.widen n) = (change s).widen n

namespace Indifferent

variable {α β : Type} {change : Solver → Solver} {call : Solver → α × Solver}

theorem answer (a : α) (neutral : Neutral change) : Indifferent fun s => (a, change s) :=
  fun s size roomy =>
    ⟨(neutral s size roomy).1, fun n => congrArg (Prod.mk a) ((neutral s size roomy).2 n)⟩

theorem after (indifferent : Indifferent call) (neutral : Neutral change) :
    Indifferent fun s => call (change s) := by
  intro s size roomy
  obtain ⟨roomy', changed⟩ := neutral s size roomy
  obtain ⟨roomy'', called⟩ := indifferent (change s) size roomy'
  exact ⟨roomy'', fun n => by simp only [changed, called]⟩

theorem ite {yes no : Solver → α × Solver} {p : Solver → Prop} [∀ s, Decidable (p s)]
    (same : ∀ s n, p (s.widen n) ↔ p s) (first : Indifferent yes) (second : Indifferent no) :
    Indifferent fun s => if p s then yes s else no s := by
  intro s size roomy
  by_cases holds : p s
  · simpa only [same, if_pos holds] using first s size roomy
  · simpa only [same, if_neg holds] using second s size roomy

end Indifferent

theorem note_neutral (level : Level) (topic : Topic) (message : Unit → String) :
    Neutral (note · level topic message) := by
  refine fun s size roomy => ⟨⟨?_, ?_⟩, fun n => ?_⟩
  · simpa only [buffer_note] using roomy.spans
  · simpa only [atoms_note] using roomy.room
  · by_cases kept : s.journal.keeps level = true <;> simp only [note, widen, kept] <;> rfl

theorem noteFailure_neutral (failure : Failure) : Neutral (noteFailure · failure) := by
  unfold noteFailure
  cases failure.record? with
  | none => exact fun s size roomy => ⟨roomy, fun _ => rfl⟩
  | some record => exact note_neutral record.level record.topic fun _ => record.message

theorem raiseClause_neutral (key : ClauseKey) : Neutral (raiseClause · key) := by
  intro s size roomy
  obtain ⟨roomy', noted⟩ :=
    note_neutral .trace .clauses (fun _ => "Rescaling clause activity") s size roomy
  have clauses (n : Nat) : (s.widen n).clauses = s.clauses := rfl
  unfold raiseClause noteRescale
  simp only [clauses, noted]
  split
  · exact ⟨⟨roomy'.spans, roomy'.room⟩, fun _ => rfl⟩
  · exact ⟨⟨roomy.spans, roomy.room⟩, fun _ => rfl⟩

theorem mergeClause_indifferent (key : ClauseKey) (current : Nat) :
    Indifferent (mergeClause · key current) := by
  intro s size roomy
  have known (a k : Nat) (leveled : s.atoms.level a = some k) : a < s.atoms.size := by
    rw [AtomTable.level_eq, Option.map_eq_some_iff] at leveled
    obtain ⟨assignment, assigned, -⟩ := leveled
    exact AtomTable.lt_size_of_assignment? assigned
  have room : s.atoms.size ≤ s.buffer.merged.size := roomy.spans.size_eq ▸ roomy.room
  unfold mergeClause
  simp only [widen, merge_widen known room]
  cases s.clauses.store.clauseOf key with
  | error failure => exact ⟨roomy, fun _ => rfl⟩
  | ok c =>
    have spans : (s.buffer.merge s.atoms.level current c).2.Spans size := roomy.spans.merge c
    simp only
    generalize s.buffer.merge s.atoms.level current c = merged at spans
    obtain ⟨_ | _, buffer⟩ := merged
    · exact ⟨⟨spans, roomy.room⟩, fun _ => rfl⟩
    · exact Indifferent.answer _ (raiseClause_neutral key) { s with buffer } size
        ⟨spans, roomy.room⟩

theorem resolveBack_indifferent (current n : Nat) : Indifferent (resolveBack current n) := by
  induction n with
  | zero => exact fun s size roomy => ⟨roomy, fun _ => rfl⟩
  | succ n ih =>
    have counted : Neutral fun s => { s with
        buffer := { s.buffer with pending := s.buffer.pending - 1 } } := fun s size roomy =>
      ⟨⟨⟨roomy.spans.marked, roomy.spans.size_eq⟩, roomy.room⟩, fun _ => rfl⟩
    change Indifferent fun s => resolveBack current (n + 1) s
    unfold resolveBack
    refine .ite (fun s n => ?_) (.ite (fun _ _ => Iff.rfl) ?_ fun s size roomy => ?_) ih
    · simp only [widen, isMerged_widen]
    · exact fun s => Indifferent.answer _ counted s
    · obtain ⟨counting, less⟩ := counted s size roomy
      obtain ⟨noting, noted⟩ := note_neutral .trace .resolution
        (fun _ => "Resolving on " ++ (s.trail.literals.getD n 0).text) _ size counting
      have trail (k : Nat) : (s.widen k).trail = s.trail := rfl
      have atoms (k : Nat) : (s.widen k).atoms = s.atoms := rfl
      have pending (k : Nat) : (s.widen k).buffer.pending = s.buffer.pending := rfl
      simp only [trail, atoms, pending, atoms_note] at less noted ⊢
      simp only [less, noted] at noting ⊢
      generalize note _ _ _ _ = t at noting
      split
      · rename_i reason _
        obtain ⟨merging, merged⟩ := mergeClause_indifferent reason current t size noting
        simp only [merged] at merging ⊢
        generalize t.mergeClause reason current = answer at merging
        obtain ⟨_ | _, u⟩ := answer
        · exact ⟨merging, fun _ => rfl⟩
        · exact ih u size merging
      · exact ⟨noting, fun _ => rfl⟩

def deriveCleared (key : ClauseKey) (s : Solver) : Except Failure Clause × Solver :=
  let current := s.trail.level
  match s.mergeClause key current with
  | (.error failure, s) => (.error failure, s.noteFailure failure)
  | (.ok (), s) =>
    match resolveBack current s.trail.literals.size s with
    | (.error failure, s) => (.error failure, s.noteFailure failure)
    | (.ok uip, s) =>
      let (settled, s) := s.takeSettled
      let c := Clause.asserting s.atoms.level (-uip) settled
      (.ok c, s.note .trace .resolution fun _ => "Derived " ++ c.text)

theorem derive_eq (s : Solver) (key : ClauseKey) :
    s.derive key = deriveCleared key { s with buffer := s.buffer.refresh s.atoms.size } := rfl

theorem deriveCleared_indifferent (key : ClauseKey) : Indifferent (deriveCleared key) := by
  have taken : Neutral fun s => { s with buffer := { s.buffer with settled := #[] } } :=
    fun s size roomy =>
      ⟨⟨⟨roomy.spans.marked, roomy.spans.size_eq⟩, roomy.room⟩, fun _ => rfl⟩
  intro s size roomy
  obtain ⟨merging, merged⟩ := mergeClause_indifferent key s.trail.level s size roomy
  have trail (n : Nat) : (s.widen n).trail = s.trail := rfl
  unfold deriveCleared
  simp only [trail, merged] at merging ⊢
  generalize s.mergeClause key s.trail.level = answer at merging
  obtain ⟨failure | _, t⟩ := answer
  · exact Indifferent.answer _ (noteFailure_neutral failure) t size merging
  · obtain ⟨resolving, resolved⟩ :=
      resolveBack_indifferent s.trail.level t.trail.literals.size t size merging
    have trail (n : Nat) : (t.widen n).trail = t.trail := rfl
    simp only [trail, resolved]
    generalize resolveBack s.trail.level t.trail.literals.size t = answer at resolving
    obtain ⟨failure | uip, u⟩ := answer
    · exact Indifferent.answer _ (noteFailure_neutral failure) u size resolving
    · have noted := note_neutral .trace .resolution fun _ => "Derived " ++
        Clause.text (Clause.asserting u.atoms.level (-uip) u.buffer.settled.toList)
      exact ((Indifferent.answer _ noted).after taken) u size resolving

theorem empty_spans : ({} : ResolutionBuffer).Spans 0 :=
  ⟨fun a isMarked => by simp [isMerged] at isMarked, rfl⟩

theorem derive_eq_widen {b : ResolutionBuffer} (spans : b.Spans size) (s : Solver)
    (key : ClauseKey) : ∃ result t, t.Roomy s.atoms.size ∧
      ({ s with buffer := {} } : Solver).derive key = (result, t) ∧
      ({ s with buffer := b } : Solver).derive key = (result, t.widen (size - s.atoms.size)) := by
  have cleared : ({ s with buffer := refresh {} s.atoms.size } : Solver).Roomy s.atoms.size :=
    ⟨by simpa using empty_spans.refresh s.atoms.size, Nat.le_refl _⟩
  obtain ⟨roomy, derived⟩ := deriveCleared_indifferent key _ _ cleared
  refine ⟨_, _, roomy, rfl, ?_⟩
  rw [derive_eq]
  simp only [refresh_eq_widen spans]
  exact derived _

def reuse (b : ResolutionBuffer) (call : Solver × ClauseKey) : ResolutionBuffer :=
  (({ call.1 with buffer := b } : Solver).derive call.2).2.buffer

def reuseAll (b : ResolutionBuffer) (calls : List (Solver × ClauseKey)) : ResolutionBuffer :=
  calls.foldl reuse b

theorem reuse_spans {b : ResolutionBuffer} (spans : b.Spans size) (call : Solver × ClauseKey) :
    (reuse b call).Spans (max size call.1.atoms.size) := by
  obtain ⟨result, t, roomy, -, derived⟩ := derive_eq_widen spans call.1 call.2
  have left : reuse b call = t.buffer.widen (size - call.1.atoms.size) := by
    rw [reuse, derived]
    rfl
  have widened := roomy.spans.widen (size - call.1.atoms.size)
  rwa [← left, Nat.add_comm, Nat.sub_add_eq_max] at widened

theorem reuseAll_spans {b : ResolutionBuffer} (spans : b.Spans size)
    (calls : List (Solver × ClauseKey)) : ∃ larger, (reuseAll b calls).Spans larger ∧
      ∀ count, size ≤ count → (∀ call ∈ calls, call.1.atoms.size ≤ count) → larger ≤ count := by
  induction calls generalizing b size with
  | nil => exact ⟨size, spans, fun _ le _ => le⟩
  | cons call rest ih =>
    obtain ⟨larger, left, least⟩ := ih (reuse_spans spans call)
    refine ⟨larger, left, fun count le bound => least count ?_ fun other member =>
      bound other (List.mem_cons_of_mem call member)⟩
    exact Nat.max_le.2 ⟨le, bound call List.mem_cons_self⟩

/-- Whatever derivations used a buffer before, and whether they failed, the next one answers as from
a new buffer, uses the same atoms and leaves the same clauses with the same activities. If no solver
before had more atoms it leaves the same solver, the buffer and its room included. -/
theorem derive_reuseAll (earlier : List (Solver × ClauseKey)) (s : Solver) (key : ClauseKey) :
    let stale := ({ s with buffer := reuseAll {} earlier } : Solver).derive key
    let fresh := ({ s with buffer := {} } : Solver).derive key
    (stale.1 = fresh.1 ∧ stale.2.buffer.used = fresh.2.buffer.used ∧
      stale.2.clauses = fresh.2.clauses) ∧
      ((∀ call ∈ earlier, call.1.atoms.size ≤ s.atoms.size) → stale = fresh) := by
  obtain ⟨size, spans, least⟩ := reuseAll_spans empty_spans earlier
  obtain ⟨result, t, -, fresh, stale⟩ := derive_eq_widen spans s key
  simp only [fresh, stale]
  refine ⟨⟨trivial, rfl, rfl⟩, fun growing => ?_⟩
  have full : size - s.atoms.size = 0 :=
    Nat.sub_eq_zero_of_le (least s.atoms.size (Nat.zero_le _) growing)
  simp only [full, widen, widen_zero]

def undrawn (atoms : Nat) : Solver :=
  (((((new {}).ensureAtoms atoms).2.addNormal [-2, -1, 3]).2.addNormal [-3, -2]).2.performAll
    [.pushLevel, .assign 1 .decision, .pushLevel, .assign 2 .decision])

/-- A derivation that fails at a literal without a value leaves two marks, a settled literal and a
pending one. The next one, once that literal has a value and an atom was added, derives a clause of
the two atoms with a mark. -/
theorem undrawn_reuseAll :
    let left := reuseAll {} [(undrawn 3, .original 0)]
    let later := (undrawn 4).propagate.2
    ((undrawn 3).derive (.original 0)).1 = .error (.unvaluedLiteral 3) ∧
      left.merged = #[false, true, true, false] ∧ left.used = #[2, 1] ∧ left.settled = #[-1] ∧
      left.pending = 1 ∧
      (∀ call ∈ [(undrawn 3, ClauseKey.original 0)], call.1.atoms.size ≤ later.atoms.size) ∧
      (({ later with buffer := {} } : Solver).derive (.original 1)).1 = .ok [-2, -1] ∧
      ({ later with buffer := left } : Solver).derive (.original 1) =
        ({ later with buffer := {} } : Solver).derive (.original 1) := by
  have growing : ∀ call ∈ [(undrawn 3, ClauseKey.original 0)],
      call.1.atoms.size ≤ (undrawn 4).propagate.2.atoms.size := by
    decide +kernel
  exact ⟨by decide +kernel, by decide +kernel, by decide +kernel, by decide +kernel,
    by decide +kernel, growing, by decide +kernel,
    (derive_reuseAll [(undrawn 3, .original 0)] _ (.original 1)).2 growing⟩

end Solver

end ClauseLearning
