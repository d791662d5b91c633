import ClauseLearning.Dimacs.Reader
import ClauseLearning.Proofs.Building
import ClauseLearning.Proofs.Numerals
import ClauseLearning.Proofs.TextLines
import Mathlib.Data.List.Induction
import Mathlib.Data.List.TakeWhile

/-!
The grammar of DIMACS files. A text is a list of items, headers and words, whatever lines they stand
on; items are well formed or have a first fault, and stand for calls that build a formula. Reading
a text makes these calls, up to the first item with a fault or the first clause that is refused.
-/

namespace ClauseLearning.Dimacs

open Solver (Build build)

/-- A header, or a word of another line, with the number of its line. -/
inductive Item where
  | header (number : Nat) (words : List (List Char))
  | word (number : Nat) (token : List Char)
  deriving DecidableEq, Repr

def mark? (line : List Char) : Option Char := line.find? (!Text.isBlank ·)

def tokens (line : List Char) : List (List Char) :=
  (line.splitOnP Text.isBlank).filter (!·.isEmpty)

def lineItems (number : Nat) (line : List Char) : List Item :=
  match mark? line with
  | none | some 'c' => []
  | some 'p' => [.header number (tokens line)]
  | some _ => (tokens line).map (.word number)

/-- The items of lines, the first of which has the given number, up to a line marked `%`. -/
def linesItems (number : Nat) (lines : List (List Char)) : List Item :=
  ((lines.zipIdx number).takeWhile fun line => mark? line.1 != some '%').flatMap
    fun line => lineItems line.2 line.1

def items (text : String) : List Item := linesItems 1 (text.toList.splitOn '\n')

theorem tokens_eq (line : List Char) : tokens line = Text.words (Text.trimStart line) := by
  rw [tokens, ← Text.words_eq, Text.words_trimStart]

theorem mark?_eq (line : List Char) : mark? line = (Text.trimStart line).head? := by
  rw [mark?, List.find?_eq_head?_dropWhile_not]
  simp [Text.trimStart]

theorem ofText_eq (line : List Char) :
    Line.ofText line = match mark? line with
      | none | some 'c' => .blank
      | some '%' => .stop
      | some 'p' => .header (tokens line)
      | some _ => .literals (tokens line) := by
  rw [tokens_eq, mark?_eq, Line.ofText]
  cases Text.trimStart line with
  | nil => rfl
  | cons c rest =>
    simp only [List.head?_cons]
    split <;> simp_all

theorem mark?_eq_tokens (line : List Char) : mark? line = (tokens line).head?.bind List.head? := by
  have notBlank := List.head?_dropWhile_not Text.isBlank line
  rw [mark?_eq, tokens_eq]
  cases trimmed : Text.trimStart line with
  | nil => simp [Text.words]
  | cons c rest =>
    rw [← Text.trimStart, trimmed] at notBlank
    have shows : ¬Text.isBlank c = true := by simpa using notBlank
    rw [Text.words, if_neg shows]
    rfl

theorem tokens_ne_nil {line : List Char} {c : Char} (mark : mark? line = some c) :
    tokens line ≠ [] := by
  intro none
  rw [mark?_eq_tokens, none] at mark
  cases mark

theorem lineItems_cases (number : Nat) (line : List Char) :
    mark? line = some '%' ∧ Line.ofText line = .stop ∨
      mark? line ≠ some '%' ∧
        (Line.ofText line = .blank ∧ lineItems number line = [] ∨
          Line.ofText line = .header (tokens line) ∧
            lineItems number line = [.header number (tokens line)] ∨
          Line.ofText line = .literals (tokens line) ∧ tokens line ≠ [] ∧
            lineItems number line = (tokens line).map (.word number)) := by
  have nonempty (c : Char) : mark? line = some c → tokens line ≠ [] := tokens_ne_nil
  rw [ofText_eq, lineItems]
  cases mark : mark? line with
  | none => simp
  | some c =>
    have nonempty := nonempty c mark
    split <;> simp_all

theorem linesItems_cons (number : Nat) (line : List Char) (rest : List (List Char)) :
    linesItems number (line :: rest) = if mark? line = some '%' then []
      else lineItems number line ++ linesItems (number + 1) rest := by
  rw [linesItems, List.zipIdx_cons, List.takeWhile_cons]
  by_cases stop : mark? line = some '%'
  · rw [if_pos stop, if_neg (by simp [stop])]
    rfl
  · rw [if_neg stop, if_pos (by simp [stop])]
    rfl

theorem linesItems_concat_nil (number : Nat) (lines : List (List Char)) :
    linesItems number (lines ++ [[]]) = linesItems number lines := by
  induction lines generalizing number with
  | nil => rfl
  | cons line rest ih => rw [List.cons_append, linesItems_cons, linesItems_cons, ih]

def Item.literal? : Item → Option Literal
  | .header .. => none
  | .word _ token => readLiteral? token

def literals (items : List Item) : List Literal := items.filterMap Item.literal?

/-- The groups of literals which a zero ends. -/
def ended (ls : List Literal) : List Clause := (ls.splitOn 0).dropLast

def unended (ls : List Literal) : Clause := (ls.splitOn 0).getLastD []

/-- The groups of literals ended by zeros, and what is behind the last zero, if there is any. -/
def clauses (ls : List Literal) : List Clause :=
  ended ls ++ if unended ls = [] then [] else [unended ls]

theorem ended_append_zero {ls : List Literal} (nonzero : ∀ l ∈ ls, l ≠ 0) (rest : List Literal) :
    ended (ls ++ 0 :: rest) = ls :: ended rest ∧ unended (ls ++ 0 :: rest) = unended rest := by
  have split : (ls ++ 0 :: rest).splitOn 0 = ls :: rest.splitOn 0 :=
    List.splitOnP_append_cons_of_forall_mem (by simpa using nonzero) 0 rfl rest
  have pieces : rest.splitOn 0 ≠ [] := List.splitOn_ne_nil 0 rest
  rw [ended, unended, split, List.dropLast_cons_of_ne_nil pieces]
  refine ⟨rfl, ?_⟩
  rw [unended, List.getLastD_cons, List.getLastD_eq_getLast?, List.getLastD_eq_getLast?,
    List.getLast?_eq_some_getLast pieces]
  rfl

theorem unended_of_nonzero {ls : List Literal} (nonzero : ∀ l ∈ ls, l ≠ 0) :
    ended ls = [] ∧ unended ls = ls := by
  have split : ls.splitOn 0 = [ls] := List.splitOnP_eq_singleton (by simpa using nonzero)
  rw [ended, unended, split]
  exact ⟨rfl, rfl⟩

theorem ended_concat (ls : List Literal) (l : Literal) :
    (ended (ls ++ [l]) = if l = 0 then ended ls ++ [unended ls] else ended ls) ∧
      unended (ls ++ [l]) = if l = 0 then [] else unended ls ++ [l] := by
  -- What is behind the first zero is shorter, and splits like the whole.
  induction length : ls.length using Nat.strongRecOn generalizing ls with
  | _ n ih =>
    by_cases zero : 0 ∈ ls
    · obtain ⟨first, rest, rfl, nonzero⟩ := List.eq_append_cons_of_mem zero
      have nonzero : ∀ l ∈ first, l ≠ 0 := fun l member isZero => nonzero (isZero ▸ member)
      have shorter : rest.length < n := by
        rw [← length, List.length_append, List.length_cons]
        omega
      obtain ⟨ih₁, ih₂⟩ := ih _ shorter rest rfl
      obtain ⟨before, before'⟩ := ended_append_zero nonzero rest
      obtain ⟨after, after'⟩ := ended_append_zero nonzero (rest ++ [l])
      rw [List.append_assoc, List.cons_append, after, after', before, before', ih₁, ih₂]
      refine ⟨?_, rfl⟩
      split <;> rfl
    · have nonzero : ∀ l ∈ ls, l ≠ 0 := fun l member isZero => zero (isZero ▸ member)
      obtain ⟨none, all⟩ := unended_of_nonzero nonzero
      rw [none, all]
      by_cases isZero : l = 0
      · subst isZero
        exact ended_append_zero nonzero []
      · rw [if_neg isZero, if_neg isZero]
        refine unended_of_nonzero fun m member => ?_
        rcases List.mem_append.1 member with member | member
        · exact nonzero m member
        · exact List.mem_singleton.1 member ▸ isZero

def IsLiteral (token : List Char) (l : Int) : Prop :=
  Text.IsInteger token l ∧ -Nat.pow 2 31 ≤ l ∧ l ≤ Nat.pow 2 31 - 1

def StatesCounts (words : List (List Char)) (atoms clauses : Nat) : Prop :=
  ∃ first second rest, words = ['p'] :: ['c', 'n', 'f'] :: first :: second :: rest ∧
    (Text.IsNatural first atoms ∧ atoms ≤ maxCount) ∧
    (Text.IsNatural second clauses ∧ clauses ≤ maxCount)

theorem readLiteral?_eq_some {token : List Char} {l : Literal} :
    readLiteral? token = some l ↔ IsLiteral token l := Text.readInt?_eq_some

theorem readHeader?_eq_some {words : List (List Char)} {atoms clauses : Nat} :
    readHeader? words = some (atoms, clauses) ↔ StatesCounts words atoms clauses := by
  simp only [StatesCounts, ← Text.readNat?_eq_some]
  constructor
  · intro read
    unfold readHeader? at read
    split at read
    · rename_i first second rest
      split at read
      · rename_i firstCount secondCount
        cases read
        exact ⟨first, second, rest, rfl, firstCount, secondCount⟩
      · cases read
    · cases read
  · rintro ⟨first, second, rest, rfl, firstCount, secondCount⟩
    rw [readHeader?, firstCount, secondCount]

def counts? (words : List (List Char)) : Option (Nat × Nat) :=
  (readHeader? words).filter fun counts => counts.1 ≤ Atom.max

def expected : List Item → Option (Nat × Nat)
  | .header _ words :: _ => counts? words
  | _ => none

def greatest (items : List Item) : Nat := (expected items).elim Atom.max Prod.fst

/-- There is at most one header, before all words, with counts that are in range; and all words are
literals, with atoms that are in range. -/
structure WellFormed (items : List Item) : Prop where
  single : ∀ number words, .header number words ∉ items.tail
  counts : ∀ number words, items.head? = some (.header number words) →
    ∃ atoms clauses, StatesCounts words atoms clauses ∧ atoms ≤ Atom.max
  literals : ∀ number token, .word number token ∈ items →
    ∃ l, IsLiteral token l ∧ l.natAbs ≤ greatest items

def Item.fault? (before : List Item) : Item → Option Failure
  | .header number words =>
    if before ≠ [] then some (.misplacedHeader number)
    else if (counts? words).isSome then none
    else some .header
  | .word number token =>
    match readLiteral? token with
    | none => some (.line number)
    | some l =>
      if l.natAbs ≤ greatest before then none else some (.atomOutOfRange number l.natAbs)

theorem counts?_eq_some {words : List (List Char)} {atoms clauses : Nat} :
    counts? words = some (atoms, clauses) ↔
      StatesCounts words atoms clauses ∧ atoms ≤ Atom.max := by
  rw [counts?, Option.filter_eq_some_iff, readHeader?_eq_some, decide_eq_true_eq]

theorem greatest_le (items : List Item) : greatest items ≤ Atom.max := by
  have bounded (words : List (List Char)) : (counts? words).elim Atom.max Prod.fst ≤ Atom.max := by
    cases counts : counts? words with
    | none => exact Nat.le_refl _
    | some counts' => exact (counts?_eq_some.1 counts).2
  unfold greatest expected
  split
  · exact bounded _
  · exact Nat.le_refl _

theorem greatest_congr {items items' : List Item} (same : expected items = expected items') :
    greatest items = greatest items' := by
  rw [greatest, same, greatest]

theorem expected_append_of_ne_nil {before : List Item} (nonempty : before ≠ [])
    (after : List Item) : expected (before ++ after) = expected before := by
  cases before with
  | nil => exact absurd rfl nonempty
  | cons first rest => cases first <;> rfl

theorem expected_concat_word (before : List Item) (number : Nat) (token : List Char) :
    expected (before ++ [.word number token]) = expected before := by
  cases before with
  | nil => rfl
  | cons first rest => exact expected_append_of_ne_nil (List.cons_ne_nil _ _) _

theorem fault?_header_eq_none {before : List Item} {number : Nat} {words : List (List Char)} :
    Item.fault? before (.header number words) = none ↔
      before = [] ∧ ∃ atoms clauses, counts? words = some (atoms, clauses) := by
  by_cases front : before = []
  · simp [Item.fault?, front, Option.isSome_iff_exists]
  · simp [Item.fault?, front]

theorem fault?_word_eq_none {before : List Item} {number : Nat} {token : List Char} :
    Item.fault? before (.word number token) = none ↔
      ∃ l, IsLiteral token l ∧ l.natAbs ≤ greatest before := by
  simp only [← readLiteral?_eq_some]
  cases read : readLiteral? token <;> simp [Item.fault?, read]

theorem wellFormed_nil : WellFormed [] :=
  ⟨by simp, by simp, by simp⟩

theorem WellFormed.of_concat {before : List Item} {item : Item}
    (wellFormed : WellFormed (before ++ [item])) :
    WellFormed before ∧ item.fault? before = none := by
  cases before with
  | nil =>
    refine ⟨wellFormed_nil, ?_⟩
    cases item with
    | header number words =>
      obtain ⟨atoms, clauses, states, le⟩ := wellFormed.counts number words rfl
      exact fault?_header_eq_none.2 ⟨rfl, atoms, clauses, counts?_eq_some.2 ⟨states, le⟩⟩
    | word number token =>
      exact fault?_word_eq_none.2 (wellFormed.literals number token List.mem_cons_self)
  | cons first rest =>
    have same : greatest (first :: rest ++ [item]) = greatest (first :: rest) :=
      greatest_congr (expected_append_of_ne_nil (List.cons_ne_nil _ _) _)
    have literals {number : Nat} {token : List Char}
        (member : .word number token ∈ first :: rest ++ [item]) :
        ∃ l, IsLiteral token l ∧ l.natAbs ≤ greatest (first :: rest) :=
      same ▸ wellFormed.literals number token member
    refine ⟨⟨fun number words member => ?_, wellFormed.counts, fun number token member => ?_⟩, ?_⟩
    · exact wellFormed.single number words (List.mem_append_left _ member)
    · exact literals (List.mem_append_left _ member)
    · cases item with
      | header number words =>
        refine absurd ?_ (wellFormed.single number words)
        exact List.mem_append_right rest List.mem_cons_self
      | word number token =>
        exact fault?_word_eq_none.2 (literals (List.mem_append_right _ List.mem_cons_self))

theorem WellFormed.concat {before : List Item} {item : Item} (wellFormed : WellFormed before)
    (noFault : item.fault? before = none) : WellFormed (before ++ [item]) := by
  cases item with
  | header number words =>
    obtain ⟨rfl, atoms, clauses, counts⟩ := fault?_header_eq_none.1 noFault
    refine ⟨by simp, fun number words front => ?_, by simp⟩
    cases front
    exact ⟨atoms, clauses, counts?_eq_some.1 counts⟩
  | word number token =>
    have same : greatest (before ++ [.word number token]) = greatest before :=
      greatest_congr (expected_concat_word before number token)
    refine ⟨fun number' words member => ?_, fun number' words front => ?_,
      fun number' token' member => ?_⟩
    · cases before with
      | nil => cases member
      | cons first rest =>
        rcases List.mem_append.1 member with member | member
        · exact wellFormed.single number' words member
        · cases List.mem_singleton.1 member
    · cases before with
      | nil => cases front
      | cons first rest => exact wellFormed.counts number' words front
    · rw [same]
      rcases List.mem_append.1 member with member | member
      · exact wellFormed.literals number' token' member
      · cases List.mem_singleton.1 member
        exact fault?_word_eq_none.1 noFault

theorem WellFormed.split {before : List Item} {item : Item} {after : List Item}
    (wellFormed : WellFormed (before ++ item :: after)) : item.fault? before = none := by
  induction after using List.reverseRecOn with
  | nil => exact wellFormed.of_concat.2
  | append_singleton after last ih =>
    have longer : before ++ item :: (after ++ [last]) = before ++ item :: after ++ [last] := by simp
    exact ih (longer ▸ wellFormed).of_concat.1

/-- The calls an item behind others stands for. -/
def Item.calls (before : List Item) : Item → List Build
  | .header _ words => (counts? words).toList.map fun counts => .ensureAtoms counts.1
  | .word _ token =>
    match readLiteral? token with
    | none => []
    | some l =>
      if l = 0 then [.addClause (unended (literals before))] else [.ensureAtoms l.natAbs]

def callsBehind (before : List Item) : List Item → List Build
  | [] => []
  | item :: rest => item.calls before ++ callsBehind (before ++ [item]) rest

def calls (items : List Item) : List Build := callsBehind [] items

def program (items : List Item) : List Build :=
  calls items ++
    if unended (literals items) = [] then [] else [.addClause (unended (literals items))]

theorem callsBehind_append (before items more : List Item) :
    callsBehind before (items ++ more) =
      callsBehind before items ++ callsBehind (before ++ items) more := by
  induction items generalizing before with
  | nil => simp [callsBehind]
  | cons item rest ih => simp [callsBehind, ih]

theorem calls_append (items more : List Item) :
    calls (items ++ more) = calls items ++ callsBehind items more :=
  callsBehind_append [] items more

theorem calls_concat (items : List Item) (item : Item) :
    calls (items ++ [item]) = calls items ++ item.calls items := by
  simp [calls_append, callsBehind]

theorem literals_concat (items : List Item) (item : Item) :
    literals (items ++ [item]) = literals items ++ item.literal?.toList := by
  cases literal : item.literal? <;> simp [literals, literal]

theorem literals_concat_word (items : List Item) (number : Nat) {token : List Char} {l : Literal}
    (read : readLiteral? token = some l) :
    literals (items ++ [.word number token]) = literals items ++ [l] := by
  rw [literals_concat, Item.literal?, read]
  rfl

theorem clauses_calls (items : List Item) :
    (calls items).filterMap Build.clause? = ended (literals items) := by
  induction items using List.reverseRecOn with
  | nil => rfl
  | append_singleton items item ih =>
    rw [calls_concat, List.filterMap_append, ih]
    cases item with
    | header number words =>
      have none : (Item.calls items (.header number words)).filterMap Build.clause? = [] := by
        cases counts : counts? words <;> simp [Item.calls, counts, Build.clause?]
      rw [none]
      simp [literals_concat, Item.literal?]
    | word number token =>
      cases read : readLiteral? token with
      | none => simp [literals_concat, Item.calls, Item.literal?, read]
      | some l =>
        simp only [literals_concat_word items number read, Item.calls, read]
        rw [(ended_concat _ l).1]
        split
        · rfl
        · exact List.append_nil _

def Builds (s : Solver) (items : List Item) (t : Solver) : Prop :=
  WellFormed items ∧ build (calls items) s = (.ok (), t)

theorem Builds.concat {s t t' : Solver} {items : List Item} {item : Item}
    (builds : Builds s items t) (noFault : item.fault? items = none)
    (answer : build (item.calls items) t = (.ok (), t')) :
    Builds s (items ++ [item]) t' := by
  refine ⟨builds.1.concat noFault, ?_⟩
  rw [calls_concat, Solver.build_append, builds.2]
  exact answer

def Refuses (t : Solver) (c : Clause) (failure : Failure) (t' : Solver) : Prop :=
  (t.addClause c).1 = .error failure ∧ (t.addClause c).2.SameButJournal t'

/-- The item behind others has a fault, or ends a group that is refused. -/
def Item.Fails (before : List Item) (t : Solver) (item : Item) (failure : Failure) (t' : Solver) :
    Prop :=
  item.fault? before = some failure ∧ t.SameButJournal t' ∨
    item.literal? = some 0 ∧ Refuses t (unended (literals before)) failure t'

/-- The next of the items fails, or there is none and the last group is refused. -/
def FailsBehind (before items : List Item) (t : Solver) (failure : Failure) (t' : Solver) : Prop :=
  (∃ item, before ++ [item] <+: items ∧ item.Fails before t failure t') ∨
    before = items ∧ unended (literals items) ≠ [] ∧
      Refuses t (unended (literals items)) failure t'

namespace Reading

variable {s : Solver} {r : Reading} {items : List Item}

/-- The reading has read the items, from the solver on. -/
structure Reads (s : Solver) (items : List Item) (r : Reading) : Prop where
  builds : ∃ t, Builds s items t ∧ t.SameButJournal r.solver
  expected : r.expected = Dimacs.expected items
  clause : r.clause.reverse = unended (literals items)
  addedClauses : r.addedClauses = (ended (literals items)).length

def Tells (r : Reading) (items : List Item) : Prop :=
  (r.started || r.expected.isSome) = !items.isEmpty

def Follows (s : Solver) (items : List Item) : Except Failure Unit × Reading → Prop
  | (.ok (), r) => Reads s items r
  | (.error failure, r) => ∃ before item t, before ++ [item] <+: items ∧ Builds s before t ∧
      item.Fails before t failure r.solver

theorem Follows.append {failure : Failure} (follows : Follows s items (.error failure, r))
    (more : List Item) : Follows s (items ++ more) (.error failure, r) := by
  obtain ⟨before, item, t, inside, fails⟩ := follows
  exact ⟨before, item, t, inside.trans (List.prefix_append _ _), fails⟩

theorem Reads.inRange (reads : Reads s items r) (a : Atom) :
    r.inRange a = decide (a ≤ greatest items) := by
  rw [Reading.inRange, reads.expected, greatest]
  cases Dimacs.expected items <;> rfl

theorem Reads.fails (reads : Reads s items r) {item : Item} {failure : Failure}
    (fault : item.fault? items = some failure) :
    Follows s (items ++ [item]) (.error failure, r) := by
  obtain ⟨t, builds, same⟩ := reads.builds
  exact ⟨items, item, t, List.prefix_rfl, builds, .inl ⟨fault, same⟩⟩

theorem started_readWords (r : Reading) (number : Nat) (words : List (List Char)) :
    (r.readWords number words).2.started = r.started := by
  have endClause (r : Reading) : r.endClause.2.started = r.started := by
    unfold Reading.endClause
    simp only
    split <;> rfl
  have readWord (r : Reading) (word : List Char) :
      (r.readWord number word).2.started = r.started := by
    unfold Reading.readWord
    split
    · rfl
    · split
      · exact endClause r
      · split
        · split <;> rfl
        · rfl
  induction words generalizing r with
  | nil => rfl
  | cons word rest ih =>
    have first := readWord r word
    rw [readWords]
    split <;> rename_i answer <;> rw [answer] at first
    · exact first
    · exact (ih _).trans first

theorem Reads.endClause (reads : Reads s items r) :
    ∃ result t u u', Builds s items t ∧ t.addClause (unended (literals items)) = (result, u) ∧
      u.SameButJournal u' ∧ r.endClause = match result with
        | .error failure => (.error failure, { r with solver := u', clause := [] })
        | .ok _ =>
          (.ok (), { r with solver := u', clause := [], addedClauses := r.addedClauses + 1 }) := by
  obtain ⟨t, builds, same⟩ := reads.builds
  obtain ⟨result, u, u', added, added', same'⟩ :=
    (same.addClause (unended (literals items))).exists_eq
  refine ⟨result, t, u, u', builds, added, same', ?_⟩
  rw [Reading.endClause, reads.clause, added']
  cases result <;> rfl

theorem endClause_follows (reads : Reads s items r) {number : Nat} {token : List Char}
    (read : readLiteral? token = some 0) :
    Follows s (items ++ [.word number token]) r.endClause := by
  obtain ⟨result, t, u, u', builds, added, same, answer⟩ := reads.endClause
  have noFault : Item.fault? items (.word number token) = none :=
    fault?_word_eq_none.2 ⟨0, readLiteral?_eq_some.1 read, Nat.zero_le _⟩
  have literals := literals_concat_word items number read
  obtain ⟨ended, unended⟩ := ended_concat (Dimacs.literals items) 0
  rw [answer]
  cases result with
  | error failure =>
    refine ⟨items, _, t, List.prefix_rfl, builds, .inr ⟨read, ?_⟩⟩
    rw [Refuses, added]
    exact ⟨rfl, same⟩
  | ok =>
    refine ⟨⟨u, builds.concat noFault ?_, same⟩, ?_, ?_, ?_⟩
    · simp [Item.calls, read, Solver.build_singleton, Build.perform, added]
    · exact reads.expected.trans (expected_concat_word items number token).symm
    · rw [literals, unended]
      rfl
    · rw [literals, ended]
      simp [reads.addedClauses]

theorem readWord_follows (reads : Reads s items r) (number : Nat) (token : List Char) :
    Follows s (items ++ [.word number token]) (r.readWord number token) := by
  rw [readWord]
  cases read : readLiteral? token with
  | none => exact reads.fails (by simp [Item.fault?, read])
  | some l =>
    by_cases zero : l = 0
    · subst zero
      exact endClause_follows reads read
    · simp only [if_neg zero, reads.inRange, decide_eq_true_eq]
      by_cases le : l.natAbs ≤ greatest items
      · obtain ⟨t, builds, same⟩ := reads.builds
        obtain ⟨u, u', ensured, ensured', same'⟩ :=
          same.ensureAtoms_of_le (le.trans (greatest_le items))
        have literals := literals_concat_word items number read
        obtain ⟨ended, unended⟩ := ended_concat (Dimacs.literals items) l
        have noFault : Item.fault? items (.word number token) = none :=
          fault?_word_eq_none.2 ⟨l, readLiteral?_eq_some.1 read, le⟩
        simp only [if_pos le, ensured']
        refine ⟨⟨u, builds.concat noFault ?_, same'⟩, ?_, ?_, ?_⟩
        · simp [Item.calls, read, zero, Solver.build_singleton, Build.perform, ensured]
        · exact reads.expected.trans (expected_concat_word items number token).symm
        · rw [literals, unended, if_neg zero, ← reads.clause, List.reverse_cons]
        · rw [literals, ended, if_neg zero]
          exact reads.addedClauses
      · rw [if_neg le]
        exact reads.fails (by simp [Item.fault?, read, le])

theorem readWords_follows (reads : Reads s items r) (number : Nat) (words : List (List Char)) :
    Follows s (items ++ words.map (.word number)) (r.readWords number words) := by
  induction words generalizing r items with
  | nil =>
    rw [List.map_nil, List.append_nil]
    exact reads
  | cons word rest ih =>
    have first := readWord_follows reads number word
    have all : items ++ (word :: rest).map (.word number) =
        items ++ [.word number word] ++ rest.map (.word number) := by simp
    rw [all, readWords]
    cases answer : r.readWord number word with
    | mk result r' =>
      rw [answer] at first
      cases result with
      | error failure => exact first.append _
      | ok => exact ih first

theorem readHeader_follows (reads : Reads s items r) (tells : r.Tells items) (number : Nat)
    (words : List (List Char)) :
    Follows s (items ++ [.header number words]) (r.readHeader number words) := by
  obtain ⟨t, builds, same⟩ := reads.builds
  rw [readHeader, tells]
  by_cases front : items = []
  · subst front
    simp only [List.isEmpty_nil, Bool.not_true, Bool.false_eq_true, if_false]
    cases read : readHeader? words with
    | none => exact reads.fails (by simp [Item.fault?, counts?, read])
    | some counts =>
      obtain ⟨atoms, clauses⟩ := counts
      have noted := same.trans (.note r.solver .info .parse fun _ =>
        "Expecting " ++ toString atoms ++ " atoms and " ++ toString clauses ++ " clauses")
      simp only
      generalize r.solver.note .info .parse _ = s' at noted ⊢
      by_cases le : atoms ≤ Atom.max
      · have counts : counts? words = some (atoms, clauses) := by simp [counts?, read, le]
        have noFault : Item.fault? [] (.header number words) = none :=
          fault?_header_eq_none.2 ⟨rfl, atoms, clauses, counts⟩
        obtain ⟨u, u', ensured, ensured', same'⟩ := noted.ensureAtoms_of_le le
        simp only [if_pos le, ensured']
        refine ⟨⟨u, builds.concat noFault ?_, same'⟩, counts.symm, reads.clause,
          reads.addedClauses⟩
        simp [Item.calls, counts, Solver.build_singleton, Build.perform, ensured]
      · rw [if_neg le]
        refine ⟨[], _, t, List.prefix_rfl, builds, .inl ⟨?_, noted⟩⟩
        simp [Item.fault?, counts?, read, le]
  · rw [if_pos (by simpa using front)]
    exact reads.fails (by simp [Item.fault?, front])

theorem Reads.tells {number : Nat} {words : List (List Char)}
    (reads : Reads s (items ++ [.header number words]) r) :
    r.Tells (items ++ [.header number words]) := by
  obtain ⟨t, builds, -⟩ := reads.builds
  obtain ⟨rfl, atoms, clauses, counts⟩ := fault?_header_eq_none.1 builds.1.of_concat.2
  have expected : r.expected = some (atoms, clauses) := reads.expected.trans counts
  simp [Tells, expected]

theorem readLines_follows (reads : Reads s items r) (tells : r.Tells items) (number : Nat)
    (lines : List (List Char)) :
    Follows s (items ++ linesItems number lines) (r.readLines number (lines.map some)) := by
  induction lines generalizing r items number with
  | nil => exact (List.append_nil items).symm ▸ reads
  | cons line rest ih =>
    rw [linesItems_cons, List.map_cons, readLines]
    obtain ⟨stop, read⟩ |
        ⟨more, ⟨read, lineItems⟩ | ⟨read, lineItems⟩ | ⟨read, words, lineItems⟩⟩ :=
      lineItems_cases number line
    · rw [if_pos stop, read, List.append_nil]
      exact reads
    · rw [if_neg more, read, lineItems]
      exact ih reads tells (number + 1)
    · have header := readHeader_follows reads tells number (tokens line)
      rw [if_neg more, read, lineItems, ← List.append_assoc]
      simp only
      cases answer : r.readHeader number (tokens line) with
      | mk result r' =>
        rw [answer] at header
        cases result with
        | error failure => exact header.append _
        | ok => exact ih header header.tells (number + 1)
    · have started : Reads s items { r with started := true } :=
        ⟨reads.builds, reads.expected, reads.clause, reads.addedClauses⟩
      have follows := readWords_follows started number (tokens line)
      have kept := started_readWords { r with started := true } number (tokens line)
      rw [if_neg more, read, lineItems, ← List.append_assoc]
      simp only
      cases answer : readWords { r with started := true } number (tokens line) with
      | mk result r' =>
        rw [answer] at follows kept
        cases result with
        | error failure => exact follows.append _
        | ok =>
          -- The line is known to have a word, so there are items when `started` says so.
          have started : r'.started = true := kept
          refine ih follows ?_ (number + 1)
          simp [Tells, started, words]

theorem Reads.endFile (reads : Reads s items r) :
    (∃ r' t, r.endFile = (.ok (), r') ∧ build (program items) s = (.ok (), t) ∧
      t.SameButJournal r'.solver ∧ r'.expected = Dimacs.expected items ∧
      r'.addedClauses = (clauses (literals items)).length) ∨
    ∃ failure r' t, r.endFile = (.error failure, r') ∧ Builds s items t ∧
      FailsBehind items items t failure r'.solver := by
  have last : r.clause.isEmpty = true ↔ unended (literals items) = [] := by
    rw [← reads.clause]
    simp
  rw [Reading.endFile, program, clauses]
  by_cases complete : unended (literals items) = []
  · obtain ⟨t, builds, same⟩ := reads.builds
    rw [if_pos (last.2 complete), if_pos complete, if_pos complete, List.append_nil,
      List.append_nil]
    exact .inl ⟨r, t, rfl, builds.2, same, reads.expected, reads.addedClauses⟩
  · obtain ⟨result, t, u, u', builds, added, same, ended⟩ := reads.endClause
    rw [if_neg (mt last.1 complete), if_neg complete, if_neg complete, ended]
    cases result with
    | error failure =>
      refine .inr ⟨failure, _, t, rfl, builds, .inr ⟨rfl, complete, ?_⟩⟩
      rw [Refuses, added]
      exact ⟨rfl, same⟩
    | ok =>
      refine .inl ⟨_, u, rfl, ?_, same, reads.expected, ?_⟩
      · rw [Solver.build_append, builds.2]
        simp [Solver.build_singleton, Build.perform, added]
      · simp [reads.addedClauses]

theorem summarise_eq (r : Reading) (initial : Nat) :
    ∃ s, r.summarise initial =
        (⟨r.expected, r.solver.atomCount - initial, r.addedClauses⟩, s) ∧
      r.solver.SameButJournal s := by
  unfold summarise
  simp only
  split
  · exact ⟨_, rfl, .refl _⟩
  · split
    · exact ⟨_, rfl, .refl _⟩
    · exact ⟨_, rfl, .note ..⟩

end Reading

theorem exists_lines (text : String) :
    ∃ pieces, Text.lines text.toUTF8 = pieces.map some ∧ linesItems 1 pieces = items text := by
  obtain ⟨pieces, lines, split⟩ := Text.lines_utf8Encode text.toList
  rw [String.utf8Encode_toList] at lines
  refine ⟨pieces, lines, ?_⟩
  rcases split with split | split
  · rw [items, split]
  · rw [items, split, linesItems_concat_nil]

theorem readDimacs_cases (s : Solver) (text : String) :
    (∃ summary s' t, s.readDimacs text.toUTF8 = (.ok summary, s') ∧
      WellFormed (items text) ∧ build (program (items text)) s = (.ok (), t) ∧
      t.SameButJournal s' ∧ summary.expected = expected (items text) ∧
      summary.addedClauses = (clauses (literals (items text))).length) ∨
    ∃ failure s' before t, s.readDimacs text.toUTF8 = (.error failure, s') ∧
      Builds s before t ∧ FailsBehind before (items text) t failure s' := by
  obtain ⟨pieces, lines, same⟩ := exists_lines text
  have start : Reading.Reads s [] { solver := s } :=
    ⟨⟨s, ⟨wellFormed_nil, rfl⟩, .refl s⟩, rfl, rfl, rfl⟩
  have follows := Reading.readLines_follows start rfl 1 pieces
  rw [List.nil_append, same] at follows
  rw [Solver.readDimacs, lines, Solver.readDimacsLines]
  simp only
  cases answer : Reading.readLines { solver := s } 1 (pieces.map some) with
  | mk result r =>
    rw [answer] at follows
    cases result with
    | error failure =>
      obtain ⟨before, item, t, inside, builds, fails⟩ := follows
      exact .inr ⟨failure, r.solver, before, t, rfl, builds, .inl ⟨item, inside, fails⟩⟩
    | ok =>
      have reads : Reading.Reads s (items text) r := follows
      obtain ⟨t, builds, -⟩ := reads.builds
      obtain ⟨r', u, ended, built, same', announced, count⟩ |
          ⟨failure, r', u, ended, builds', fails⟩ := reads.endFile
      · obtain ⟨s', summarised, noted⟩ := r'.summarise_eq s.atomCount
        simp only [ended, summarised]
        exact .inl ⟨_, s', u, rfl, builds.1, built, same'.trans noted, announced, count⟩
      · simp only [ended]
        exact .inr ⟨failure, r'.solver, _, u, rfl, builds', fails⟩

theorem Refuses.build_eq {t t' : Solver} {c : Clause} {failure : Failure}
    (refuses : Refuses t c failure t') (rest : List Build) :
    ∃ u, build (.addClause c :: rest) t = (.error failure, u) ∧ u.SameButJournal t' := by
  obtain ⟨refused, same⟩ := refuses
  rw [build, Build.perform]
  cases answer : t.addClause c with
  | mk result u =>
    rw [answer] at refused same
    obtain rfl : result = .error failure := refused
    exact ⟨u, rfl, same⟩

theorem FailsBehind.build_eq {s t t' : Solver} {before items : List Item} {failure : Failure}
    (builds : Builds s before t) (fails : FailsBehind before items t failure t')
    (wellFormed : WellFormed items) :
    ∃ u, build (program items) s = (.error failure, u) ∧ u.SameButJournal t' := by
  obtain ⟨item, ⟨after, rfl⟩, ⟨fault, -⟩ | ⟨zero, refuses⟩⟩ | ⟨rfl, complete, refuses⟩ := fails
  · rw [List.append_assoc] at wellFormed
    rw [wellFormed.split] at fault
    cases fault
  · have ends : item.calls before = [.addClause (unended (literals before))] := by
      cases item with
      | header number words => cases zero
      | word number token =>
        have read : readLiteral? token = some 0 := zero
        simp [Item.calls, read]
    rw [program, calls_append, calls_concat, ends, List.append_assoc, List.append_assoc,
      Solver.build_append, builds.2]
    exact refuses.build_eq _
  · rw [program, if_neg complete, Solver.build_append, builds.2]
    exact refuses.build_eq []

theorem FailsBehind.isPrefix {t t' : Solver} {before items : List Item} {failure : Failure}
    (fails : FailsBehind before items t failure t') : before <+: items := by
  obtain ⟨item, inside, -⟩ | ⟨rfl, -⟩ := fails
  · exact (List.prefix_append before [item]).trans inside
  · exact List.prefix_rfl

theorem clauses_program (items : List Item) :
    (program items).filterMap Build.clause? = clauses (literals items) := by
  rw [program, List.filterMap_append, clauses_calls, clauses]
  split <;> rfl

example : clauses (literals (items "p cnf 3 2\n1 -2\nc 0\n3 0 +2 -1\n%\n0")) =
    [[1, -2, 3], [2, -1]] := by decide

/-- Reading the text answers as the call did, with this count of clauses, and leaves a solver like
that of the call. -/
def ReadsAs (s : Solver) (text : String) (call : Except Failure Unit × Solver) (count : Nat) :
    Prop :=
  (s.readDimacs text.toUTF8).1.map Summary.addedClauses = call.1.map (fun _ => count) ∧
    call.2.SameButJournal (s.readDimacs text.toUTF8).2

theorem readsAs_of_wellFormed (s : Solver) {text : String} (wellFormed : WellFormed (items text)) :
    ReadsAs s text (build (program (items text)) s) (clauses (literals (items text))).length := by
  unfold ReadsAs
  obtain ⟨summary, s', t, answer, -, built, same, -, count⟩ |
      ⟨failure, s', before, t, answer, builds, fails⟩ := readDimacs_cases s text
  · rw [answer, built]
    exact ⟨congrArg Except.ok count, same⟩
  · obtain ⟨u, refused, same⟩ := fails.build_eq builds wellFormed
    rw [answer, refused]
    exact ⟨rfl, same⟩

/-- The reader implements the grammar. A text is read when its items are well formed and no clause
is refused; its clauses are then the groups of its literals, added in order. A text that is not read
fails at its first item with a fault, or at the end of the first group that is refused, with the
groups before it added. -/
theorem readDimacs_grammar (s : Solver) (text : String) :
    ((∃ summary, (s.readDimacs text.toUTF8).1 = .ok summary) ↔
      WellFormed (items text) ∧ (build (program (items text)) s).1 = .ok ()) ∧
    (∀ summary, (s.readDimacs text.toUTF8).1 = .ok summary →
      (program (items text)).filterMap Build.clause? = clauses (literals (items text)) ∧
      summary.addedClauses = (clauses (literals (items text))).length ∧
      summary.expected = expected (items text) ∧
      (build (program (items text)) s).2.SameButJournal (s.readDimacs text.toUTF8).2) ∧
    (∀ failure, (s.readDimacs text.toUTF8).1 = .error failure →
      ∃ before t, before <+: items text ∧ Builds s before t ∧
        (calls before).filterMap Build.clause? = ended (literals before) ∧
        FailsBehind before (items text) t failure (s.readDimacs text.toUTF8).2) := by
  obtain ⟨summary, s', t, answer, wellFormed, built, same, announced, count⟩ |
      ⟨failure, s', before, t, answer, builds, fails⟩ := readDimacs_cases s text
  · rw [answer, built]
    refine ⟨iff_of_true ⟨summary, rfl⟩ ⟨wellFormed, rfl⟩, fun summary' same' => ?_, nofun⟩
    obtain rfl : summary = summary' := Except.ok.inj same'
    exact ⟨clauses_program _, count, announced, same⟩
  · rw [answer]
    have refused : ¬(WellFormed (items text) ∧ (build (program (items text)) s).1 = .ok ()) := by
      rintro ⟨wellFormed, accepted⟩
      obtain ⟨u, refused, -⟩ := fails.build_eq builds wellFormed
      rw [refused] at accepted
      cases accepted
    refine ⟨iff_of_false nofun refused, nofun, fun failure' same' => ?_⟩
    obtain rfl : failure = failure' := Except.error.inj same'
    exact ⟨before, t, fails.isPrefix, builds, clauses_calls before, fails⟩

end ClauseLearning.Dimacs
