import ClauseLearning.Proofs.Grammar

namespace ClauseLearning

namespace Dimacs

open Solver (Build build)

theorem tokens_intercalate {words : List (List Char)}
    (shown : ∀ word ∈ words, word ≠ [] ∧ ∀ c ∈ word, Text.isBlank c = false) :
    tokens ([' '].intercalate words) = words := by
  induction words with
  | nil => rfl
  | cons word rest ih =>
    obtain ⟨⟨nonempty, shows⟩, shown⟩ := List.forall_mem_cons.1 shown
    rw [tokens] at ih ⊢
    cases rest with
    | nil =>
      rw [List.intercalate_singleton, List.splitOnP_eq_singleton shows]
      simp [nonempty]
    | cons next rest =>
      rw [List.intercalate_cons_cons, List.append_assoc, List.singleton_append,
        List.splitOnP_append_cons_of_forall_mem shows ' ' rfl,
        List.filter_cons_of_pos (by simpa using nonempty), ih shown]

def isRemark (line : String) : Bool :=
  match mark? line.toList with
  | none | some 'c' => true
  | _ => false

def headerText (atoms clauses : Nat) : String :=
  " ".intercalate ["p", "cnf", toString atoms, toString clauses]

example : headerText 10 2 = "p cnf 10 2" := by decide

theorem linesItems_remark {line : String} (remark : isRemark line = true) (number : Nat)
    (rest : List (List Char)) :
    linesItems number (line.toList :: rest) = linesItems (number + 1) rest := by
  rw [linesItems_cons, lineItems]
  unfold isRemark at remark
  split at remark <;> simp_all

theorem lineItems_of_mark {line : List Char} {c : Char} (mark : mark? line = some c)
    (noComment : c ≠ 'c') (noHeader : c ≠ 'p') (number : Nat) :
    lineItems number line = (tokens line).map (.word number) := by
  rw [lineItems, mark]
  split <;> simp_all

theorem shows_toString (i : Int) :
    (∃ c rest, (toString i).toList = c :: rest ∧ (c.isDigit = true ∨ c = '-')) ∧
      ∀ c ∈ (toString i).toList, Text.isBlank c = false := by
  obtain ⟨nonempty, digits, -⟩ := Text.isNumeral_toDigits i.natAbs
  obtain ⟨first, rest, front⟩ := List.exists_cons_of_ne_nil nonempty
  rw [Text.toList_toString_int]
  split
  · have digit : first.isDigit = true := digits first (front ▸ List.mem_cons_self)
    exact ⟨⟨first, rest, front, .inl digit⟩,
      fun c member => Text.isBlank_of_isDigit (digits c member)⟩
  · refine ⟨⟨'-', _, rfl, .inr rfl⟩, fun c member => ?_⟩
    rcases List.mem_cons.1 member with rfl | member
    · rfl
    · exact Text.isBlank_of_isDigit (digits c member)

theorem tokens_dimacsText (c : Clause) :
    tokens c.dimacsText.toList = (c ++ [0]).map fun l => (Literal.text l).toList := by
  have words : c.map Literal.text ++ ["0"] = (c ++ [0]).map Literal.text := by
    rw [List.map_append]
    rfl
  rw [Clause.dimacsText, words, String.toList_intercalate, List.map_map]
  refine tokens_intercalate fun word member => ?_
  obtain ⟨l, -, rfl⟩ := List.mem_map.1 member
  obtain ⟨⟨first, rest, front, -⟩, shown⟩ := shows_toString l
  exact ⟨fun none => List.cons_ne_nil _ _ (front.symm.trans none), shown⟩

theorem tokens_headerText (atoms clauses : Nat) :
    tokens (headerText atoms clauses).toList =
      [['p'], ['c', 'n', 'f'], (toString atoms).toList, (toString clauses).toList] := by
  have shows (n : Nat) :
      (toString n).toList ≠ [] ∧ ∀ c ∈ (toString n).toList, Text.isBlank c = false := by
    obtain ⟨nonempty, digits, -⟩ := Text.isNumeral_toString n
    exact ⟨nonempty, fun c member => Text.isBlank_of_isDigit (digits c member)⟩
  rw [headerText, String.toList_intercalate]
  refine tokens_intercalate fun word member => ?_
  simp only [List.map_cons, List.map_nil, List.mem_cons, List.not_mem_nil, or_false] at member
  rcases member with rfl | rfl | rfl | rfl
  · exact ⟨List.cons_ne_nil _ _, List.forall_mem_singleton.2 rfl⟩
  · refine ⟨List.cons_ne_nil _ _, List.forall_mem_cons.2 ⟨rfl, List.forall_mem_cons.2 ⟨rfl, ?_⟩⟩⟩
    exact List.forall_mem_singleton.2 rfl
  · exact shows atoms
  · exact shows clauses

theorem readLiteral?_text {l : Literal} (fits : l.natAbs ≤ Atom.max) :
    readLiteral? (Literal.text l).toList = some l := by
  have greatest : (Atom.max : Int) = Nat.pow 2 31 - 1 := rfl
  exact readLiteral?_eq_some.2 ⟨Text.isInteger_toString l, by omega, by omega⟩

theorem mark?_dimacsText (c : Clause) :
    ∃ first, mark? c.dimacsText.toList = some first ∧ (first.isDigit = true ∨ first = '-') := by
  have nonempty : c ++ [0] ≠ [] := List.append_ne_nil_of_right_ne_nil c (List.cons_ne_nil _ _)
  obtain ⟨l, rest, parts⟩ := List.exists_cons_of_ne_nil nonempty
  obtain ⟨⟨first, rest', front, sign⟩, -⟩ := shows_toString l
  refine ⟨first, ?_, sign⟩
  rw [mark?_eq_tokens, tokens_dimacsText, parts]
  exact congrArg List.head? front

theorem mark?_dimacsText_ne (c : Clause) {d : Char} (noDigit : d.isDigit = false)
    (noSign : d ≠ '-') : mark? c.dimacsText.toList ≠ some d := by
  obtain ⟨first, mark, sign⟩ := mark?_dimacsText c
  rw [mark]
  rintro ⟨⟩
  exact sign.elim (by simp [noDigit]) noSign

theorem lineItems_dimacsText {c : Clause} (fits : ∀ l ∈ c, l.natAbs ≤ Atom.max) (number : Nat) :
    (lineItems number c.dimacsText.toList).map Item.literal? = (c ++ [0]).map some := by
  obtain ⟨first, mark, -⟩ := mark?_dimacsText c
  have noComment := mark?_dimacsText_ne c (d := 'c') rfl (by decide)
  have noHeader := mark?_dimacsText_ne c (d := 'p') rfl (by decide)
  rw [lineItems_of_mark mark (fun same => noComment (same ▸ mark))
    (fun same => noHeader (same ▸ mark)), tokens_dimacsText, List.map_map, List.map_map]
  refine List.map_congr_left fun l member => readLiteral?_text ?_
  rcases List.mem_append.1 member with member | member
  · exact fits l member
  · rw [List.mem_singleton.1 member]
    exact Nat.zero_le _

def rows (lines : List String) : List String := lines.filter (!isRemark ·)

def spelled (cs : List Clause) : List Literal := cs.flatMap (· ++ [0])

theorem items_intercalate {lines : List String} (apart : ∀ line ∈ lines, '\n' ∉ line.toList) :
    items ("\n".intercalate lines) = linesItems 1 (lines.map String.toList) := by
  cases lines with
  | nil => rfl
  | cons line rest =>
    have pieces : ("\n".toList.intercalate ((line :: rest).map String.toList)).splitOn '\n' =
        (line :: rest).map String.toList :=
      List.splitOn_intercalate '\n' (by simpa using apart) (List.cons_ne_nil _ _)
    rw [items, String.toList_intercalate, pieces]

theorem linesItems_clauses {lines : List String} {cs : List Clause}
    (written : rows lines = cs.map Clause.dimacsText)
    (fits : ∀ c ∈ cs, ∀ l ∈ c, l.natAbs ≤ Atom.max) (number : Nat) :
    (linesItems number (lines.map String.toList)).map Item.literal? = (spelled cs).map some := by
  induction lines generalizing cs number with
  | nil =>
    obtain rfl : cs = [] := List.map_eq_nil_iff.1 written.symm
    rfl
  | cons line rest ih =>
    rw [List.map_cons]
    cases remark : isRemark line with
    | true =>
      rw [linesItems_remark remark]
      exact ih (by simpa [rows, remark] using written) fits (number + 1)
    | false =>
      have front : line :: rows rest = cs.map Clause.dimacsText := by
        simpa [rows, remark] using written
      obtain ⟨c, cs', rfl, rfl, later⟩ := List.map_eq_cons_iff.1 front.symm
      obtain ⟨fits, fits'⟩ := List.forall_mem_cons.1 fits
      have more : mark? c.dimacsText.toList ≠ some '%' := mark?_dimacsText_ne c rfl (by decide)
      rw [linesItems_cons, if_neg more, List.map_append, lineItems_dimacsText fits,
        ih later.symm fits' (number + 1), ← List.map_append]
      rfl

theorem linesItems_header {lines : List String} {atoms clauses : Nat} {more : List String}
    (written : rows lines = headerText atoms clauses :: more) (number : Nat) :
    ∃ number' rest, rows rest = more ∧ linesItems number (lines.map String.toList) =
      .header number' (tokens (headerText atoms clauses).toList) ::
        linesItems (number' + 1) (rest.map String.toList) := by
  induction lines generalizing number with
  | nil => cases written
  | cons line rest ih =>
    rw [List.map_cons]
    cases remark : isRemark line with
    | true =>
      rw [linesItems_remark remark]
      exact ih (by simpa [rows, remark] using written) (number + 1)
    | false =>
      obtain ⟨rfl, later⟩ : line = headerText atoms clauses ∧ rows rest = more := by
        simpa [rows, remark] using written
      have mark : mark? (headerText atoms clauses).toList = some 'p' := by
        rw [mark?_eq_tokens, tokens_headerText]
        rfl
      refine ⟨number, rest, later, ?_⟩
      rw [linesItems_cons, lineItems, mark, if_neg (by decide)]
      rfl

theorem mem_spelled {l : Literal} {cs : List Clause} (member : l ∈ spelled cs) (nonzero : l ≠ 0) :
    ∃ c ∈ cs, l ∈ c := by
  obtain ⟨c, inList, inClause⟩ := List.mem_flatMap.1 member
  refine ⟨c, inList, (List.mem_append.1 inClause).resolve_right fun last => ?_⟩
  exact nonzero (List.mem_singleton.1 last)

theorem spelled_groups {cs : List Clause} (nonzero : ∀ c ∈ cs, ∀ l ∈ c, l ≠ 0) :
    ended (spelled cs) = cs ∧ unended (spelled cs) = [] := by
  induction cs with
  | nil => exact ⟨rfl, rfl⟩
  | cons c rest ih =>
    obtain ⟨nonzero, nonzero'⟩ := List.forall_mem_cons.1 nonzero
    obtain ⟨ended', unended'⟩ := ih nonzero'
    obtain ⟨first, last⟩ := ended_append_zero nonzero (spelled rest)
    have parts : spelled (c :: rest) = c ++ 0 :: spelled rest := by simp [spelled]
    rw [parts, first, last, ended', unended']
    exact ⟨rfl, rfl⟩

section Words

variable {before rest : List Item} {ls : List Literal}
  (read : rest.map Item.literal? = ls.map some)
include read

theorem literals_append_words : literals (before ++ rest) = literals before ++ ls := by
  have all : rest.filterMap Item.literal? = (rest.map Item.literal?).filterMap id := by
    rw [List.filterMap_map]
    rfl
  rw [literals, List.filterMap_append, all, read]
  simp [literals]

theorem WellFormed.append_words (wellFormed : WellFormed before)
    (inRange : ∀ l ∈ ls, l.natAbs ≤ greatest before) : WellFormed (before ++ rest) := by
  induction rest generalizing before ls with
  | nil => rwa [List.append_nil]
  | cons item rest ih =>
    obtain ⟨l, ls, rfl, readFirst, readRest⟩ := List.map_eq_cons_iff.1 read.symm
    obtain ⟨le, inRange⟩ := List.forall_mem_cons.1 inRange
    cases item with
    | header number words => cases readFirst
    | word number token =>
      have same : greatest (before ++ [.word number token]) = greatest before :=
        greatest_congr (expected_concat_word before number token)
      have first : WellFormed (before ++ [.word number token]) :=
        wellFormed.concat (fault?_word_eq_none.2
          ⟨l, readLiteral?_eq_some.1 readFirst.symm, le⟩)
      have all := ih readRest.symm first (same ▸ inRange)
      rwa [List.append_assoc] at all

theorem ensureAtoms_mem_callsBehind {a : Atom} (member : .ensureAtoms a ∈ callsBehind before rest) :
    ∃ l ∈ ls, l ≠ 0 ∧ a = l.natAbs := by
  induction rest generalizing before ls with
  | nil => cases member
  | cons item rest ih =>
    obtain ⟨l, ls, rfl, readFirst, readRest⟩ := List.map_eq_cons_iff.1 read.symm
    rcases List.mem_append.1 member with member | member
    · refine ⟨l, List.mem_cons_self, ?_⟩
      cases item with
      | header number words => cases readFirst
      | word number token =>
        have read : readLiteral? token = some l := readFirst.symm
        by_cases zero : l = 0
        · simp [Item.calls, read, zero] at member
        · exact ⟨zero, by simpa [Item.calls, read, zero] using member⟩
    · obtain ⟨m, inRest, found⟩ := ih readRest.symm member
      exact ⟨m, List.mem_cons_of_mem _ inRest, found⟩

end Words

theorem readsAs_append {s t : Solver} {text : String} {before rest : List Item}
    {cs : List Clause} (parts : items text = before ++ rest) (builds : Builds s before t)
    (noWords : literals before = []) (read : rest.map Item.literal? = (spelled cs).map some)
    (proper : ∀ c ∈ cs, ∀ l ∈ c, l ≠ 0 ∧ l.natAbs ≤ greatest before ∧ l.natAbs < t.atoms.size) :
    ReadsAs s text (build (cs.map .addClause) t) cs.length := by
  have literals : literals (before ++ rest) = spelled cs := by
    rw [literals_append_words read, noWords, List.nil_append]
  have nonzero : ∀ c ∈ cs, ∀ l ∈ c, l ≠ 0 := fun c inList l inClause =>
    (proper c inList l inClause).1
  obtain ⟨ended', unended'⟩ := spelled_groups nonzero
  have groups : clauses (Dimacs.literals (before ++ rest)) = cs := by
    rw [clauses, literals, ended', unended', if_pos rfl, List.append_nil]
  have wellFormed : WellFormed (before ++ rest) := by
    refine builds.1.append_words read fun l member => ?_
    by_cases zero : l = 0
    · rw [zero]
      exact Nat.zero_le _
    · obtain ⟨c, inList, inClause⟩ := mem_spelled member zero
      exact (proper c inList l inClause).2.1
  have calls : program (before ++ rest) = calls before ++ callsBehind before rest := by
    rw [program, literals, unended', if_pos rfl, List.append_nil, calls_append]
  have later : (callsBehind before rest).filterMap Build.clause? = cs := by
    have all := clauses_program (before ++ rest)
    rw [calls, List.filterMap_append, clauses_calls, noWords, groups] at all
    exact all
  have built : build (program (before ++ rest)) s = build (cs.map .addClause) t := by
    rw [calls, Solver.build_append, builds.2, ← later]
    refine Solver.build_of_known fun a member => ?_
    obtain ⟨l, inText, nonzero, rfl⟩ := ensureAtoms_mem_callsBehind read member
    obtain ⟨c, inList, inClause⟩ := mem_spelled inText nonzero
    exact (proper c inList l inClause).2.2
  have answer := readsAs_of_wellFormed s (parts ▸ wellFormed)
  rwa [parts, groups, built] at answer

def formulaCalls (n : Nat) (cs : List Clause) : List Build := .ensureAtoms n :: cs.map .addClause

/-- Written and read again, a formula is what the calls make of it that introduce its atoms and add
its clauses: where no clause is refused all are counted, and the solvers differ in what they noted
at most. The atoms can also be introduced beforehand, in place of the header. No list that fits into
memory is longer than `maxCount`, so there is always a header for it. -/
theorem readsAs_written (s : Solver) {n : Nat} {cs : List Clause} {lines : List String}
    (room : n ≤ Atom.max) (proper : ∀ c ∈ cs, ∀ l ∈ c, l ≠ 0 ∧ l.natAbs ≤ n)
    (apart : ∀ line ∈ lines, '\n' ∉ line.toList) :
    (cs.length ≤ maxCount → rows lines = headerText n cs.length :: cs.map Clause.dimacsText →
      ReadsAs s ("\n".intercalate lines) (build (formulaCalls n cs) s) cs.length) ∧
    (rows lines = cs.map Clause.dimacsText →
      ReadsAs (s.ensureAtoms n).2 ("\n".intercalate lines) (build (formulaCalls n cs) s)
        cs.length) := by
  obtain ⟨t, ensured, known⟩ := Solver.ensureAtoms_of_le (s := s) room
  have formula : build (formulaCalls n cs) s = build (cs.map .addClause) t := by
    rw [formulaCalls, build, Build.perform, ensured]
  have fits : ∀ c ∈ cs, ∀ l ∈ c, l.natAbs ≤ Atom.max := fun c inList l inClause =>
    (proper c inList l inClause).2.trans room
  rw [formula, ensured]
  -- After a header as after the call, there are atoms enough for every clause.
  constructor
  · intro countable written
    obtain ⟨number, rest, later, parts⟩ := linesItems_header written 1
    rw [← items_intercalate apart] at parts
    have counts : counts? (tokens (headerText n cs.length).toList) = some (n, cs.length) := by
      refine counts?_eq_some.2 ⟨⟨_, _, [], tokens_headerText n cs.length, ?_, ?_⟩, room⟩
      · exact ⟨.inl (Text.isNumeral_toString n), room.trans (by decide)⟩
      · exact ⟨.inl (Text.isNumeral_toString cs.length), countable⟩
    let header : Item := .header number (tokens (headerText n cs.length).toList)
    have builds : Builds s [header] t := by
      refine Builds.concat ⟨wellFormed_nil, rfl⟩ (fault?_header_eq_none.2 ⟨rfl, _, _, counts⟩) ?_
      have calls : header.calls [] = [.ensureAtoms n] := by
        simp only [header, Item.calls, counts]
        rfl
      rw [calls, Solver.build_singleton]
      exact ensured
    have bound : greatest [header] = n := by simp [greatest, expected, header, counts]
    refine readsAs_append parts builds rfl (linesItems_clauses later fits _)
      fun c inList l inClause => ?_
    obtain ⟨nonzero, le⟩ := proper c inList l inClause
    exact ⟨nonzero, bound ▸ le, le.trans_lt known⟩
  · intro written
    have read := linesItems_clauses written fits 1
    rw [← items_intercalate apart] at read
    refine readsAs_append (List.nil_append _).symm ⟨wellFormed_nil, rfl⟩ rfl read
      fun c inList l inClause => ?_
    obtain ⟨nonzero, le⟩ := proper c inList l inClause
    exact ⟨nonzero, le.trans room, le.trans_lt known⟩

theorem readsAs_written_remarks :
    ReadsAs (Solver.new {}) (
        "\n".intercalate ["c remark", "p cnf 2 2", "1 -2 -1 0", "", "0", ""])
      (build (formulaCalls 2 [[1, -2, -1], []]) (Solver.new {})) 2 :=
  (readsAs_written (Solver.new {}) (by decide) (by decide) (by decide)).1 (by decide) (by decide)

end Dimacs

end ClauseLearning
