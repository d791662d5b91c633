import ClauseLearning.Dimacs.Reader
import ClauseLearning.Proofs.Formula

namespace ClauseLearning

abbrev Attempt := Clause × Except Failure AddStatus

def Attempt.accepted (attempt : Attempt) : List Clause := Solver.accepts attempt.1 attempt.2

namespace Dimacs.Reading

def clauseAccepted (r : Reading) : List Clause :=
  Solver.accepts r.clause.reverse (r.solver.addClause r.clause.reverse).1

def wordAccepted (r : Reading) (word : List Char) : List Clause :=
  match readLiteral? word with
  | some 0 => r.clauseAccepted
  | _ => []

def wordsAccepted (r : Reading) (number : Nat) : List (List Char) → List Clause
  | [] => []
  | word :: rest =>
    r.wordAccepted word ++
      match r.readWord number word with
      | (.error _, _) => []
      | (.ok (), r) => wordsAccepted r number rest

def linesAccepted (r : Reading) (number : Nat) : List Text.Line → List Clause
  | [] | none :: _ => []
  | some text :: rest =>
    match Line.ofText text with
    | .blank => linesAccepted r (number + 1) rest
    | .stop => []
    | .header words =>
      match r.readHeader number words with
      | (.error _, _) => []
      | (.ok (), r) => linesAccepted r (number + 1) rest
    | .literals words =>
      wordsAccepted { r with started := true } number words ++
        match readWords { r with started := true } number words with
        | (.error _, _) => []
        | (.ok (), r) => linesAccepted r (number + 1) rest

def fileAccepted (r : Reading) : List Clause := if r.clause.isEmpty then [] else r.clauseAccepted

def clauseAttempt (r : Reading) : Attempt :=
  (r.clause.reverse, (r.solver.addClause r.clause.reverse).1)

def wordAttempts (r : Reading) (word : List Char) : List Attempt :=
  match readLiteral? word with
  | some 0 => [r.clauseAttempt]
  | _ => []

def wordsAttempts (r : Reading) (number : Nat) : List (List Char) → List Attempt
  | [] => []
  | word :: rest =>
    r.wordAttempts word ++
      match r.readWord number word with
      | (.error _, _) => []
      | (.ok (), r) => wordsAttempts r number rest

def linesAttempts (r : Reading) (number : Nat) : List Text.Line → List Attempt
  | [] | none :: _ => []
  | some text :: rest =>
    match Line.ofText text with
    | .blank => linesAttempts r (number + 1) rest
    | .stop => []
    | .header words =>
      match r.readHeader number words with
      | (.error _, _) => []
      | (.ok (), r) => linesAttempts r (number + 1) rest
    | .literals words =>
      wordsAttempts { r with started := true } number words ++
        match readWords { r with started := true } number words with
        | (.error _, _) => []
        | (.ok (), r) => linesAttempts r (number + 1) rest

def fileAttempts (r : Reading) : List Attempt := if r.clause.isEmpty then [] else [r.clauseAttempt]

theorem wordAccepted_eq (r : Reading) (word : List Char) :
    r.wordAccepted word = (r.wordAttempts word).flatMap Attempt.accepted := by
  unfold wordAccepted wordAttempts
  split
  · exact (List.append_nil _).symm
  · rfl

theorem wordsAccepted_eq (r : Reading) (number : Nat) (words : List (List Char)) :
    r.wordsAccepted number words = (r.wordsAttempts number words).flatMap Attempt.accepted := by
  induction words generalizing r with
  | nil => rfl
  | cons word rest ih =>
    rw [wordsAccepted, wordsAttempts, List.flatMap_append, wordAccepted_eq]
    cases r.readWord number word with
    | mk result r' =>
      cases result with
      | error failure => rfl
      | ok => exact congrArg _ (ih r')

theorem linesAccepted_eq (r : Reading) (number : Nat) (lines : List Text.Line) :
    r.linesAccepted number lines = (r.linesAttempts number lines).flatMap Attempt.accepted := by
  induction lines generalizing r number with
  | nil => rfl
  | cons line rest ih =>
    cases line with
    | none => rfl
    | some text =>
      rw [linesAccepted, linesAttempts]
      cases Line.ofText text with
      | blank => exact ih r (number + 1)
      | stop => rfl
      | header words =>
        simp only
        cases r.readHeader number words with
        | mk result r' =>
          cases result with
          | error failure => rfl
          | ok => exact ih r' (number + 1)
      | literals words =>
        simp only [List.flatMap_append, wordsAccepted_eq]
        cases readWords { r with started := true } number words with
        | mk result r' =>
          cases result with
          | error failure => rfl
          | ok => exact congrArg _ (ih r' (number + 1))

theorem fileAccepted_eq (r : Reading) :
    r.fileAccepted = r.fileAttempts.flatMap Attempt.accepted := by
  unfold fileAccepted fileAttempts
  split
  · rfl
  · exact (List.append_nil _).symm

end Dimacs.Reading

structure Solver.Relates (relation : Solver → List Attempt → Solver → Prop) : Prop where
  refl : ∀ s, relation s [] s
  trans : ∀ {s t u : Solver} {first second : List Attempt}, relation s first t →
    relation t second u → relation s (first ++ second) u
  note : ∀ s level topic message, relation s [] (s.note level topic message)
  ensureAtoms : ∀ s a, relation s [] (s.ensureAtoms a).2
  addClause : ∀ s c, relation s [(c, (s.addClause c).1)] (s.addClause c).2

namespace Dimacs.Reading

variable {relation : Solver → List Attempt → Solver → Prop} (relates : Solver.Relates relation)
include relates

theorem endClause_relates (r : Reading) :
    relation r.solver [r.clauseAttempt] r.endClause.2.solver := by
  have added := relates.addClause r.solver r.clause.reverse
  unfold endClause clauseAttempt
  simp only
  split <;> rename_i answer <;> rw [answer] at added ⊢ <;> exact added

theorem readWord_relates (r : Reading) (number : Nat) (word : List Char) :
    relation r.solver (r.wordAttempts word) (r.readWord number word).2.solver := by
  unfold readWord wordAttempts
  cases readLiteral? word with
  | none => exact relates.refl r.solver
  | some l =>
    by_cases ends : l = 0
    · subst ends
      exact endClause_relates relates r
    · have none : (match some l with | some 0 => [r.clauseAttempt] | _ => []) = [] := by
        split
        · rename_i zero
          exact absurd (Option.some.inj zero) ends
        · rfl
      rw [none]
      simp only [if_neg ends]
      split
      · have ensured := relates.ensureAtoms r.solver l.natAbs
        split <;> rename_i answer <;> rw [answer] at ensured <;> exact ensured
      · exact relates.refl r.solver

theorem readWords_relates (r : Reading) (number : Nat) (words : List (List Char)) :
    relation r.solver (r.wordsAttempts number words) (r.readWords number words).2.solver := by
  induction words generalizing r with
  | nil => exact relates.refl r.solver
  | cons word rest ih =>
    have first := readWord_relates relates r number word
    rw [readWords, wordsAttempts]
    cases answer : r.readWord number word with
    | mk result r' =>
      rw [answer] at first
      cases result with
      | error failure =>
        rw [List.append_nil]
        exact first
      | ok => exact relates.trans first (ih r')

theorem readHeader_relates (r : Reading) (number : Nat) (words : List (List Char)) :
    relation r.solver [] (r.readHeader number words).2.solver := by
  unfold readHeader
  split
  · exact relates.refl r.solver
  · split
    · exact relates.refl r.solver
    · rename_i atoms clauses _
      have noted := relates.note r.solver .info .parse fun _ =>
        "Expecting " ++ toString atoms ++ " atoms and " ++ toString clauses ++ " clauses"
      simp only
      generalize r.solver.note _ _ _ = s at noted ⊢
      split
      · have ensured := relates.trans noted (relates.ensureAtoms s atoms)
        split <;> rename_i answer <;> rw [answer] at ensured <;> exact ensured
      · exact noted

theorem readLines_relates (r : Reading) (number : Nat) (lines : List Text.Line) :
    relation r.solver (r.linesAttempts number lines) (r.readLines number lines).2.solver := by
  induction lines generalizing r number with
  | nil => exact relates.refl r.solver
  | cons line rest ih =>
    cases line with
    | none => exact relates.refl r.solver
    | some text =>
      rw [readLines, linesAttempts]
      cases Line.ofText text with
      | blank => exact ih r (number + 1)
      | stop => exact relates.refl r.solver
      | header words =>
        have header := readHeader_relates relates r number words
        simp only
        cases answer : r.readHeader number words with
        | mk result r' =>
          rw [answer] at header
          cases result with
          | error failure => exact header
          | ok => exact relates.trans header (ih r' (number + 1))
      | literals words =>
        have read := readWords_relates relates { r with started := true } number words
        simp only
        cases answer : readWords { r with started := true } number words with
        | mk result r' =>
          rw [answer] at read
          cases result with
          | error failure =>
            rw [List.append_nil]
            exact read
          | ok => exact relates.trans read (ih r' (number + 1))

theorem endFile_relates (r : Reading) : relation r.solver r.fileAttempts r.endFile.2.solver := by
  unfold endFile fileAttempts
  split
  · exact relates.refl r.solver
  · exact endClause_relates relates r

theorem summarise_relates (r : Reading) (initial : Nat) :
    relation r.solver [] (r.summarise initial).2 := by
  unfold summarise
  simp only
  split
  · exact relates.refl r.solver
  · split
    · exact relates.refl r.solver
    · exact relates.note r.solver _ _ _

end Dimacs.Reading

namespace Solver

open Dimacs

def linesAccepted (s : Solver) (lines : List Text.Line) : List Clause :=
  Reading.linesAccepted { solver := s } 1 lines ++
    match Reading.readLines { solver := s } 1 lines with
    | (.error _, _) => []
    | (.ok (), r) => r.fileAccepted

def linesAttempts (s : Solver) (lines : List Text.Line) : List Attempt :=
  Reading.linesAttempts { solver := s } 1 lines ++
    match Reading.readLines { solver := s } 1 lines with
    | (.error _, _) => []
    | (.ok (), r) => r.fileAttempts

theorem linesAccepted_eq (s : Solver) (lines : List Text.Line) :
    s.linesAccepted lines = (s.linesAttempts lines).flatMap Attempt.accepted := by
  unfold linesAccepted linesAttempts
  rw [List.flatMap_append, Reading.linesAccepted_eq]
  cases Reading.readLines { solver := s } 1 lines with
  | mk result r =>
    cases result with
    | error failure => rfl
    | ok => exact congrArg _ r.fileAccepted_eq

theorem Relates.readDimacs {relation : Solver → List Attempt → Solver → Prop}
    (relates : Relates relation) (s : Solver) (file : ByteArray) :
    relation s (s.linesAttempts (Text.lines file)) (s.readDimacs file).2 := by
  have read := Reading.readLines_relates relates { solver := s } 1 (Text.lines file)
  unfold Solver.readDimacs readDimacsLines linesAttempts
  simp only
  cases answer : Reading.readLines { solver := s } 1 (Text.lines file) with
  | mk result r =>
    rw [answer] at read
    cases result with
    | error failure =>
      rw [List.append_nil]
      exact read
    | ok =>
      refine relates.trans read ?_
      have ended := Reading.endFile_relates relates r
      simp only
      cases answer' : r.endFile with
      | mk result r' =>
        rw [answer'] at ended
        cases result with
        | error failure => exact ended
        | ok =>
          have all := relates.trans ended (Reading.summarise_relates relates r' s.atomCount)
          rwa [List.append_nil] at all

theorem readDimacs_grows (s : Solver) (file : ByteArray) :
    s.Grows (s.readDimacs file).2 (s.linesAccepted (Text.lines file)) := by
  have relates : Relates fun s attempts s' => s.Grows s' (attempts.flatMap Attempt.accepted) :=
    { refl := .refl
      trans := fun first second => by
        rw [List.flatMap_append]
        exact first.trans second
      note := note_grows
      ensureAtoms := ensureAtoms_grows
      addClause := fun s c => by
        rw [List.flatMap_singleton]
        exact s.addClause_grows c }
  rw [linesAccepted_eq]
  exact relates.readDimacs s file

structure Endures (holds : Solver → Prop) : Prop where
  note : ∀ s level topic message, holds s → holds (s.note level topic message)
  ensureAtoms : ∀ s a, holds s → holds (s.ensureAtoms a).2
  addClause : ∀ s c, holds s → holds (s.addClause c).2

theorem Endures.readDimacs {holds : Solver → Prop} (endures : Endures holds) (s : Solver)
    (file : ByteArray) (start : holds s) : holds (s.readDimacs file).2 := by
  have relates : Relates fun s _ s' => holds s → holds s' :=
    { refl := fun _ => id
      trans := fun first second => second ∘ first
      note := endures.note
      ensureAtoms := endures.ensureAtoms
      addClause := endures.addClause }
  exact relates.readDimacs s file start

end Solver

end ClauseLearning
