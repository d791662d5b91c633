import ClauseLearning.Dimacs.Line
import ClauseLearning.Solver.Formula
import ClauseLearning.Text.Lines

/-!
Reading a DIMACS file into a solver. Clauses may be spread over lines and share them; each is added
when its zero is read, and the last clause needs none. At the first failure reading stops, and what
was added before stays.
-/

namespace ClauseLearning.Dimacs

structure Summary where
  expected : Option (Nat × Nat) := none
  addedAtoms : Nat := 0
  addedClauses : Nat := 0
  deriving DecidableEq, Repr

structure Reading where
  solver : Solver
  expected : Option (Nat × Nat) := none
  started : Bool := false
  clause : List Literal := []
  addedClauses : Nat := 0

namespace Reading

def inRange (r : Reading) (a : Atom) : Bool :=
  match r.expected with
  | some (atoms, _) => a ≤ atoms
  | none => a ≤ Atom.max

def endClause (r : Reading) : Except Failure Unit × Reading :=
  let clause := r.clause.reverse
  match r.solver.addClause clause with
  | (.error failure, solver) => (.error failure, { r with solver, clause := [] })
  | (.ok _, solver) =>
    (.ok (), { r with solver, clause := [], addedClauses := r.addedClauses + 1 })

def readWord (r : Reading) (number : Nat) (word : List Char) : Except Failure Unit × Reading :=
  match readLiteral? word with
  | none => (.error (.line number), r)
  | some l =>
    if l = 0 then r.endClause
    else if r.inRange l.natAbs then
      match r.solver.ensureAtoms l.natAbs with
      | (.error failure, solver) => (.error failure, { r with solver })
      | (.ok (), solver) => (.ok (), { r with solver, clause := l :: r.clause })
    else (.error (.atomOutOfRange number l.natAbs), r)

def readWords (r : Reading) (number : Nat) : List (List Char) → Except Failure Unit × Reading
  | [] => (.ok (), r)
  | word :: rest =>
    match r.readWord number word with
    | (.error failure, r) => (.error failure, r)
    | (.ok (), r) => readWords r number rest

def readHeader (r : Reading) (number : Nat) (words : List (List Char)) :
    Except Failure Unit × Reading :=
  if r.started || r.expected.isSome then (.error (.misplacedHeader number), r)
  else
    match readHeader? words with
    | none => (.error .header, r)
    | some (atoms, clauses) =>
      let solver := r.solver.note .info .parse fun _ =>
        "Expecting " ++ toString atoms ++ " atoms and " ++ toString clauses ++ " clauses"
      if atoms ≤ Atom.max then
        match solver.ensureAtoms atoms with
        | (.error failure, solver) => (.error failure, { r with solver })
        | (.ok (), solver) => (.ok (), { r with solver, expected := some (atoms, clauses) })
      else (.error .header, { r with solver })

def notText : Failure := .unreadable "stream did not contain valid UTF-8"

def readLines (r : Reading) (number : Nat) : List Text.Line → Except Failure Unit × Reading
  | [] => (.ok (), r)
  | none :: _ => (.error notText, r)
  | some text :: rest =>
    match Line.ofText text with
    | .blank => readLines r (number + 1) rest
    | .stop => (.ok (), r)
    | .header words =>
      match r.readHeader number words with
      | (.error failure, r) => (.error failure, r)
      | (.ok (), r) => readLines r (number + 1) rest
    | .literals words =>
      match readWords { r with started := true } number words with
      | (.error failure, r) => (.error failure, r)
      | (.ok (), r) => readLines r (number + 1) rest

def endFile (r : Reading) : Except Failure Unit × Reading :=
  if r.clause.isEmpty then (.ok (), r) else r.endClause

/-- Sums a file up which began with `initial` atoms, and notes a wrong count of clauses. -/
def summarise (r : Reading) (initial : Nat) : Summary × Solver :=
  let summary : Summary := ⟨r.expected, r.solver.atomCount - initial, r.addedClauses⟩
  match r.expected with
  | none => (summary, r.solver)
  | some (_, clauses) =>
    if clauses = r.addedClauses then (summary, r.solver)
    else
      -- The count stated is shown as the optional value it is kept as.
      (summary, r.solver.note .warn .parse fun _ =>
        "Expected Some(" ++ toString clauses ++ ") clauses, read " ++ toString r.addedClauses)

end Reading

end ClauseLearning.Dimacs

namespace ClauseLearning.Solver

def readDimacsLines (s : Solver) (lines : List Text.Line) :
    Except Failure Dimacs.Summary × Solver :=
  let initial := s.atomCount
  match Dimacs.Reading.readLines { solver := s } 1 lines with
  | (.error failure, r) => (.error failure, r.solver)
  | (.ok (), r) =>
    match r.endFile with
    | (.error failure, r) => (.error failure, r.solver)
    | (.ok (), r) =>
      let (summary, s) := r.summarise initial
      (.ok summary, s)

def readDimacs (s : Solver) (file : ByteArray) : Except Failure Dimacs.Summary × Solver :=
  s.readDimacsLines (Text.lines file)

end ClauseLearning.Solver
