import ClauseLearning.CommandLine.Arguments
import ClauseLearning.CommandLine.Elapsed
import ClauseLearning.CommandLine.Files
import ClauseLearning.CommandLine.Path
import ClauseLearning.Dimacs.Reader
import ClauseLearning.Solver.Model
import ClauseLearning.Solver.Search

/-!
A session of the command line: the arguments are read, then a formula, and after a search its
outcome is written. Each stage answers the lines it writes, and either an exit code or what the
next stage needs.
-/

namespace ClauseLearning.CommandLine

def usage : String := "c Usage: marten_cli [--option=value ...] FILE.cnf[.xz]"

structure Stage (α : Type) where
  lines : List String
  next : Except Nat α

def openSession (arguments : List String) : Stage Request :=
  match readArguments arguments with
  | (lines, .error failure) => ⟨lines ++ ["c " ++ failure.message, usage], .error 1⟩
  | (lines, .ok request) =>
    ⟨lines ++ ["c Reading DIMACS file from " ++ Text.quoted request.path], .ok request⟩

def summaryLines (summary : Dimacs.Summary) : List String :=
  let atoms := match summary.expected with
    | some (atoms, _) => "c Expected " ++ toString atoms ++ " atoms."
    | none => "c No preamble was found."
  let clauses := match summary.expected with
    | some (_, clauses) => ["c Expected " ++ toString clauses ++ " clauses."]
    | none => []
  [atoms, "c Added    " ++ toString summary.addedAtoms ++ " atoms."] ++ clauses
    ++ ["c Added    " ++ toString summary.addedClauses ++ " clauses."]

def isOpened : Except FileFailure ByteArray → Bool
  | .ok _ => true
  | .error failure => failure.opens

/-- Reads a formula from the bytes of its file, or the reason why there are none. Compressed files
are opened and not read. -/
def readFormula (request : Request) (file : Except FileFailure ByteArray) :
    Except Failure Dimacs.Summary × Solver :=
  let solver := Solver.new request.settings
  if isOpened file && isCompressed request.path then
    (.error (.unreadable "reading xz files requires the xz feature"), solver)
  else
    match file with
    | .error failure => (.error (.unreadable failure.text), solver)
    | .ok bytes => solver.readDimacs bytes

def load (request : Request) (file : Except FileFailure ByteArray) : Stage Solver :=
  match readFormula request file with
  | (.error failure, _) => ⟨["c Parse error: " ++ failure.text], .error 1⟩
  | (.ok summary, solver) => ⟨summaryLines summary, .ok solver⟩

def counterLines (counters : Counters) : List String :=
  [ "c Conflicts:    " ++ toString counters.conflicts,
    "c Decisions:    " ++ toString counters.decisions,
    "c Propagations: " ++ toString counters.propagations,
    "c Restarts:     " ++ toString counters.restarts,
    "c Reductions:   " ++ toString counters.reductions,
    "c Time:         " ++ elapsedText counters.elapsed ]

def modelLine (model : Clause) : String := "v " ++ Clause.text model ++ " 0"

def exitCode : Report → Nat
  | .satisfiable => 10
  | .unsatisfiable => 20
  | .unknown => 0

def finish (request : Request) (outcome : Except Failure Report) (solver : Solver) :
    List String × Nat :=
  match outcome with
  | .error failure => (["c Solve error: " ++ failure.text], 2)
  | .ok report =>
    let counters := if request.counters then counterLines solver.counters else []
    let model := match request.model, solver.model? with
      | true, some model => [modelLine model]
      | _, _ => []
    (counters ++ [report.statusLine] ++ model, exitCode report)

/-- A whole session, for a search of at most `passes` passes; a search that needs more is reported
as having found nothing out. -/
def session (files : String → Except FileFailure ByteArray) (passes : Nat) (arguments : List String) :
    List String × Nat :=
  let opening := openSession arguments
  match opening.next with
  | .error code => (opening.lines, code)
  | .ok request =>
    let loading := load request (files request.path)
    match loading.next with
    | .error code => (opening.lines ++ loading.lines, code)
    | .ok solver =>
      let (outcome, solver) := solver.solve passes
      let (lines, code) := finish request (outcome.map (·.getD .unknown)) solver
      (opening.lines ++ loading.lines ++ lines, code)

end ClauseLearning.CommandLine
