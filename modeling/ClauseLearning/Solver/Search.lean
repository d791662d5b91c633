import ClauseLearning.Solver.Decision
import ClauseLearning.Solver.Learning
import ClauseLearning.Solver.Upkeep

/-!
The search. A pass draws consequences; if there is no conflict it decides, and otherwise it learns,
and looks whether to restart and to reduce. The search ends with the pass that settles the formula
or meets a limit. How many passes that takes has no bound known beforehand, so a search is given a
number of them, and says so if they do not suffice.
-/

namespace ClauseLearning

inductive PassOutcome where
  | ongoing
  | finished
  deriving DecidableEq, Repr

namespace Solver

def poll (s : Solver) : Bool × Solver :=
  match s.terminate with
  | none => (false, s)
  | some stop =>
    let polls := s.polls + 1
    (stop polls, { s with polls })

def second : Nat := 1000000000

def timeIsUp (s : Solver) : Bool :=
  s.settings.timeLimit ≠ 0 && s.settings.timeLimit * second < s.counters.elapsed

def conflictsAreUp (s : Solver) : Bool :=
  s.settings.conflictLimit ≠ 0 && s.settings.conflictLimit ≤ s.counters.conflicts

def shouldStop (s : Solver) : Bool × Solver :=
  if s.timeIsUp then (true, s.note .info .solve fun _ => "Time limit reached")
  else if s.conflictsAreUp then (true, s.note .info .solve fun _ => "Conflict limit reached")
  else s.poll

def advance (s : Solver) : PassOutcome × Solver :=
  match s.shouldStop with
  | (true, s) => (.finished, s)
  | (false, s) =>
    match s.takeDecision with
    | (some _, s) => (.ongoing, s)
    | (none, s) => (.finished, { s with status := .satisfiable })

def assertLesson (s : Solver) (l : Literal) (source : Source) : Except Failure Unit × Solver :=
  match s.assign l source with
  | (.assigned, s) => (.ok (), s)
  | (_, s) => (.error (.noAssertion l), s.noteFailure (.noAssertion l))

def maintain (s : Solver) : Except Failure Unit × Solver :=
  let s := s.restartIfDue.2
  if s.reductionIsDue then
    match s.reduce with
    | (.error failure, s) => (.error failure, s)
    | (.ok _, s) => (.ok (), s)
  else (.ok (), s)

def heed (s : Solver) (l : Literal) (source : Source) : Except Failure PassOutcome × Solver :=
  match s.assertLesson l source with
  | (.error failure, s) => (.error failure, s)
  | (.ok (), s) =>
    match s.maintain with
    | (.error failure, s) => (.error failure, s)
    | (.ok (), s) => (.ok .ongoing, s)

def countPass (s : Solver) : Solver :=
  { s with counters := { s.counters with iterations := s.counters.iterations + 1 } }

def pass (s : Solver) : Except Failure PassOutcome × Solver :=
  match s.countPass.applyConsequences with
  | (.error failure, s) => (.error failure, s)
  | (.ok .exhausted, s) =>
    let (outcome, s) := s.advance
    (.ok outcome, s)
  | (.ok (.lesson .fundamentalConflict), s) => (.ok .finished, { s with status := .unsatisfiable })
  | (.ok (.lesson (.unit l)), s) => s.heed l (.unit (.additionUnit l))
  | (.ok (.lesson (.asserting l key)), s) => s.heed l (.propagation key)

def run : (passes : Nat) → Solver → Except Failure Bool × Solver
  | 0, s => (.ok false, s)
  | passes + 1, s =>
    match s.pass with
    | (.error failure, s) => (.error failure, s)
    | (.ok .finished, s) => (.ok true, s)
    | (.ok .ongoing, s) => run passes s

def isSettled (s : Solver) : Bool := s.status = .satisfiable || s.status = .unsatisfiable

def start (s : Solver) : Solver := { s with status := .solving }

def conclude (s : Solver) : Solver :=
  s.note .info .solve fun _ =>
    s.status.text ++ " after " ++ toString s.counters.conflicts ++ " conflicts and "
      ++ toString s.counters.decisions ++ " decisions"

/-- Searches for a model of the formula, with at most `passes` passes; no report means that they
did not suffice. A formula that is settled is reported at once. -/
def solve (s : Solver) (passes : Nat) : Except Failure (Option Report) × Solver :=
  if s.isSettled then (.ok (some s.report), s)
  else
    match run passes s.start with
    | (.error failure, s) => (.error failure, s)
    | (.ok false, s) => (.ok none, s)
    | (.ok true, s) =>
      let s := s.conclude
      (.ok (some s.report), s)

end Solver

end ClauseLearning
