import ClauseLearning.ClauseStore.Reduction
import ClauseLearning.Random.Choice
import ClauseLearning.Settings.Basic
import ClauseLearning.Trail

/-!
The state of a solver, and the assignments it makes. All of a search is in this state, so that it
can stop at any time and go on later, and so that clauses can be added between searches.
-/

namespace ClauseLearning

inductive SolverStatus where
  | input
  /-- A search has begun and has not settled the formula. -/
  | solving
  /-- Every atom has a value, and every clause is true. -/
  | satisfiable
  | unsatisfiable
  deriving DecidableEq, Repr, Inhabited

def SolverStatus.text : SolverStatus → String
  | input => "Input"
  | solving => "Solving"
  | satisfiable => "Satisfiable"
  | unsatisfiable => "Unsatisfiable"

inductive Report where
  | satisfiable
  | unsatisfiable
  | unknown
  deriving DecidableEq, Repr, Inhabited

namespace Report

def ofStatus : SolverStatus → Report
  | .input | .solving => unknown
  | .satisfiable => satisfiable
  | .unsatisfiable => unsatisfiable

def text : Report → String
  | satisfiable => "Satisfiable"
  | unsatisfiable => "Unsatisfiable"
  | unknown => "Unknown"

def statusLine : Report → String
  | satisfiable => "s SATISFIABLE"
  | unsatisfiable => "s UNSATISFIABLE"
  | unknown => "s UNKNOWN"

end Report

structure Counters where
  conflicts : Nat := 0
  freshConflicts : Nat := 0
  decisions : Nat := 0
  iterations : Nat := 0
  propagations : Nat := 0
  restarts : Nat := 0
  reductions : Nat := 0
  /-- The nanoseconds of the last search, as far as they were measured. -/
  elapsed : Nat := 0
  deriving DecidableEq, Repr

structure ResolutionBuffer where
  merged : Array Bool := #[]
  used : Array Atom := #[]
  settled : Array Literal := #[]
  pending : Nat := 0

structure Solver where
  settings : Settings
  status : SolverStatus := .input
  counters : Counters := {}
  atoms : AtomTable
  clauses : WatchedStore
  trail : Trail := {}
  buffer : ResolutionBuffer := {}
  schedule : RestartSchedule
  random : Generator
  /-- Whether to stop at a poll, given how many there were. -/
  terminate : Option (Nat → Bool) := none
  polls : Nat := 0
  /-- The clauses that were learned since they were last asked for, if they are collected. -/
  learned : Option (Array Clause) := none
  journal : Journal := {}

namespace Solver

/-- A solver without atoms and clauses. The order of decisions, the store, the schedule of restarts
and the source of chance keep the settings it is made with. -/
def new (settings : Settings) : Solver where
  settings := settings
  atoms :=
    .new (.new settings.decisionHeuristic (.ofFloat settings.atomBump) (.ofFloat settings.atomDecay))
  clauses :=
    { store :=
        { decayRate := .ofFloat settings.clauseDecay
          blockDistanceBound := settings.blockDistanceBound
          limit := settings.clauseLimit
          bump := .ofFloat settings.clauseBump }
      watches := {} }
  schedule := .ofPolicy settings.restartPolicy
  random := .ofSeed (UInt64.ofNat settings.seed)

def report (s : Solver) : Report := .ofStatus s.status

def atomCount (s : Solver) : Nat := s.atoms.size - 1

def store (s : Solver) : ClauseStore := s.clauses.store

def watches (s : Solver) : WatchLists := s.clauses.watches

@[inline]
def level (s : Solver) : Nat := s.trail.level

@[inline]
def value (s : Solver) (a : Atom) : Option Bool := s.atoms.value a

@[inline]
def literalValue (s : Solver) (l : Literal) : Option Bool := s.atoms.literalValue l

@[inline]
def note (s : Solver) (level : Level) (topic : Topic) (message : Unit → String) : Solver :=
  if s.journal.keeps level then { s with journal := s.journal.note level topic message } else s

def noteFailure (s : Solver) (failure : Failure) : Solver :=
  match failure.record? with
  | none => s
  | some record => s.note record.level record.topic fun _ => record.message

def noteError {α : Type} (s : Solver) : Except Failure α → Solver
  | .ok _ => s
  | .error failure => s.noteFailure failure

@[inline]
def modifyStore (s : Solver) (f : ClauseStore → ClauseStore) : Solver :=
  { s with clauses := { s.clauses with store := f s.clauses.store } }

@[inline]
def modifyWatches (s : Solver) (f : WatchLists → WatchLists) : Solver :=
  { s with clauses := { s.clauses with watches := f s.clauses.watches } }

/-- Makes a literal true at the current level and puts it on the trail, unless its atom has a
value. -/
def assign (s : Solver) (l : Literal) (source : Source) : AssignStatus × Solver :=
  let level := s.trail.level
  match s.atoms.assign l level source with
  | (.assigned, atoms) =>
    let s := { s with atoms, trail := s.trail.push l }
    (.assigned, s.note .trace .valuation fun _ =>
      l.text ++ " at level " ++ toString level ++ " from " ++ source.text)
  | (status, atoms) => (status, { s with atoms })

end Solver

end ClauseLearning
