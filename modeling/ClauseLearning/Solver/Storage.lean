import ClauseLearning.Solver.Basic

/-!
Storing, removing and bumping clauses within a solver, which takes note of each.
-/

namespace ClauseLearning.Solver

def collect (s : Solver) (c : Clause) : Solver :=
  match s.learned with
  | none => s
  | some _ => { s with learned := s.learned.map (·.push c) }

def insert (s : Solver) (c : Clause) (origin : ClauseOrigin) (blockDistance : Option Nat) :
    Except Failure ClauseKey × Solver :=
  match s.clauses.insert s.atoms.value s.atoms.level c origin blockDistance with
  | (.error failure, clauses) => (.error failure, { s with clauses }.noteFailure failure)
  | (.ok key, clauses) =>
    let s := { s with clauses }.note .trace .clauses fun _ => key.text ++ ": " ++ c.text
    (.ok key, if origin = .resolution then s.collect c else s)

def noteRemoval (s : Solver) (key : ClauseKey) : Solver :=
  s.note .trace .clauses fun _ => "Removed " ++ key.text

def remove (s : Solver) (key : ClauseKey) : Except Failure Unit × Solver :=
  match s.clauses.remove key with
  | (.error failure, clauses) => (.error failure, { s with clauses }.noteFailure failure)
  | (.ok (), clauses) => (.ok (), { s with clauses }.noteRemoval key)

/-- Removes the `count` least active additions which may be removed, and answers how many of them
there were. -/
def reduceBy (s : Solver) (count : Nat) : Except Failure Nat × Solver :=
  match s.clauses.reduce s.atoms.source count with
  | ((result, removed), clauses) =>
    let s := removed.foldl noteRemoval { s with clauses }
    match result with
    | .error failure => (.error failure, s.noteFailure failure)
    | .ok () =>
      (.ok removed.length, s.note .info .reduction fun _ =>
        "Removed " ++ toString removed.length ++ " additions")

def noteRescale (s : Solver) : Solver :=
  s.note .trace .clauses fun _ => "Rescaling clause activity"

def raiseClause (s : Solver) (key : ClauseKey) : Solver :=
  let s := if s.clauses.store.raiseRescales key then s.noteRescale else s
  s.modifyStore (·.raise key)

def decayClauses (s : Solver) : Solver :=
  let s := if s.clauses.store.decayRescales then s.noteRescale else s
  s.modifyStore (·.decay)

def watch (s : Solver) (l : Literal) (key : ClauseKey) : Solver :=
  s.modifyWatches (·.watch l key)

def unwatch (s : Solver) (l : Literal) (key : ClauseKey) : Except Failure Unit × Solver :=
  match s.clauses.watches.unwatch l key with
  | (.error failure, watches) =>
    (.error failure, (s.modifyWatches fun _ => watches).noteFailure failure)
  | (.ok (), watches) => (.ok (), s.modifyWatches fun _ => watches)

end ClauseLearning.Solver
