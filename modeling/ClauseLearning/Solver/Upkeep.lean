import ClauseLearning.Solver.Backjump
import ClauseLearning.Solver.Storage

/-!
What a search does between a conflict and the next: restarts, as the schedule says, and reductions
of the additions, whenever a number of conflicts was met.
-/

namespace ClauseLearning.Solver

def restart (s : Solver) : Solver :=
  let s := s.backjump 0
  let counters := { s.counters with restarts := s.counters.restarts + 1, freshConflicts := 0 }
  { s with counters }.note .info .restart fun _ => "Restart " ++ toString counters.restarts

def restartIfDue (s : Solver) : Bool × Solver :=
  let (due, schedule) := s.schedule.conflict
  let s := { s with schedule }
  if due then (true, s.restart) else (false, s)

def reductionIsDue (s : Solver) : Bool :=
  s.settings.reductionInterval ≠ 0 && s.counters.conflicts % s.settings.reductionInterval == 0

def countReduction (s : Solver) : Solver :=
  { s with counters := { s.counters with reductions := s.counters.reductions + 1 } }

def reduce (s : Solver) : Except Failure Nat × Solver :=
  let share := Float.ofNat s.clauses.store.additionCount * s.settings.reductionRatio
  -- A share too great for a word is the greatest there is, and one that is no number is zero.
  match s.reduceBy share.toUInt64.toNat with
  | (.error failure, s) => (.error failure, s)
  | (.ok removed, s) => (.ok removed, s.countReduction)

end ClauseLearning.Solver
