import ClauseLearning.DecisionOrder
import ClauseLearning.Restart.Schedule

/-!
The settings of a solver. The ones given here make a search fast and free of chance.
-/

namespace ClauseLearning

inductive ActivityRule where
  | chaff
  | minisat
  deriving Repr, DecidableEq, Inhabited

structure Settings where
  atomBump : Float := 1.0
  atomDecay : Float := 0.05
  clauseBump : Float := 1.0
  clauseDecay : Float := 1e-3
  /-- Learned clauses with at most this block distance are kept for good. -/
  blockDistanceBound : Nat := 2
  clauseLimit : Nat := Nat.pow 2 32 - 1
  /-- After how many conflicts a search stops; zero is no limit. -/
  conflictLimit : Nat := 0
  decisionHeuristic : DecisionHeuristic := .activity
  occurrenceSeeding : Bool := false
  phaseSaving : Bool := true
  polarityBias : Float := 0.0
  randomDecisionBias : Float := 0.0
  /-- Learned clauses are reduced whenever so many conflicts were met; zero is never. -/
  reductionInterval : Nat := 2000
  reductionRatio : Float := 0.5
  restartPolicy : RestartPolicy := .luby 128
  seed : Nat := 0
  /-- After how many seconds a search stops; zero is no limit. -/
  timeLimit : Nat := 0
  activityRule : ActivityRule := .minisat

end ClauseLearning
