import ClauseLearning.Main
import ClauseLearning.Proofs.Agreement
import ClauseLearning.Proofs.Semantics
import ClauseLearning.Proofs.ClauseStore
import ClauseLearning.Proofs.WatchLists
import ClauseLearning.Proofs.DecisionOrder
import ClauseLearning.Proofs.Choice
import ClauseLearning.Proofs.WatchedStore
import ClauseLearning.Proofs.Reasons
import ClauseLearning.Proofs.Guards
import ClauseLearning.Proofs.Coherence
import ClauseLearning.Proofs.Assignment
import ClauseLearning.Proofs.Rewatching
import ClauseLearning.Proofs.Propagation
import ClauseLearning.Proofs.Backjump
import ClauseLearning.Proofs.Resolution
import ClauseLearning.Proofs.Storing
import ClauseLearning.Proofs.Learning
import ClauseLearning.Proofs.Reduction
import ClauseLearning.Proofs.Formula
import ClauseLearning.Proofs.Reading
import ClauseLearning.Proofs.Run
import ClauseLearning.Proofs.Search
import ClauseLearning.Proofs.Calls
import ClauseLearning.Proofs.Soundness
import ClauseLearning.Proofs.Consistency
import ClauseLearning.Proofs.Setup
import ClauseLearning.Proofs.Alignment
import ClauseLearning.Proofs.Failures
import ClauseLearning.Proofs.AtomChanges
import ClauseLearning.Proofs.Decisions
import ClauseLearning.Proofs.HeapOrder
import ClauseLearning.Proofs.PriorityQueue
import ClauseLearning.Proofs.WatchWalks
import ClauseLearning.Proofs.StoreChanges
import ClauseLearning.Proofs.KeyLedger
import ClauseLearning.Proofs.StoreCalls
import ClauseLearning.Proofs.Novelty
import ClauseLearning.Proofs.UnitPropagation
import ClauseLearning.Proofs.Surroundings
import ClauseLearning.Proofs.Interruption
import ClauseLearning.Proofs.Passes
import ClauseLearning.Proofs.Progress
import ClauseLearning.Proofs.Completeness
import ClauseLearning.Proofs.Divergence
import ClauseLearning.Proofs.Timeliness
import ClauseLearning.Proofs.ModelAtHand
import ClauseLearning.Proofs.DerivedClauses
import ClauseLearning.Proofs.ImplicationGraph
import ClauseLearning.Proofs.TextLines
import ClauseLearning.Proofs.Numerals
import ClauseLearning.Proofs.Building
import ClauseLearning.Proofs.Grammar
import ClauseLearning.Proofs.RoundTrip
import ClauseLearning.Proofs.AssertionLevel
import ClauseLearning.Proofs.Occurrences
import ClauseLearning.Proofs.SeededPhases
import ClauseLearning.Proofs.ActivityOrder
import ClauseLearning.Proofs.RankOrder
import ClauseLearning.Proofs.LeastActive
import ClauseLearning.Proofs.FullPeriod
import ClauseLearning.Proofs.LubySequence
import ClauseLearning.Proofs.RestartTimes
import ClauseLearning.Proofs.Removal
import ClauseLearning.Proofs.StaleKeys
import ClauseLearning.Proofs.BufferReuse
import ClauseLearning.Proofs.CircularSweep
