/-!
The journal of a search: records of what it does, each with a level and a topic. A journal keeps
the records at or above the level it is set to, and one that is not set keeps none.
-/

namespace ClauseLearning

inductive Level where
  | error | warn | info | debug | trace
  deriving DecidableEq, Repr

namespace Level

def rank : Level → Nat
  | error => 0
  | warn => 1
  | info => 2
  | debug => 3
  | trace => 4

def text : Level → String
  | error => "ERROR"
  | warn => "WARN"
  | info => "INFO"
  | debug => "DEBUG"
  | trace => "TRACE"

end Level

inductive Topic where
  | propagation | analysis | reduction | clauses | valuation | backjump | decision | restart
  | resolution | parse | solve
  deriving DecidableEq, Repr

def Topic.text : Topic → String
  | propagation => "propagation"
  | analysis => "analysis"
  | reduction => "reduction"
  | clauses => "clause_db"
  | valuation => "valuation"
  | backjump => "backjump"
  | decision => "decision"
  | restart => "restart"
  | resolution => "resolution"
  | parse => "parse"
  | solve => "solve"

structure Record where
  level : Level
  topic : Topic
  message : String
  deriving DecidableEq, Repr

structure Journal where
  threshold : Option Level := none
  records : Array Record := #[]

namespace Journal

def keeps (j : Journal) (level : Level) : Bool :=
  match j.threshold with
  | none => false
  | some least => level.rank ≤ least.rank

@[inline]
def note (j : Journal) (level : Level) (topic : Topic) (message : Unit → String) : Journal :=
  if j.keeps level then { j with records := j.records.push ⟨level, topic, message ()⟩ } else j

end Journal

end ClauseLearning
