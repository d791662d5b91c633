import ClauseLearning.Proofs.Search

namespace ClauseLearning

inductive Call where
  | freshAtom
  | ensureAtoms (a : Atom)
  | addClause (c : Clause)
  | readDimacs (file : ByteArray)
  | solve (passes : Nat)
  | takeDecision
  | propagate
  | propagateLiteral (l : Literal)
  | analyse (key : ClauseKey)
  /-- Draws all consequences, and makes the literal true that a conflict among them teaches. -/
  | applyConsequences
  | pushLevel
  | assign (l : Literal) (source : Source)
  | backjump (n : Nat)
  | clearDecisions
  | restart
  | raiseAtom (a : Atom)
  | decayAtoms
  | configure (settings : Settings)
  /-- Time passes, chance and the journal are replaced, or another poll is set. -/
  | outside (journal : Journal) (counters : Counters) (random : Generator)
      (terminate : Option (Nat → Bool)) (polls : Nat)

def Call.opensLevel : Call → Bool
  | pushLevel => true
  | _ => false

theorem Call.building (call : Call) :
    (∃ c, call = .addClause c) ∨ (∃ file, call = .readDimacs file) ∨
      (∀ c, call ≠ .addClause c) ∧ ∀ file, call ≠ .readDimacs file := by
  cases call <;> simp

namespace Solver

def followConsequences (s : Solver) : Solver :=
  match s.applyConsequences with
  | (.ok (.lesson lesson), s) =>
    match lesson.assertion? with
    | some (l, source) => (s.assign l source).2
    | none => s
  | (_, s) => s

def perform (s : Solver) : Call → Solver
  | .freshAtom => s.freshAtom.2
  | .ensureAtoms a => (s.ensureAtoms a).2
  | .addClause c => (s.addClause c).2
  | .readDimacs file => (s.readDimacs file).2
  | .solve passes => (s.solve passes).2
  | .takeDecision => s.takeDecision.2
  | .propagate => s.propagate.2
  | .propagateLiteral l => (s.propagateLiteral l).2
  | .analyse key => (s.analyse key).2
  | .applyConsequences => s.followConsequences
  | .pushLevel => s.pushLevel
  | .assign l source => (s.assign l source).2
  | .backjump n => s.backjump n
  | .clearDecisions => s.clearDecisions
  | .restart => s.restart
  | .raiseAtom a => s.raiseAtom a
  | .decayAtoms => s.decayAtoms
  | .configure settings => { s with settings }
  | .outside journal counters random terminate polls =>
    { s with journal, counters, random, terminate, polls }

def performAll (s : Solver) (calls : List Call) : Solver := calls.foldl perform s

def acceptedBy (s : Solver) : Call → List Clause
  | .addClause c => accepts c (s.addClause c).1
  | .readDimacs file => s.linesAccepted (Text.lines file)
  | _ => []

def acceptedByAll : Solver → List Call → List Clause
  | _, [] => []
  | s, call :: rest => s.acceptedBy call ++ acceptedByAll (s.perform call) rest

/-- Each call is allowed in the state that the calls before it leave. -/
def Allows (allowed : Solver → Call → Prop) : Solver → List Call → Prop
  | _, [] => True
  | s, call :: rest => allowed s call ∧ Allows allowed (s.perform call) rest

theorem Allows.keeps {allowed : Solver → Call → Prop} {holds : List Clause → Solver → Prop}
    (kept : ∀ formula s call, allowed s call → holds formula s →
      holds (formula ++ s.acceptedBy call) (s.perform call))
    {s : Solver} {calls : List Call} (allows : Allows allowed s calls) {formula : List Clause}
    (start : holds formula s) :
    holds (formula ++ s.acceptedByAll calls) (s.performAll calls) := by
  induction calls generalizing s formula with
  | nil => rwa [acceptedByAll, List.append_nil]
  | cons call rest ih =>
    have later := ih allows.2 (kept formula s call allows.1 start)
    rwa [List.append_assoc] at later

end Solver

end ClauseLearning
