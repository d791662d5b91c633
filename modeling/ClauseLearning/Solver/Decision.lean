import ClauseLearning.Solver.Basic

/-!
Decisions give an atom without a value one, at a level of its own. Which atom it is the order of
decisions says, or chance; its value is the last one it had, or chance again.
-/

namespace ClauseLearning.Solver

def takeUnvalued (s : Solver) : Option Atom × Solver :=
  let (a, atoms) := s.atoms.takeUnvalued
  (a, { s with atoms })

def drawUnvalued (s : Solver) : Option Atom × Solver :=
  let (a, random) := s.random.choose s.atoms.valuation.unvaluedAtoms
  (a, { s with random })

def chance (s : Solver) (p : Float) : Bool × Solver :=
  let (answer, random) := s.random.chance p
  (answer, { s with random })

def chooseAtom (s : Solver) : Option Atom × Solver :=
  if 0.0 < s.settings.randomDecisionBias then
    match s.chance s.settings.randomDecisionBias with
    | (true, s) => s.drawUnvalued
    | (false, s) => s.takeUnvalued
  else s.takeUnvalued

def choosePolarity (s : Solver) (a : Atom) : Bool × Solver :=
  if s.settings.phaseSaving then (s.atoms.phase a, s) else s.chance s.settings.polarityBias

def pushLevel (s : Solver) : Solver := { s with trail := s.trail.pushLevel }

def countDecision (s : Solver) : Solver :=
  { s with counters := { s.counters with decisions := s.counters.decisions + 1 } }

def decideOn (s : Solver) (l : Literal) : AssignStatus × Solver := s.pushLevel.assign l .decision

def takeDecision (s : Solver) : Option Literal × Solver :=
  match s.chooseAtom with
  | (none, s) => (none, s)
  | (some a, s) =>
    let (polarity, s) := s.choosePolarity a
    let l := Literal.ofAtom a polarity
    let s := s.countDecision.pushLevel
    let s := s.note .trace .decision fun _ =>
      "Decision " ++ l.text ++ " at level " ++ toString s.trail.level
    (some l, (s.assign l .decision).2)

end ClauseLearning.Solver
