import ClauseLearning.Solver.Backjump
import ClauseLearning.Solver.Storage

/-!
Building a formula: introducing atoms and adding clauses. Either takes the decisions of a search
back first, and what was found out before holds no longer, unless it is that there is no model.
-/

namespace ClauseLearning

inductive AddStatus where
  | added
  | tautology
  deriving DecidableEq, Repr

def Clause.normalise (c : Clause) : Clause := (c.mergeSort fun a b => decide (a ≤ b)).eraseReps

def Clause.checkAtoms (count : Nat) : Clause → Except Failure Unit
  | [] => .ok ()
  | l :: rest =>
    if l.natAbs = Atom.top then .error .topAtom
    else if count ≤ l.natAbs then .error (.unknownAtom l.natAbs)
    else checkAtoms count rest

namespace Solver

def prepare (s : Solver) : Solver :=
  let s := s.clearDecisions
  if s.status = .unsatisfiable then s else { s with status := .input }

def freshAtom (s : Solver) : Except Failure Atom × Solver :=
  let s := s.prepare
  match s.atoms.fresh with
  | (.error failure, atoms) => (.error failure, { s with atoms }.noteFailure failure)
  | (.ok a, atoms) => (.ok a, { s with atoms }.modifyWatches (·.grow a))

def freshOrMaxAtom (s : Solver) : Atom × Solver :=
  match s.freshAtom with
  | (.error _, s) => (Atom.max, s)
  | (.ok a, s) => (a, s)

def introduce : (count : Nat) → Solver → Except Failure Unit × Solver
  | 0, s => (.ok (), s)
  | count + 1, s =>
    match s.freshAtom with
    | (.error failure, s) => (.error failure, s)
    | (.ok _, s) => introduce count s

def ensureAtoms (s : Solver) (a : Atom) : Except Failure Unit × Solver :=
  introduce (a + 1 - s.atoms.size) s

def freshLiteral (s : Solver) : Except Failure Literal × Solver :=
  match s.freshAtom with
  | (.error failure, s) => (.error failure, s)
  | (.ok a, s) => (.ok (Literal.ofAtom a true), s)

def freshOrMaxLiteral (s : Solver) : Literal × Solver :=
  let (a, s) := s.freshOrMaxAtom
  (Literal.ofAtom a true, s)

def freshOrMaxLiterals : (count : Nat) → Solver → List Literal × Solver
  | 0, s => ([], s)
  | count + 1, s =>
    let (l, s) := s.freshOrMaxLiteral
    let (rest, s) := freshOrMaxLiterals count s
    (l :: rest, s)

def noteOccurrence (s : Solver) (l : Literal) : Solver :=
  { s with atoms := s.atoms.noteOccurrence l }

def seed (s : Solver) (c : Clause) : Solver :=
  if s.settings.occurrenceSeeding then c.foldl noteOccurrence s else s

/-- Adds a clause that is normal, has known atoms, and has no false literal. -/
def addReduced (s : Solver) (c : Clause) : Except Failure AddStatus × Solver :=
  match c with
  | [] =>
    let s := s.note .info .clauses fun _ => "Empty clause added"
    (.ok .added, { s with status := .unsatisfiable })
  | [l] =>
    match s.insert c .formula none with
    | (.error failure, s) => (.error failure, s)
    | (.ok key, s) => (.ok .added, (s.assign l (.unit key)).2)
  | _ =>
    match s.insert c .formula none with
    | (.error failure, s) => (.error failure, s)
    | (.ok _, s) => (.ok .added, s)

/-- Adds a clause to the formula. Repeated literals count once, and literals which the formula makes
false are left out of what is stored. -/
def addClause (s : Solver) (c : Clause) : Except Failure AddStatus × Solver :=
  let c := c.normalise
  if c.isTautology then
    (.ok .tautology, s.note .trace .clauses fun _ => "Skipped tautology " ++ c.text)
  else
    match c.checkAtoms s.atoms.size with
    | .error failure => (.error failure, s.noteFailure failure)
    | .ok () =>
      -- Only the values of level zero are left when literals are looked at.
      let s := (s.seed c).prepare
      let reduced := c.filter fun l => s.atoms.literalValue l != some false
      s.addReduced reduced

end Solver

end ClauseLearning
