import ClauseLearning.Solver.Basic

/-!
What can be read off a solver: the model it found, and whether its state is as it should be.
-/

namespace ClauseLearning.Solver

def valuedLiterals (s : Solver) : List Literal :=
  s.atoms.valuation.pairs.map fun (a, value) => Literal.ofAtom a value

def valuationText (s : Solver) : String := Clause.text s.valuedLiterals

def model? (s : Solver) : Option (List Literal) :=
  if s.status = .satisfiable then
    s.atoms.valuation.atoms.mapM fun a => (s.value a).map (Literal.ofAtom a)
  else none

def satisfiesFormula (s : Solver) : Bool :=
  s.clauses.store.originalClauses.all (Clause.isTrue s.atoms.value)

def awaits (s : Solver) (a : Atom) : Bool :=
  s.trail.literals.any (·.natAbs == a) s.trail.head

/-- A watched literal may be false only if the other watched literal is true, if its consequences
are still to be drawn, or if the whole clause is false. -/
def watchIsSound (s : Solver) (c : WatchedClause) (this other : Literal) : Bool :=
  s.literalValue this != some false || s.literalValue other == some true || s.awaits this.natAbs
    || c.clause.isFalse s.atoms.value

def clauseIsWatched (s : Solver) (c : WatchedClause) : Bool :=
  c.first != c.second
    && (s.clauses.watches.watchers c.first).contains c.key
    && (s.clauses.watches.watchers c.second).contains c.key
    && s.watchIsSound c c.first c.second && s.watchIsSound c c.second c.first

def watchesAreSound (s : Solver) : Bool := s.clauses.store.longClauses.all s.clauseIsWatched

end ClauseLearning.Solver
