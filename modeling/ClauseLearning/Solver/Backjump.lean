import ClauseLearning.Solver.Basic

/-!
Backjumps take the values of all levels above a target back. The target for a clause whose
literals are all false is the second highest of their levels: there the clause asserts the literal
of the highest, and at no lower level it does.
-/

namespace ClauseLearning

def Clause.secondLevelFrom (level : Atom → Option Nat) :
    (second top : Nat) → Clause → Except Failure Nat
  | second, _, [] => .ok second
  | second, top, l :: rest =>
    match level l.natAbs with
    | none => .error (.backjump l)
    | some n =>
      if top < n then secondLevelFrom level top n rest
      else secondLevelFrom level (max second n) top rest

def Clause.assertionLevel (level : Atom → Option Nat) (c : Clause) : Except Failure Nat :=
  if c.length < 2 then .ok 0 else c.secondLevelFrom level 0 0

namespace Solver

def unassign (s : Solver) (l : Literal) : Solver :=
  let s := s.note .trace .valuation fun _ => "Cleared atom: " ++ toString l.natAbs
  { s with atoms := s.atoms.unassign l.natAbs }

def backjump (s : Solver) (target : Nat) : Solver :=
  if s.trail.level ≤ target then s
  else
    let s := s.note .trace .backjump fun _ =>
      "Backjump from " ++ toString s.trail.level ++ " to " ++ toString target
    let cleared := s.trail.above target
    cleared.foldl unassign { s with trail := s.trail.cut target }

def clearDecisions (s : Solver) : Solver := s.backjump 0

def assertionLevel (s : Solver) (c : Clause) : Except Failure Nat × Solver :=
  let level := c.assertionLevel s.atoms.level
  (level, s.noteError level)

end Solver

end ClauseLearning
