import ClauseLearning.Solver.Backjump
import ClauseLearning.Solver.Propagation
import ClauseLearning.Solver.Storage

/-!
Learning from conflicts. A clause whose literals are all false is resolved with the clauses that
made them so, going back along the trail, until one literal of the current level is left: the
first literal which every way from the decision to the conflict goes through. Literals of level
zero are left out, since the formula alone makes them false.
-/

namespace ClauseLearning

namespace ResolutionBuffer

/-- An empty buffer with room for `count` atoms. Only atoms which were used are marked. -/
def refresh (b : ResolutionBuffer) (count : Nat) : ResolutionBuffer :=
  let unmarked := b.used.foldl (fun merged a => merged.setIfInBounds a false) b.merged
  { merged := unmarked ++ Array.replicate (count - unmarked.size) false }

def isMerged (b : ResolutionBuffer) (a : Atom) : Bool := b.merged.getD a false

def add (b : ResolutionBuffer) (l : Literal) (ofCurrentLevel : Bool) : ResolutionBuffer :=
  { merged := b.merged.setIfInBounds l.natAbs true
    used := b.used.push l.natAbs
    settled := if ofCurrentLevel then b.settled else b.settled.push l
    pending := if ofCurrentLevel then b.pending + 1 else b.pending }

/-- Merges literals into the buffer, each atom once and those of level zero not at all. -/
def merge (level : Atom → Option Nat) (current : Nat) (b : ResolutionBuffer) :
    Clause → Except Failure Unit × ResolutionBuffer
  | [] => (.ok (), b)
  | l :: rest =>
    if b.isMerged l.natAbs then merge level current b rest
    else
      match level l.natAbs with
      | none => (.error (.unvaluedLiteral l), b)
      | some 0 => merge level current b rest
      | some n => merge level current (b.add l (n = current)) rest

end ResolutionBuffer

def Clause.firstHighest (level : Atom → Option Nat) (best highest i : Nat) : Clause → Nat
  | [] => best
  | l :: rest =>
    let n := (level l.natAbs).getD 0
    if highest < n then firstHighest level i n (i + 1) rest
    else firstHighest level best highest (i + 1) rest

def Clause.asserting (level : Atom → Option Nat) (l : Literal) (rest : Clause) : Clause :=
  let second := Clause.firstHighest level 1 0 1 rest
  ((l :: rest).toArray.swapIfInBounds 1 second).toList

inductive Lesson where
  | fundamentalConflict
  | unit (literal : Literal)
  | asserting (literal : Literal) (key : ClauseKey)
  deriving DecidableEq, Repr

inductive Consequences where
  | exhausted
  | lesson (lesson : Lesson)
  deriving DecidableEq, Repr

namespace Solver

def mergeClause (s : Solver) (key : ClauseKey) (current : Nat) : Except Failure Unit × Solver :=
  match s.clauses.store.clauseOf key with
  | .error _ => (.error (.lostClause key), s)
  | .ok c =>
    match s.buffer.merge s.atoms.level current c with
    | (.error failure, buffer) => (.error failure, { s with buffer })
    | (.ok (), buffer) => (.ok (), { s with buffer }.raiseClause key)

/-- Resolves along the first `n` literals of the trail, from the last of them on, until one literal
of the current level is left, and answers that one. -/
def resolveBack (current : Nat) : (n : Nat) → Solver → Except Failure Literal × Solver
  | 0, s => (.error .exhaustedTrail, s)
  | n + 1, s =>
    let l := s.trail.literals.getD n 0
    if s.buffer.isMerged l.natAbs && s.atoms.level l.natAbs == some current then
      let pending := s.buffer.pending - 1
      let s := { s with buffer := { s.buffer with pending } }
      if pending = 0 then (.ok l, s)
      else
        let s := s.note .trace .resolution fun _ => "Resolving on " ++ l.text
        match s.atoms.source l.natAbs with
        | some (.propagation reason) =>
          match s.mergeClause reason current with
          | (.error failure, s) => (.error failure, s)
          | (.ok (), s) => resolveBack current n s
        | _ => (.error (.missingReason l pending), s)
    else resolveBack current n s

def takeSettled (s : Solver) : Clause × Solver :=
  (s.buffer.settled.toList, { s with buffer := { s.buffer with settled := #[] } })

def derive (s : Solver) (key : ClauseKey) : Except Failure Clause × Solver :=
  let current := s.trail.level
  let s := { s with buffer := s.buffer.refresh s.atoms.size }
  match s.mergeClause key current with
  | (.error failure, s) => (.error failure, s.noteFailure failure)
  | (.ok (), s) =>
    match resolveBack current s.trail.literals.size s with
    | (.error failure, s) => (.error failure, s.noteFailure failure)
    | (.ok uip, s) =>
      let (settled, s) := s.takeSettled
      let c := Clause.asserting s.atoms.level (-uip) settled
      (.ok c, s.note .trace .resolution fun _ => "Derived " ++ c.text)

def raiseAtom (s : Solver) (a : Atom) : Solver := { s with atoms := s.atoms.raise a }

def decayAtoms (s : Solver) : Solver := { s with atoms := s.atoms.decay }

def rewardAtoms (s : Solver) (c : Clause) : Solver :=
  let atoms := match s.settings.activityRule with
    | .minisat => s.buffer.used.toList
    | .chaff => c.atoms
  (atoms.foldl raiseAtom s).decayAtoms.decayClauses

/-- Goes back to where a derived clause asserts its first literal, and stores it there. -/
def learn (s : Solver) (c : Clause) : Except Failure Lesson × Solver :=
  match c with
  | [] => (.error .emptyClause, s.noteFailure .emptyClause)
  | [l] =>
    match (s.backjump 0).insert c .resolution none with
    | (.error failure, s) => (.error failure, s)
    | (.ok _, s) => (.ok (.unit l), s)
  | l :: _ =>
    match s.assertionLevel c with
    | (.error failure, s) => (.error failure, s)
    | (.ok level, s) =>
      let blockDistance := c.blockDistance s.atoms.level
      match (s.backjump level).insert c .resolution (some blockDistance) with
      | (.error failure, s) => (.error failure, s)
      | (.ok key, s) => (.ok (.asserting l key), s)

/-- Analyses a conflict, a key to a clause whose literals are all false. The literal a lesson
asserts is left without a value. -/
def analyse (s : Solver) (key : ClauseKey) : Except Failure Lesson × Solver :=
  if s.trail.hasDecision then
    let s := s.note .trace .analysis fun _ =>
      "Analysis of " ++ key.text ++ " at level " ++ toString s.trail.level
    match s.derive key with
    | (.error failure, s) => (.error failure, s)
    | (.ok c, s) =>
      let s := s.rewardAtoms c
      let s := s.note .trace .analysis fun _ => "Learned " ++ c.text
      s.learn c
  else
    (.ok .fundamentalConflict, s.note .info .analysis fun _ =>
      "Conflict on " ++ key.text ++ " without a decision")

def countConflict (s : Solver) : Solver :=
  { s with
    counters :=
      { s.counters with
        conflicts := s.counters.conflicts + 1
        freshConflicts := s.counters.freshConflicts + 1 } }

def applyConsequences (s : Solver) : Except Failure Consequences × Solver :=
  match s.propagate with
  | (.error failure, s) => (.error failure, s)
  | (.ok .complete, s) => (.ok .exhausted, s)
  | (.ok (.conflict key), s) =>
    match s.countConflict.analyse key with
    | (.error failure, s) => (.error failure, s)
    | (.ok lesson, s) => (.ok (.lesson lesson), s)

end Solver

end ClauseLearning
