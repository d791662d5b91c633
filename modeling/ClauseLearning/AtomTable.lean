import ClauseLearning.ClauseKey
import ClauseLearning.DecisionOrder
import ClauseLearning.Failure
import ClauseLearning.Valuation

/-!
What is known of each atom: its assignment if it has one, the value it is given when it is decided
next, and how often either of its literals occurs in the formula. The order of decisions is kept
beside, and hears of every atom that is introduced or loses its value.
-/

namespace ClauseLearning

/-- Why an atom has its value. -/
inductive Source where
  | decision
  | propagation (key : ClauseKey)
  | unit (key : ClauseKey)
  deriving DecidableEq, Repr

def Source.text : Source → String
  | decision => "Decision"
  | propagation key => "BCP(" ++ key.text ++ ")"
  | unit key => "Unit(" ++ key.text ++ ")"

/-- The value of an atom, the level at which it got it, and why. The constant true has no source. -/
structure Assignment where
  value : Bool
  level : Nat
  source : Option Source
  deriving DecidableEq, Repr

structure AtomState where
  assignment : Option Assignment := none
  /-- The last value that was taken back, or the polarity with more occurrences. -/
  phase : Bool := false
  negatives : Nat := 0
  positives : Nat := 0
  deriving DecidableEq, Repr

inductive AssignStatus where
  | assigned
  | same
  | different
  deriving DecidableEq, Repr

structure AtomTable where
  /-- The atoms by number, first the constant true. -/
  atoms : Array AtomState
  order : DecisionOrder

namespace AtomTable

def new (order : DecisionOrder) : AtomTable :=
  ⟨#[{ assignment := some ⟨true, 0, none⟩, phase := true }], order⟩

def size (t : AtomTable) : Nat := t.atoms.size

@[inline]
def assignment? (t : AtomTable) (a : Atom) : Option Assignment :=
  match t.atoms[a]? with
  | none => none
  | some state => state.assignment

@[inline]
def value (t : AtomTable) (a : Atom) : Option Bool :=
  match t.assignment? a with
  | none => none
  | some assignment => some assignment.value

@[inline]
def level (t : AtomTable) (a : Atom) : Option Nat :=
  match t.assignment? a with
  | none => none
  | some assignment => some assignment.level

@[inline]
def source (t : AtomTable) (a : Atom) : Option Source :=
  match t.assignment? a with
  | none => none
  | some assignment => assignment.source

@[inline]
def literalValue (t : AtomTable) (l : Literal) : Option Bool := l.value t.value

def phase (t : AtomTable) (a : Atom) : Bool :=
  match t.atoms[a]? with
  | none => false
  | some state => state.phase

def occurrences (t : AtomTable) (a : Atom) : Nat × Nat :=
  match t.atoms[a]? with
  | none => (0, 0)
  | some state => (state.negatives, state.positives)

def valuation (t : AtomTable) : Valuation := t.atoms.map fun state => state.assignment.map (·.value)

def unvaluedCount (t : AtomTable) : Nat := t.atoms.countP fun state => state.assignment.isNone

def fresh (t : AtomTable) : Except Failure Atom × AtomTable :=
  let a := t.size
  if a ≤ Atom.max then (.ok a, ⟨t.atoms.push {}, t.order.add a⟩) else (.error .atomsExhausted, t)

def assign (t : AtomTable) (l : Literal) (level : Nat) (source : Source) :
    AssignStatus × AtomTable :=
  match t.atoms[l.natAbs]? with
  | none => (.different, t)
  | some state =>
    match state.assignment with
    | none =>
      let state := { state with assignment := some ⟨l.polarity, level, some source⟩ }
      (.assigned, { t with atoms := t.atoms.setIfInBounds l.natAbs state })
    | some assignment => (if assignment.value = l.polarity then .same else .different, t)

theorem unvaluedCount_assign {t t' : AtomTable} {l : Literal} {level : Nat} {source : Source}
    (assigned : t.assign l level source = (.assigned, t')) :
    t'.unvaluedCount + 1 = t.unvaluedCount := by
  unfold assign at assigned
  split at assigned
  · simp at assigned
  · rename_i state found
    split at assigned
    · rename_i unvalued
      obtain ⟨inside, rfl⟩ := Array.getElem?_eq_some_iff.1 found
      simp only [Prod.mk.injEq, true_and] at assigned
      subst assigned
      have positive : 0 < t.unvaluedCount :=
        Array.countP_pos_iff.2 ⟨_, Array.getElem_mem inside, by simp [unvalued]⟩
      simp only [unvaluedCount] at positive ⊢
      rw [Array.setIfInBounds_def, dif_pos inside, Array.countP_set]
      simp only [unvalued, Option.isNone_none, if_true, Option.isNone_some, Bool.false_eq_true,
        if_false]
      omega
    · simp only [Prod.mk.injEq] at assigned
      split at assigned <;> simp at assigned

theorem assign_of_status {t t' : AtomTable} {l : Literal} {level : Nat} {source : Source}
    {status : AssignStatus} (answer : t.assign l level source = (status, t'))
    (notAssigned : status ≠ .assigned) : t' = t := by
  unfold assign at answer
  split at answer
  · simp_all
  · split at answer
    · simp_all
    · simp_all

def unassign (t : AtomTable) (a : Atom) : AtomTable :=
  ⟨t.atoms.modify a fun state =>
      { state with
        assignment := none
        phase := (state.assignment.map (·.value)).getD state.phase },
    t.order.release a⟩

def isOpen (atoms : Array AtomState) (a : Atom) : Bool :=
  match atoms[a]? with
  | none => false
  | some state => state.assignment.isNone

def takeUnvalued : AtomTable → Option Atom × AtomTable
  | ⟨atoms, order⟩ =>
    let (a, order) := order.take (isOpen atoms) atoms.size
    (a, ⟨atoms, order⟩)

def raise (t : AtomTable) (a : Atom) : AtomTable :=
  if a = Atom.top then t else { t with order := t.order.raise a }

def decay (t : AtomTable) : AtomTable := { t with order := t.order.decay }

def activity (t : AtomTable) (a : Atom) : Activity := t.order.activity a

/-- Counts an occurrence of a literal in the formula. The phase of its atom becomes the polarity
with more of them, and its activity grows. -/
def noteOccurrence (t : AtomTable) (l : Literal) : AtomTable :=
  let a := l.natAbs
  if a < t.size then
    let atoms := t.atoms.modify a fun state =>
      let positives := if l.polarity then state.positives + 1 else state.positives
      let negatives := if l.polarity then state.negatives else state.negatives + 1
      { state with positives, negatives, phase := decide (negatives < positives) }
    raise { t with atoms } a
  else t

end AtomTable

end ClauseLearning
