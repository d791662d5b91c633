import ClauseLearning.Settings.Text

/-!
Settings by name. A parameter is a setting with the form and the bounds of its values; a text sets
it if it is read as a value, and the value is within the bounds.
-/

namespace ClauseLearning

structure ValueForm (α : Type) where
  read? : String → Option α
  text : α → String
  le : α → α → Bool

namespace ValueForm

def float : ValueForm Float :=
  ⟨fun t => Decimal.readFloat? t.toList, Decimal.Layout.plain.text, fun a b => a ≤ b⟩

def natural (width : Nat) : ValueForm Nat :=
  ⟨fun t => Text.readNat? (Nat.pow 2 width - 1) t.toList, toString, fun a b => a ≤ b⟩

def bool : ValueForm Bool := ⟨readBool?, boolText, fun a b => !a || b⟩

def heuristic : ValueForm DecisionHeuristic :=
  ⟨fun t => (DecisionHeuristic.read t).toOption, DecisionHeuristic.text,
    fun a b => a = .activity || b = .fixedOrder⟩

def activityRule : ValueForm ActivityRule :=
  ⟨fun t => (ActivityRule.read t).toOption, ActivityRule.text,
    fun a b => a = .chaff || b = .minisat⟩

def restartPolicy : ValueForm RestartPolicy :=
  ⟨fun t => (RestartPolicy.read t).toOption, RestartPolicy.text, RestartPolicy.le⟩

end ValueForm

structure Parameter where
  name : String
  Value : Type
  form : ValueForm Value
  least : Value
  greatest : Value
  get : Settings → Value
  set : Settings → Value → Settings

namespace Parameter

def admits (p : Parameter) (value : p.Value) : Bool :=
  p.form.le p.least value && p.form.le value p.greatest

def assign? (p : Parameter) (s : Settings) (value : p.Value) : Option Settings :=
  if p.admits value then some (p.set s value) else none

def assignText? (p : Parameter) (s : Settings) (text : String) : Option Settings :=
  (p.form.read? text).bind (p.assign? s)

def shown (p : Parameter) (s : Settings) : String := p.form.text (p.get s)

def upTo (name : String) (greatest : Float) (get : Settings → Float)
    (set : Settings → Float → Settings) : Parameter :=
  ⟨name, Float, .float, 0.0, greatest, get, set⟩

def counted (name : String) (width greatest : Nat) (get : Settings → Nat)
    (set : Settings → Nat → Settings) : Parameter :=
  ⟨name, Nat, .natural width, 0, greatest, get, set⟩

def flag (name : String) (get : Settings → Bool) (set : Settings → Bool → Settings) :
    Parameter :=
  ⟨name, Bool, .bool, false, true, get, set⟩

/-- The settings which have values of this form; the time limit is not one of them. -/
def all : List Parameter :=
  [ upTo "atom_bump" 1e50 (·.atomBump) fun s v => { s with atomBump := v },
    upTo "atom_decay" 0.5 (·.atomDecay) fun s v => { s with atomDecay := v },
    upTo "clause_bump" 1e50 (·.clauseBump) fun s v => { s with clauseBump := v },
    upTo "clause_decay" 0.5 (·.clauseDecay) fun s v => { s with clauseDecay := v },
    counted "lbd_bound" 8 (Nat.pow 2 8 - 1) (·.blockDistanceBound)
      fun s v => { s with blockDistanceBound := v },
    counted "clause_limit" 64 (Nat.pow 2 32 - 1) (·.clauseLimit)
      fun s v => { s with clauseLimit := v },
    counted "conflict_limit" 64 (Nat.pow 2 64 - 1) (·.conflictLimit)
      fun s v => { s with conflictLimit := v },
    ⟨"decision_heuristic", DecisionHeuristic, .heuristic, .activity, .fixedOrder,
      (·.decisionHeuristic), fun s v => { s with decisionHeuristic := v }⟩,
    flag "occurrence_seeding" (·.occurrenceSeeding) fun s v => { s with occurrenceSeeding := v },
    flag "phase_saving" (·.phaseSaving) fun s v => { s with phaseSaving := v },
    upTo "polarity_lean" 1.0 (·.polarityBias) fun s v => { s with polarityBias := v },
    upTo "random_decision_bias" 1.0 (·.randomDecisionBias)
      fun s v => { s with randomDecisionBias := v },
    counted "reduction_interval" 32 (Nat.pow 2 32 - 1) (·.reductionInterval)
      fun s v => { s with reductionInterval := v },
    upTo "reduction_ratio" 1.0 (·.reductionRatio) fun s v => { s with reductionRatio := v },
    ⟨"restart_policy", RestartPolicy, .restartPolicy, .off, .luby RestartPolicy.maxCount,
      (·.restartPolicy), fun s v => { s with restartPolicy := v }⟩,
    counted "seed" 64 (Nat.pow 2 64 - 1) (·.seed) fun s v => { s with seed := v },
    ⟨"vsids_variant", ActivityRule, .activityRule, .chaff, .minisat,
      (·.activityRule), fun s v => { s with activityRule := v }⟩ ]

def find? (name : String) : Option Parameter := all.find? (·.name == name)

theorem get_set : ∀ p ∈ all, ∀ s v, p.get (p.set s v) = v := by
  simp [all, upTo, counted, flag]

theorem get_set_other : ∀ p ∈ all, ∀ q ∈ all, q = p ∨ ∀ s v, q.get (p.set s v) = q.get s := by
  simp [all, upTo, counted, flag]

end Parameter

namespace Settings

def WithinBounds (s : Settings) : Prop := ∀ p ∈ Parameter.all, p.admits (p.get s) = true

instance (s : Settings) : Decidable s.WithinBounds :=
  inferInstanceAs (Decidable (∀ p ∈ Parameter.all, p.admits (p.get s) = true))

theorem withinBounds_default : WithinBounds {} := by decide +kernel

theorem WithinBounds.assign {s s' : Settings} (bounds : s.WithinBounds) {p : Parameter}
    (member : p ∈ Parameter.all) {value : p.Value} (answer : p.assign? s value = some s') :
    s'.WithinBounds := by
  unfold Parameter.assign? at answer
  split at answer
  · rename_i admitted
    cases answer
    intro q member'
    rcases Parameter.get_set_other p member q member' with rfl | same
    · rw [Parameter.get_set q member]
      exact admitted
    · rw [same]
      exact bounds q member'
  · cases answer

end Settings

end ClauseLearning
