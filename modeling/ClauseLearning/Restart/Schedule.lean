import ClauseLearning.Restart.Luby

/-!
Restart policies and the schedules that follow them. A schedule is told of each conflict, and
answers whether a restart is due.
-/

namespace ClauseLearning

inductive RestartPolicy where
  | off
  /-- After `base` conflicts, and then after `factor` times as many as before. -/
  | geometric (base : Nat) (factor : Float)
  /-- After `unit` times the next element of the Luby sequence. -/
  | luby (unit : Nat)
  deriving Repr, Inhabited

/-- The conflicts since the last restart, and how many of them make the next one due. -/
inductive RestartSchedule where
  | never
  | geometric (factor interval : Float) (count : Nat)
  | luby (unit : Nat) (place : Luby) (interval count : Nat)
  deriving Repr, Inhabited

namespace RestartSchedule

def maxInterval : Nat := Nat.pow 2 32 - 1

/-- The schedule that begins its next interval of `unit` times an element of the sequence. Where
the sequence has ended the interval is the longest. -/
def nextLuby (unit : Nat) (place : Luby) : RestartSchedule :=
  match place.next? with
  | some (v, place) => luby unit place (min (v.toNat * unit) maxInterval) 0
  | none => luby unit place maxInterval 0

/-- The schedule of a policy before any conflict. Intervals begin at one conflict at least and
never shrink. -/
def ofPolicy : RestartPolicy → RestartSchedule
  | .off => never
  | .geometric base factor =>
    geometric (if 1.0 < factor then factor else 1.0) (Float.ofNat (max base 1)) 0
  | .luby unit => nextLuby (max unit 1) {}

def conflict : RestartSchedule → Bool × RestartSchedule
  | never => (false, never)
  | geometric factor interval count =>
    if interval ≤ Float.ofNat (count + 1) then (true, geometric factor (interval * factor) 0)
    else (false, geometric factor interval (count + 1))
  | luby unit place interval count =>
    if interval ≤ count + 1 then (true, nextLuby unit place)
    else (false, luby unit place interval (count + 1))

end RestartSchedule

end ClauseLearning
