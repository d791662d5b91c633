import ClauseLearning.Decimal.Layout
import ClauseLearning.Decimal.Reader
import ClauseLearning.Failure
import ClauseLearning.Settings.Basic

/-!
The written forms of the values of settings. Words are read in either case, and a reader refuses
whatever it does not know, with the name of the setting.
-/

namespace ClauseLearning

def readBool? (text : String) : Option Bool :=
  if text = "true" then some true else if text = "false" then some false else none

def boolText (b : Bool) : String := if b then "true" else "false"

/-- The word a text stands for. Only letters of the ASCII alphabet have two cases in the words of
settings. -/
def word (text : List Char) : String := String.ofList (text.map Char.toLower)

/-- The pieces between the separators of a text; there is always one more than separators. -/
def pieces (separator : Char) : List Char → List (List Char)
  | [] => [[]]
  | c :: rest =>
    if c = separator then [] :: pieces separator rest
    else
      match pieces separator rest with
      | [] => [[c]]
      | piece :: others => (c :: piece) :: others

namespace DecisionHeuristic

def text : DecisionHeuristic → String
  | activity => "activity"
  | fixedOrder => "fixed"

def detail : DecisionHeuristic → String
  | activity => "Activity"
  | fixedOrder => "FixedOrder"

def read (text : String) : Except Failure DecisionHeuristic :=
  match word text.toList with
  | "activity" | "vsids" => .ok activity
  | "fixed" | "fixed_order" => .ok fixedOrder
  | _ => .error (.settingValue "decision_heuristic")

end DecisionHeuristic

namespace ActivityRule

def text : ActivityRule → String
  | chaff => "Chaff"
  | minisat => "MiniSAT"

def read (text : String) : Except Failure ActivityRule :=
  match word text.toList with
  | "chaff" => .ok chaff
  | "minisat" => .ok minisat
  | _ => .error (.settingValue "vsids_variant")

end ActivityRule

namespace RestartPolicy

def text : RestartPolicy → String
  | off => "off"
  | geometric base factor =>
    "geometric:" ++ toString base ++ ":" ++ Decimal.Layout.plain.text factor
  | luby unit => "luby:" ++ toString unit

def detail : RestartPolicy → String
  | off => "Off"
  | geometric base factor =>
    "Geometric \x7b base: " ++ toString base ++ ", factor: "
      ++ Decimal.Layout.marked.text factor ++ " \x7d"
  | luby unit => "Luby \x7b unit: " ++ toString unit ++ " \x7d"

def maxCount : Nat := Nat.pow 2 32 - 1

/-- A geometric policy of a base and a factor; intervals must not shrink. -/
def geometric? (base : Option Nat) (factor : Option Float) : Option RestartPolicy :=
  match base, factor with
  | some base, some factor => if factor < 1.0 then none else some (geometric base factor)
  | _, _ => none

def ofPieces? : List (List Char) → Option RestartPolicy
  | [] => none
  | name :: numbers =>
    match word name, numbers with
    | "off", [] => some off
    | "luby", [] => some (luby 128)
    | "luby", [unit] => (Text.readNat? maxCount unit).map luby
    | "geometric", [] => geometric? (some 100) (some 1.5)
    | "geometric", [base] => geometric? (Text.readNat? maxCount base) (some 1.5)
    | "geometric", [base, factor] =>
      geometric? (Text.readNat? maxCount base) (Decimal.readFloat? factor)
    | _, _ => none

def read (text : String) : Except Failure RestartPolicy :=
  match ofPieces? (pieces ':' text.toList) with
  | some policy => .ok policy
  | none => .error (.settingValue "restart_policy")

def le : RestartPolicy → RestartPolicy → Bool
  | off, _ => true
  | geometric .., off => false
  | geometric base factor, geometric base' factor' =>
    base < base' || (base == base' && factor ≤ factor')
  | geometric .., luby _ => true
  | luby unit, luby unit' => unit ≤ unit'
  | luby _, _ => false

end RestartPolicy

end ClauseLearning
