import ClauseLearning.Settings.Parameter

/-!
The arguments of the command line: options, each a name behind two dashes and for most of them a
value behind an equals sign, and then the path of a formula.
-/

namespace ClauseLearning.CommandLine

structure Request where
  path : String
  settings : Settings
  model : Bool
  counters : Bool

inductive ArgumentFailure where
  | pathRequired
  | outOfBounds (name least greatest : String)
  | notSeconds (name : String)
  | unrecognised (argument : String)
  deriving DecidableEq, Repr

def ArgumentFailure.message : ArgumentFailure → String
  | pathRequired => "Path to CNF required"
  | outOfBounds name least greatest =>
    name ++ " requires a value between " ++ least ++ " and " ++ greatest
  | notSeconds name => name ++ " requires a count of seconds"
  | unrecognised argument => "Unrecognised argument: " ++ argument

/-- The options read so far, with the lines they make the program write, latest first. -/
structure Options where
  settings : Settings := {}
  model : Bool := false
  counters : Bool := false
  lines : List String := []

namespace Options

def say (o : Options) (line : String) : Options := { o with lines := line :: o.lines }

def cut (argument : String) : String × Option String :=
  let name := argument.toList.takeWhile (· ≠ '=')
  match argument.toList.dropWhile (· ≠ '=') with
  | [] => (String.ofList name, none)
  | _ :: value => (String.ofList name, some (String.ofList value))

def optionName? (name : String) : Option String :=
  match name.toList with
  | '-' :: '-' :: rest => some (String.ofList rest)
  | _ => none

def setParameter (o : Options) (p : Parameter) (value : Option String) :
    Except ArgumentFailure Options :=
  match value.bind p.form.read? with
  | none => .error (.outOfBounds p.name (p.form.text p.least) (p.form.text p.greatest))
  | some value =>
    match p.assign? o.settings value with
    | none => .error (.outOfBounds p.name (p.form.text p.least) (p.form.text p.greatest))
    | some settings =>
      .ok ({ o with settings }.say ("c " ++ p.name ++ " set to: " ++ p.form.text value))

def setTimeLimit (o : Options) (value : Option String) : Except ArgumentFailure Options :=
  match value.bind fun text => Text.readNat? (Nat.pow 2 64 - 1) text.toList with
  | none => .error (.notSeconds "time_limit")
  | some seconds =>
    .ok ({ o with settings := { o.settings with timeLimit := seconds } }.say
      ("c time_limit set to: " ++ toString seconds ++ "s"))

def read (o : Options) (argument : String) : Except ArgumentFailure Options :=
  let (name, value) := cut argument
  match optionName? name with
  | none => .error (.unrecognised argument)
  | some name =>
    if name = "model" ∨ name = "valuation" then
      .ok ({ o with model := true }.say "c A model will be written, if one exists.")
    else if name = "stats" then .ok { o with counters := true }
    else if name = "time_limit" then o.setTimeLimit value
    else
      match Parameter.find? name with
      | some p => o.setParameter p value
      | none => .error (.unrecognised argument)

def readAll (o : Options) : List String → Except ArgumentFailure Unit × Options
  | [] => (.ok (), o)
  | argument :: rest =>
    match o.read argument with
    | .error failure => (.error failure, o)
    | .ok o => readAll o rest

end Options

def readArguments (arguments : List String) : List String × Except ArgumentFailure Request :=
  match arguments.getLast? with
  | none => ([], .error .pathRequired)
  | some path =>
    if path.startsWith "--" then ([], .error .pathRequired)
    else
      match Options.readAll {} arguments.dropLast with
      | (.error failure, o) => (o.lines.reverse, .error failure)
      | (.ok (), o) => (o.lines.reverse, .ok ⟨path, o.settings, o.model, o.counters⟩)

end ClauseLearning.CommandLine
