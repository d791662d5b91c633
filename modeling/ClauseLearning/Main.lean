import ClauseLearning.CommandLine.Session

/-!
The program: reads a formula from a file, searches for a model, and writes what it found.
-/

namespace ClauseLearning.CommandLine

/-- The number of an error of the system, which may come as its negative. -/
def errorNumber (code : UInt32) : Nat := min code.toNat (0 - code).toNat

def fileFailure : IO.Error → FileFailure
  | .noFileOrDirectory .. => .missing
  | .permissionDenied .. => .denied
  | .inappropriateType _ code _ => if errorNumber code = 21 then .isDirectory else .notDirectory
  | .invalidArgument file code details =>
    if errorNumber code = 36 then .nameTooLong
    else .other (toString (IO.Error.invalidArgument file code details))
  | failure => .other (toString failure)

def readBytes (path : String) : IO (Except FileFailure ByteArray) := do
  try
    return .ok (← IO.FS.readBinFile path)
  catch failure =>
    return .error (fileFailure failure)

/-- Goes on with a search that began at a time, which each of its passes sees. -/
partial def searchSince (began : Nat) (s : Solver) : IO (Except Failure Report × Solver) := do
  let now ← IO.monoNanosNow
  match { s with counters := { s.counters with elapsed := now - began } }.pass with
  | (.error failure, s) => return (.error failure, s)
  | (.ok .ongoing, s) => searchSince began s
  | (.ok .finished, s) => return (.ok s.report, s.conclude)

def search (s : Solver) : IO (Except Failure Report × Solver) := do
  if s.isSettled then return (.ok s.report, s)
  else searchSince (← IO.monoNanosNow) s.start

end ClauseLearning.CommandLine

open ClauseLearning.CommandLine

def main (arguments : List String) : IO UInt32 := do
  let opening := openSession arguments
  opening.lines.forM IO.println
  match opening.next with
  | .error code => return code.toUInt32
  | .ok request =>
    let loading := load request (← readBytes request.path)
    loading.lines.forM IO.println
    match loading.next with
    | .error code => return code.toUInt32
    | .ok solver =>
      let (outcome, solver) ← search solver
      let (lines, code) := finish request outcome solver
      lines.forM IO.println
      return code.toUInt32
