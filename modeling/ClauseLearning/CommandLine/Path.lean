import ClauseLearning.Settings.Text

/-!
Paths of files, as far as they tell whether a file is compressed.
-/

namespace ClauseLearning.CommandLine

def fileName? (path : String) : Option (List Char) :=
  let names := (pieces '/' path.toList).filter fun name => name ≠ [] ∧ name ≠ ['.']
  names.getLast?.filter (· ≠ ['.', '.'])

/-- What stands behind the last dot of a name. A dot in front of the name is part of it. -/
def extension? (name : List Char) : Option (List Char) :=
  match pieces '.' name with
  | [] | [_] | [[], _] => none
  | parts => parts.getLast?

def isCompressed (path : String) : Bool :=
  (fileName? path).bind extension? == some ['x', 'z']

end ClauseLearning.CommandLine
