import ClauseLearning.Settings.Text

/-!
Files by path, and why one cannot be read. A session asks for the bytes of a path and does not care
where they are kept; here they are kept in memory, on a disk of their own.
-/

namespace ClauseLearning.CommandLine

inductive FileFailure where
  | missing
  | denied
  | notDirectory
  | isDirectory
  | nameTooLong
  | other (reason : String)
  deriving DecidableEq, Repr

namespace FileFailure

def text : FileFailure → String
  | missing => "No such file or directory (os error 2)"
  | denied => "Permission denied (os error 13)"
  | notDirectory => "Not a directory (os error 20)"
  | isDirectory => "Is a directory (os error 21)"
  | nameTooLong => "File name too long (os error 36)"
  | other reason => reason

def opens (failure : FileFailure) : Bool := failure == isDirectory

end FileFailure

abbrev Place := List (List Char)

structure Disk where
  files : List (Place × ByteArray) := []
  start : Place := []

namespace Disk

inductive Entry where
  | file (bytes : ByteArray)
  | directory

/-- What is at a place. The places on the way to a file are directories. -/
def entry? (d : Disk) (place : Place) : Option Entry :=
  match d.files.lookup place with
  | some bytes => some (.file bytes)
  | none =>
    if (d.start :: d.files.map Prod.fst).any place.isPrefixOf then some .directory else none

/-- Goes on from a place by one name of a path. Nothing and a single point name the place itself,
two points the directory around it. -/
def follow (d : Disk) (place : Place) (name : List Char) : Except FileFailure Place :=
  match d.entry? place with
  | some .directory =>
    if name = [] ∨ name = ['.'] then .ok place
    else if name = ['.', '.'] then .ok place.dropLast
    else if 255 < (String.ofList name).utf8ByteSize then .error .nameTooLong
    else if (d.entry? (place ++ [name])).isSome then .ok (place ++ [name])
    else .error .missing
  | _ => .error .notDirectory

def origin (d : Disk) (path : String) : Place := if path.startsWith "/" then [] else d.start

def read (d : Disk) (path : String) : Except FileFailure ByteArray :=
  if path.isEmpty then .error .missing
  else if 4095 < path.utf8ByteSize then .error .nameTooLong
  else
    match (pieces '/' path.toList).foldlM d.follow (d.origin path) with
    | .error failure => .error failure
    | .ok place =>
      match d.entry? place with
      | some (.file bytes) => .ok bytes
      | _ => .error .isDirectory

def write (d : Disk) (path : String) (bytes : ByteArray) : Disk :=
  let names := (pieces '/' path.toList).filter fun name => name ≠ [] ∧ name ≠ ['.']
  { d with files := (d.origin path ++ names, bytes) :: d.files }

end Disk

end ClauseLearning.CommandLine
