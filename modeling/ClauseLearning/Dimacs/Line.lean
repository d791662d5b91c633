import ClauseLearning.Literal
import ClauseLearning.Text.Blank
import ClauseLearning.Text.Numeral

/-!
The lines of a DIMACS file, told apart by their first character that is not blank: comments, the
header, the end of the formula, and lines of literals.
-/

namespace ClauseLearning.Dimacs

def maxCount : Nat := Nat.pow 2 64 - 1

inductive Line where
  | blank
  | stop
  | header (words : List (List Char))
  | literals (words : List (List Char))
  deriving DecidableEq, Repr

def Line.ofText (text : List Char) : Line :=
  match Text.trimStart text with
  | [] => .blank
  | 'c' :: _ => .blank
  | '%' :: _ => .stop
  | 'p' :: rest => .header (Text.words ('p' :: rest))
  | rest => .literals (Text.words rest)

/-- The counts a header states, of atoms and of clauses. Words behind them mean nothing. -/
def readHeader? : List (List Char) → Option (Nat × Nat)
  | ['p'] :: ['c', 'n', 'f'] :: atoms :: clauses :: _ =>
    match Text.readNat? maxCount atoms, Text.readNat? maxCount clauses with
    | some atoms, some clauses => some (atoms, clauses)
    | _, _ => none
  | _ => none

def readLiteral? (word : List Char) : Option Literal :=
  Text.readInt? (-Nat.pow 2 31) (Nat.pow 2 31 - 1) word

end ClauseLearning.Dimacs
