import ClauseLearning.Literal

/-!
Keys of stored clauses. The key of a unit clause is its literal; the key of a longer clause is
the number of the slot it is stored in, for learned clauses with a token that tells the successive
clauses of one slot apart.
-/

namespace ClauseLearning

/-- A key to a clause. Additions are clauses added by the search, the others are the formula's.
Keys are ordered as they are listed here. -/
inductive ClauseKey where
  | originalUnit (literal : Literal)
  | additionUnit (literal : Literal)
  | original (index : Nat)
  | addition (index : Nat) (token : Nat)
  deriving DecidableEq, Repr, Ord, Inhabited

namespace ClauseKey

/-- Tokens are 16 bits wide, so a slot is given up after this one. -/
def maxToken : Nat := Nat.pow 2 16 - 1

/-- Indices are 32 bits wide. -/
def maxIndex : Nat := Nat.pow 2 32 - 1

def index : ClauseKey → Nat
  | originalUnit l | additionUnit l => l.natAbs
  | original i | addition i _ => i

def isAddition : ClauseKey → Bool
  | additionUnit _ | addition _ _ => true
  | originalUnit _ | original _ => false

def text : ClauseKey → String
  | originalUnit l => "OriginalUnit(" ++ l.text ++ ")"
  | additionUnit l => "AdditionUnit(" ++ l.text ++ ")"
  | original i => "Original(" ++ toString i ++ ")"
  | addition i token => "Addition(" ++ toString i ++ ", " ++ toString token ++ ")"

end ClauseKey

end ClauseLearning
