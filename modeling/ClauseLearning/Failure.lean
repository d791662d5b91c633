import ClauseLearning.ClauseKey
import ClauseLearning.Journal
import ClauseLearning.Text.Quoted

/-!
The ways in which a step can fail. A failure is named for its cause and carries what its record in
the journal shows; its text names the part that failed and the kind of failure. A formula without a
model is no failure, and neither is a conflict.
-/

namespace ClauseLearning

inductive Failure where
  /-- A learned clause does not assert this literal. -/
  | noAssertion (literal : Literal)
  | atomsExhausted
  /-- The watch list of the literal holds a key without a clause. -/
  | deadWatch (literal : Literal) (key : ClauseKey)
  /-- The watch list of the literal holds the key of a clause that does not watch it. -/
  | strayWatch (literal : Literal) (key : ClauseKey)
  | unknownAtom (atom : Atom)
  | topAtom
  | unitKey
  | missingClause
  | missingAddition (index : Nat)
  | staleToken
  | unitToken
  | originalToken
  | unknownIndex
  | emptyClause
  | clauseLimit (limit : Nat)
  | tokensExhausted
  | originalKeys
  | additionKeys
  | missingWatch (literal : Literal) (key : ClauseKey)
  | missingWatchList
  | settingValue (name : String)
  | header
  | line (number : Nat)
  | misplacedHeader (number : Nat)
  | atomOutOfRange (line : Nat) (atom : Atom)
  | unreadable (reason : String)
  | lostClause (key : ClauseKey)
  /-- Resolution reached a literal that no clause implied, with others of its level left. -/
  | missingReason (literal : Literal) (pending : Nat)
  | exhaustedTrail
  | unvaluedLiteral (literal : Literal)
  | backjump (literal : Literal)
  deriving DecidableEq, Repr

namespace Failure

def text : Failure → String
  | noAssertion _ => "Analysis(NoAssertion)"
  | atomsExhausted => "AtomDB(AtomsExhausted)"
  | deadWatch .. | strayWatch .. => "BCP(CorruptWatch)"
  | unknownAtom a => "Build(UnknownAtom(" ++ toString a ++ "))"
  | topAtom => "Build(TopAtom)"
  | unitKey => "ClauseDB(GetUnitKey)"
  | missingClause | missingAddition _ => "ClauseDB(Missing)"
  | staleToken | unitToken | originalToken => "ClauseDB(InvalidKeyToken)"
  | unknownIndex => "ClauseDB(InvalidKeyIndex)"
  | emptyClause => "ClauseDB(EmptyClause)"
  | clauseLimit _ | tokensExhausted | originalKeys | additionKeys => "ClauseDB(StorageExhausted)"
  | missingWatch .. | missingWatchList => "ClauseDB(MissingWatch)"
  | settingValue name => "Config(Value(" ++ Text.quoted name ++ "))"
  | header => "Parse(ProblemSpecification)"
  | line n => "Parse(Line(" ++ toString n ++ "))"
  | misplacedHeader n => "Parse(MisplacedProblem(" ++ toString n ++ "))"
  | atomOutOfRange n a => "Parse(AtomOutOfRange(" ++ toString n ++ ", " ++ toString a ++ "))"
  | unreadable reason => "Parse(Io(" ++ Text.quoted reason ++ "))"
  | lostClause _ => "ResolutionBuffer(LostClause)"
  | missingReason .. => "ResolutionBuffer(MissingReason)"
  | exhaustedTrail => "ResolutionBuffer(ExhaustedTrail)"
  | unvaluedLiteral _ => "ResolutionBuffer(UnvaluedLiteral)"
  | backjump _ => "Backjump"

/-- The record a failure leaves in the journal when it arises. Failures which only answer a wrong
request leave none. -/
def record? : Failure → Option Record
  | noAssertion l => some ⟨.error, .analysis, "Learned clause does not assert " ++ l.text⟩
  | atomsExhausted => some ⟨.error, .valuation, "Atoms exhausted"⟩
  | deadWatch l key =>
    some ⟨.error, .propagation,
      "Watch list of " ++ l.text ++ " holds the dead key " ++ key.text⟩
  | strayWatch l key => some ⟨.error, .propagation, key.text ++ " is not watching " ++ l.text⟩
  | missingAddition index =>
    some ⟨.error, .reduction,
      "Missing addition " ++ toString index ++ " on the activity heap"⟩
  | unitToken => some ⟨.error, .clauses, "Unit keys have a unique token"⟩
  | originalToken => some ⟨.error, .clauses, "Original keys have a unique token"⟩
  | clauseLimit limit =>
    some ⟨.error, .clauses, "Clause limit of " ++ toString limit ++ " reached"⟩
  | originalKeys => some ⟨.error, .clauses, "Original keys exhausted"⟩
  | additionKeys => some ⟨.error, .clauses, "Addition keys exhausted"⟩
  | missingWatch l key => some ⟨.error, .clauses, "No watch of " ++ l.text ++ " by " ++ key.text⟩
  | lostClause key => some ⟨.error, .resolution, "Lost clause " ++ key.text⟩
  | missingReason l pending =>
    some ⟨.error, .resolution,
      "No reason for " ++ l.text ++ " with " ++ toString pending ++ " pending"⟩
  | exhaustedTrail => some ⟨.error, .resolution, "Trail exhausted without assertion"⟩
  | unvaluedLiteral l =>
    some ⟨.error, .resolution, "Unvalued literal " ++ l.text ++ " in resolution"⟩
  | backjump l => some ⟨.error, .backjump, l.text ++ " has no value"⟩
  | unknownAtom _ | topAtom | unitKey | missingClause | staleToken | unknownIndex | emptyClause
  | tokensExhausted | missingWatchList | settingValue _ | header | line _ | misplacedHeader _
  | atomOutOfRange .. | unreadable _ => none

end Failure

/-- The key of the next clause in the slot of `key`. Only slots of additions are used again. -/
def ClauseKey.renew : ClauseKey → Except Failure ClauseKey
  | originalUnit _ | additionUnit _ => .error .unitToken
  | original _ => .error .originalToken
  | addition i token =>
    if token < maxToken then .ok (addition i (token + 1)) else .error .tokensExhausted

end ClauseLearning
