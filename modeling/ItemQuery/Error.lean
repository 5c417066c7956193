import ItemQuery.Predicate.Kind
import ItemQuery.Marshal

/-!
What can go wrong while a request is put together, and the message for each cause.
-/

namespace ItemQuery

/-- Why an operand does not suit a kind of predicate. -/
inductive OperandMismatch
  | wrongShape (found : OperandShape)
  | emptyCollection
deriving DecidableEq

/-- Why a configuration is refused. -/
inductive ConfigError
  | unknownStrategy (name : String)
  | emptyStem
  | invalidStem (stem : String)
deriving DecidableEq

def ConfigError.message : ConfigError → String
  | .unknownStrategy name => "unknown placeholder strategy: " ++ name
  | .emptyStem => "placeholder prefix must not be empty"
  | .invalidStem stem =>
      "placeholder prefix " ++ quoted stem ++ " may only contain ASCII letters, digits and '_'"

inductive QueryError
  /-- No kind of predicate has this name. -/
  | unknownKind (name : String)
  /-- A verb or a connective that does not exist, or that cannot be used here. -/
  | unsupported (name : String)
  /-- An operand that a predicate of this kind cannot take. -/
  | operand (kind : PredicateKind) (mismatch : OperandMismatch)
  /-- An embedded filter would reuse a token of the request. -/
  | collision (token : String)
  | config (error : ConfigError)
  | marshal (error : MarshalError)
  /-- The body of a request is not an input of the wanted type. -/
  | notAnInput
  /-- An operand given as JSON is not of the form that its type has. -/
  | malformed
deriving DecidableEq

def OperandMismatch.message (shape : OperandShape) : OperandMismatch → String
  | .wrongShape found =>
      "expected " ++ shape.description ++ ", found " ++ found.description
  | .emptyCollection => "expected a non-empty collection operand, found an empty collection"

def QueryError.message : QueryError → String
  | .unknownKind name => "unknown predicate kind: " ++ name
  | .unsupported name => "unsupported operation: " ++ name
  | .operand kind mismatch =>
      "invalid operand for " ++ kind.name ++ ": " ++ mismatch.message kind.shape
  | .collision token => "placeholder " ++ token ++ " is already bound in this request"
  | .config error => "configuration error: " ++ error.message
  | .marshal error => error.message
  | .notAnInput => "failed to convert request"
  | .malformed => "malformed operand"

end ItemQuery
