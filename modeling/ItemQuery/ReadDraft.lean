import ItemQuery.Binder
import ItemQuery.Verb
import ItemQuery.Request

/-!
Drafts of reads: a scan or a query that is being put together.

A draft collects the entries of its filter, and a query also those of its key condition. The filter
only ever grows at its end. A filter can take in that of another draft as a fragment (`embed`), a
whole condition as a group (`nest`), or what a script does to a branch of the draft (`group`).
Compiling a draft takes a snapshot and leaves the draft as it is.
-/

namespace ItemQuery

/-- The two reads. A query also has a condition on the key, and may say in which order of the keys
it wants the items. -/
inductive ReadTarget
  | scan
  | query (keyCondition : Condition) (forward : Option Bool)
deriving DecidableEq

namespace ReadTarget

/-- The same read with nothing said about keys. -/
def blank : ReadTarget → ReadTarget
  | .scan => .scan
  | .query _ _ => .query .empty none

/-- The values bound by the key condition, under their tokens. -/
def tokenValues : ReadTarget → List (String × AttributeValue)
  | .scan => []
  | .query keyCondition _ => keyCondition.tokenValues

end ReadTarget

structure ReadDraft where
  tableName : String
  indexName : Option String
  binder : Binder
  target : ReadTarget
  filter : Condition
  attributeNames : Dictionary String
  projection : Option String
  limit : Option Int32
  select : Option Select
  consistentRead : Option Bool
  startKey : Item
deriving DecidableEq

namespace ReadDraft

/-- A draft about which nothing has been said but its table. -/
def start (target : ReadTarget) (tableName : String) (binder : Binder) : ReadDraft where
  tableName
  indexName := none
  binder
  target := target.blank
  filter := .empty
  attributeNames := .empty
  projection := none
  limit := none
  select := none
  consistentRead := none
  startKey := .empty

def scan (tableName : String) (binder : Binder) : ReadDraft := start .scan tableName binder

def query (tableName : String) (binder : Binder) : ReadDraft :=
  start (.query .empty none) tableName binder

/-- An empty draft of the same read on the same table and index, which draws from the same mint. -/
def branch (draft : ReadDraft) : ReadDraft :=
  { start draft.target draft.tableName draft.binder with indexName := draft.indexName }

/-- The values bound by the key condition and the filter, under their tokens. -/
def boundValues (draft : ReadDraft) : Bindings :=
  Dictionary.ofList (draft.target.tokenValues ++ draft.filter.tokenValues)

/-! ## Growing the filter -/

def push (draft : ReadDraft) (entry : Entry) : ReadDraft :=
  { draft with filter := draft.filter.push entry }

/-- Append a predicate. -/
def restrict (draft : ReadDraft) (connective : Connective) (kind : PredicateKind) (key : String)
    (operand : Operand) : Draw ReadDraft := do
  let predicate ← draft.binder.predicate kind key operand connective
  return draft.push (.predicate predicate)

/-- Append a predicate that a verb names. -/
def call (draft : ReadDraft) (verbName key : String) (operand : Operand) : Draw ReadDraft := do
  let verb ← Draw.ofExcept (Verb.ofName verbName)
  draft.restrict verb.connective verb.kind key operand

/-- Append a predicate that is given as data. -/
def apply (draft : ReadDraft) (specification : Specification) : Draw ReadDraft := do
  let predicate ← draft.binder.specified specification
  return draft.push (.predicate predicate)

/-- Append predicates that are given as data, one after the other. -/
def applyAll (draft : ReadDraft) : List Specification → Draw ReadDraft
  | [] => pure draft
  | specification :: rest => do
      let grown ← draft.apply specification
      applyAll grown rest

/-- The token for which the filter of another draft cannot be taken in, if there is one. Mints that
share a sequence never issue a token twice. Mints that may collide in the future are refused with
the least token that would come in, and otherwise only a token that is already bound is in the
way. Where several are, which of them is named is left to chance, as the bindings are gone through
in the order of their hashes; here it is the least of them. -/
def collision? (draft other : ReadDraft) : Option String :=
  if draft.binder.mint.sharesSequence other.binder.mint then none
  else
    let incoming := other.filter.bindings.names
    if draft.binder.mint.mayCollide other.binder.mint then incoming.head?
    else incoming.find? draft.boundValues.contains

/-- Append the filter of another draft as a fragment, unless it is empty. -/
def embed (draft other : ReadDraft) (connective : Connective) : Except QueryError ReadDraft :=
  if other.filter.isEmpty then .ok draft
  else
    match draft.collision? other with
    | some token => .error (.collision token)
    | none => .ok (draft.push (.fragment (other.filter.toEntry.capture connective)))

/-- Append a condition as a group, unless it is empty. -/
def nest (draft : ReadDraft) (connective : Connective) (condition : Condition) : ReadDraft :=
  if condition.isEmpty then draft
  else { draft with filter := draft.filter.add connective condition.toEntry }

/-- Append what a script makes of a branch of the draft as a group. -/
def group (draft : ReadDraft) (connective : Connective) (build : ReadDraft → Draw ReadDraft) :
    Draw ReadDraft := do
  let child ← build draft.branch
  return draft.nest connective child.filter

/-! ## Keys -/

/-- Append a predicate to the key condition of a query. A scan has none, and only some kinds of
predicates can be part of one. -/
def keyCondition (draft : ReadDraft) (kind : PredicateKind) (key : String)
    (value : AttributeValue) : Draw ReadDraft :=
  match draft.target with
  | .query condition forward =>
      if kind.isKeyCondition then do
        let predicate ← draft.binder.predicate kind key (.scalar value) .and
        return { draft with target := .query (condition.push (.predicate predicate)) forward }
      else throw (.unsupported ("key" ++ kind.name))
  | .scan => throw (.unsupported ("key" ++ kind.name))

/-- Ask for the items in descending order of their keys, which only a query can. -/
def descending (draft : ReadDraft) : Except QueryError ReadDraft :=
  match draft.target with
  | .query condition _ => .ok { draft with target := .query condition (some false) }
  | .scan => .error (.unsupported "descending")

/-! ## Compiling -/

def toScanInput (draft : ReadDraft) : ScanInput where
  tableName := draft.tableName
  indexName := draft.indexName
  filterExpression := draft.filter.render?
  projectionExpression := draft.projection
  attributeNames := draft.attributeNames
  attributeValues := draft.filter.bindings
  limit := draft.limit
  exclusiveStartKey := draft.startKey
  select := draft.select
  consistentRead := draft.consistentRead

def toQueryInput (draft : ReadDraft) (condition : Condition) (forward : Option Bool) :
    QueryInput where
  tableName := draft.tableName
  indexName := draft.indexName
  keyConditionExpression := condition.render?
  filterExpression := draft.filter.render?
  projectionExpression := draft.projection
  attributeNames := draft.attributeNames
  attributeValues := draft.boundValues
  scanIndexForward := forward
  limit := draft.limit
  exclusiveStartKey := draft.startKey
  select := draft.select
  consistentRead := draft.consistentRead

def toInput (draft : ReadDraft) : Input :=
  match draft.target with
  | .scan => .scan draft.toScanInput
  | .query condition forward => .query (draft.toQueryInput condition forward)

def compile (draft : ReadDraft) (overrides : Dictionary Json) : Request :=
  .ofInput draft.toInput overrides

end ReadDraft

end ItemQuery
