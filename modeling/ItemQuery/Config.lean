import ItemQuery.Error
import ItemQuery.Json.Record

/-!
Configurations: how placeholders are named and how numbers are unmarshaled.

A configuration may be any record; `Config.validate` refuses those whose placeholders would not be
tokens of the store. It can be read from JSON or loaded from an environment.
-/

namespace ItemQuery

/-- Where the part of a placeholder that tells it from the others comes from. -/
inductive PlaceholderStrategy
  | sequential
  | random
deriving DecidableEq

namespace PlaceholderStrategy

def text : PlaceholderStrategy → String
  | .sequential => "sequential"
  | .random => "random"

/-- The strategy that a text spells exactly. -/
def ofText? (text : String) : Option PlaceholderStrategy :=
  if text = "sequential" then some .sequential
  else if text = "random" then some .random
  else none

/-- The strategy that a word stands for, in any mixture of ASCII cases. -/
def ofWord (word : String) : Except ConfigError PlaceholderStrategy :=
  let lower := asciiLower word
  if lower = "sequential" ∨ lower = "counter" then .ok .sequential
  else if lower = "random" ∨ lower = "uuid" then .ok .random
  else .error (.unknownStrategy lower)

end PlaceholderStrategy

structure Config where
  /-- What the names of all placeholders begin with. -/
  stem : String
  strategy : PlaceholderStrategy
  wrapNumbers : Bool
deriving DecidableEq

namespace Config

def default : Config := ⟨"p", .sequential, false⟩

instance : Inhabited Config := ⟨default⟩

def marshaler (config : Config) : Marshaler := ⟨config.wrapNumbers⟩

/-- The characters that a token of the store may have after its colon. -/
def isTokenChar (char : Char) : Bool := char.isAlphanum || char = '_'

/-- Succeeds when the stem has at least one character and only characters of tokens. -/
def validate (config : Config) : Except ConfigError Unit :=
  if config.stem = "" then .error .emptyStem
  else if config.stem.toList.all isTokenChar then .ok ()
  else .error (.invalidStem config.stem)

/-! ## JSON form -/

def fieldNames : List String := ["placeholderPrefix", "placeholderStrategy", "wrapNumbers"]

def toJson (config : Config) : Json :=
  .object [("placeholderPrefix", .string config.stem),
    ("placeholderStrategy", .string config.strategy.text),
    ("wrapNumbers", .bool config.wrapNumbers)]

def ofJson? (json : Json) : Option Config := do
  let record ← Json.Record.ofJson? fieldNames json
  let stem ← record.required? "placeholderPrefix" Json.string?
  let strategy ← record.required? "placeholderStrategy"
    (Json.alternative? PlaceholderStrategy.ofText?)
  let wrapNumbers ← record.required? "wrapNumbers" Json.bool?
  some ⟨stem, strategy, wrapNumbers⟩

/-! ## Environments -/

/-- The words that switch the wrapping of numbers on. -/
def isYes (word : String) : Bool := ["1", "true", "yes", "TRUE", "YES"].contains word

/-- The default configuration with what the variables of an environment say instead. A strategy
that does not exist is reported before a stem that cannot be used. -/
def ofEnvironment (lookup : String → Option String) : Except ConfigError Config := do
  let strategy ←
    match lookup "QUERY_PLACEHOLDER_STRATEGY" with
    | some word => PlaceholderStrategy.ofWord word
    | none => .ok default.strategy
  let config : Config :=
    { stem := (lookup "QUERY_PLACEHOLDER_PREFIX").getD default.stem
      strategy
      wrapNumbers := ((lookup "QUERY_WRAP_NUMBERS").map isYes).getD default.wrapNumbers }
  config.validate
  return config

end Config

end ItemQuery
