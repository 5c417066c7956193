import ItemQuery.ReadDraft
import ItemQuery.UpdateDraft
import ItemQuery.BatchDraft

/-!
Tables: where drafts come from.

All drafts of a table draw their placeholders from the one mint of the table and marshal by its
configuration. Giving a table another configuration gives it a new mint.
-/

namespace ItemQuery

structure Table where
  name : String
  indexName : Option String
  config : Config
  mint : Mint
deriving DecidableEq

namespace Table

/-- A table with the default configuration and a mint of its own. -/
def create (name : String) : Draw Table := do
  return ⟨name, none, .default, ← Mint.fresh⟩

/-- The table with another configuration, which must be a valid one. -/
def withConfig (table : Table) (config : Config) : Draw Table := do
  Draw.ofConfig config.validate
  return { table with config, mint := ← Mint.ofConfig config }

/-- The table with the configuration that the variables of an environment state. -/
def ofEnvironment (name : String) (lookup : String → Option String) : Draw Table := do
  let config ← Draw.ofConfig (Config.ofEnvironment lookup)
  (← create name).withConfig config

def withIndex (table : Table) (indexName : String) : Table :=
  { table with indexName := some indexName }

def binder (table : Table) : Binder := ⟨table.mint, table.config.marshaler⟩

def scan (table : Table) : ReadDraft :=
  { ReadDraft.scan table.name table.binder with indexName := table.indexName }

def query (table : Table) : ReadDraft :=
  { ReadDraft.query table.name table.binder with indexName := table.indexName }

def update (table : Table) : UpdateDraft := .start table.name table.binder

def batch (table : Table) : BatchDraft := .start table.name

end Table

end ItemQuery
