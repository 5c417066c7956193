import ItemQuery.Table

/-!
Workspaces: objects under names, and the supply that all of them draw from.

An action draws from the supply of the workspace. If it succeeds its result is kept under a name; if
it fails no object changes, but what it drew stays drawn.
-/

namespace ItemQuery

inductive Object
  | mint (mint : Mint)
  | binder (binder : Binder)
  | predicate (predicate : Predicate)
  | condition (condition : Condition)
  | fragment (fragment : Fragment)
  | table (table : Table)
  | read (draft : ReadDraft)
  | update (draft : UpdateDraft)
  | batch (draft : BatchDraft)
  | request (request : Request)
deriving DecidableEq

structure Workspace where
  objects : Dictionary Object
  supply : Supply

namespace Workspace

def empty (randomWord : Nat → String) : Workspace := ⟨.empty, .initial randomWord⟩

def get? (workspace : Workspace) (name : String) : Option Object := workspace.objects.get? name

/-- Run an action on the supply and leave the objects alone. -/
def draw (workspace : Workspace) (action : Draw α) : Except QueryError α × Workspace :=
  match action.run workspace.supply with
  | .ok value supply => (.ok value, { workspace with supply })
  | .error error supply => (.error error, { workspace with supply })

/-- Run an action and keep the object that it makes under a name. -/
def perform (workspace : Workspace) (name : String) (action : Draw Object) :
    Except QueryError Object × Workspace :=
  match workspace.draw action with
  | (.ok object, drawn) => (.ok object, { drawn with objects := drawn.objects.insert name object })
  | (.error error, drawn) => (.error error, drawn)

end Workspace

end ItemQuery
