import TreeScript.Machine.Edit

/-!
# Trees of scopes

A tree of scopes grows from a root scope: plain children and the scopes of
namespaces are added to scopes that exist, and names are defined, assigned to
and looked up in any of them.
-/

namespace TreeScript

/-- The scopes of a tree in the order of their creation, with the world their layers live in. -/
structure ScopeTree where
  options : Options
  scopes : Array Scope
  world : World

/-- What can be done at a scope. -/
inductive ScopeOperation where
  | child (bindings : Dict Variable)
  | member (space : String)
  | add (name : String) (bound : Variable)
  | assign (name : String) (value : Value)
  | get (name : String)

/-- What an operation at a scope gives. -/
inductive ScopeResult where
  | scope (index : Nat)
  | value (value : Value)
  | silent
  | failed (error : Error)

namespace ScopeTree

/-- A tree of a root scope with some bindings. -/
def root (options : Options) (store : Store) (bindings : Dict Variable) : ScopeTree :=
  let (store, layer) := store.newLayer bindings
  ⟨options, #[.root layer], { (default : World) with store := store }⟩

/-- Add a scope to the tree. -/
def addScope (tree : ScopeTree) (bindings : Dict Variable) (make : LayerId → Scope) :
    ScopeResult × ScopeTree :=
  let (store, layer) := tree.world.store.newLayer bindings
  (.scope tree.scopes.size,
    { tree with
      scopes := tree.scopes.push (make layer)
      world := { tree.world with store := store } })

/-- Do an edit. -/
def edit {α : Type} (tree : ScopeTree) (edit : Edit α) (result : α → ScopeResult) :
    ScopeResult × ScopeTree :=
  let (outcome, world) := edit.run.run tree.world
  let tree := { tree with world := world }
  match outcome with
  | .ok value => (result value, tree)
  | .error error => (.failed error, tree)

/-- Do an operation at a scope of the tree. -/
def perform (tree : ScopeTree) (scope : Scope) : ScopeOperation → ScopeResult × ScopeTree
  | .child bindings => tree.addScope bindings fun layer => .child layer scope
  | .member space => tree.addScope .empty fun layer => .member layer space scope
  | .add name bound =>
      tree.edit (Edit.declare tree.options scope name bound) fun _ => .silent
  | .assign name value =>
      tree.edit (Edit.assign tree.options scope name value) fun _ => .silent
  | .get name => tree.edit (Edit.readName tree.options scope name) .value

end ScopeTree

end TreeScript
