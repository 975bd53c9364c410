import TreeScript.Store.Basic

/-!
# Bindings

Looking names up through the layers of a scope.  A look-up takes the innermost
binding; one that finds nothing is tried again with the name qualified by the
namespaces of the scope.  Asking whether a name is bound does without the
second attempt.
-/

namespace TreeScript.Store

open TreeScript

/-- The innermost binding of a name in some layers, with the layer that holds it. -/
def findBinding? (store : Store) (name : String) : List LayerId → Option (LayerId × Variable)
  | [] => none
  | layer :: outer =>
      match (store.bindings layer).find? name with
      | some found => some (layer, found)
      | none => findBinding? store name outer

/-- The binding of a name in the layers of a scope. -/
def binding? (store : Store) (scope : Scope) (name : String) : Option Variable :=
  (store.findBinding? name scope.layers).map Prod.snd

/-- The binding that reading a name finds, under the name itself or its qualified form. -/
def lookup? (store : Store) (scope : Scope) (name : String) : Option Variable :=
  (store.binding? scope name).or
    (if scope.qualifier.isEmpty then none else store.binding? scope (scope.qualifier ++ name))

/-- Whether a name is bound. -/
def isBound (store : Store) (scope : Scope) (name : String) : Bool :=
  (store.binding? scope name).isSome

/-- Replace the attributes of a binding. -/
def describe (store : Store) (layer : LayerId) (name : String) (attributes : List Attribute) :
    Store :=
  match (store.bindings layer).find? name with
  | some found =>
      store.modifyLayer layer fun bindings =>
        bindings.insert name { found with attributes := attributes }
  | none => store

/-- Bind all names of some entries, later entries taking the place of earlier ones. -/
def overlay {α : Type} (below above : Dict α) : Dict α :=
  above.entries.foldl (fun dict entry => dict.insert entry.1 entry.2) below

/-- All names bound in some layers, each with its innermost binding. -/
def visibleIn (store : Store) : List LayerId → Dict Variable
  | [] => .empty
  | layer :: outer => overlay (visibleIn store outer) (store.bindings layer)

/-- All names bound in a scope, in their order, each with its value. -/
def visible (store : Store) (scope : Scope) : List (String × Value) :=
  (store.visibleIn scope.layers).entries.map fun entry => (entry.1, entry.2.value)

end TreeScript.Store
