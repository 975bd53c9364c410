/-!
# Scopes

A scope is a stack of layers, innermost first, that ends in the root layer.
The layers themselves live in the store and are shared: a scope that was
captured by a function sees everything that is added to its layers later.

A scope made for a namespace remembers the name of the namespace.  Names that
are defined in it are registered in the enclosing scope as well, qualified with
that name; `Scope.registrations` lists all the places of one definition.
-/

namespace TreeScript

/-- The handle of a layer of bindings. -/
structure LayerId where
  index : Nat
  deriving DecidableEq, Repr

/-- A stack of layers.  Each step inward is a plain child or the scope of a namespace. -/
inductive Scope where
  | root (layer : LayerId)
  | child (layer : LayerId) (outer : Scope)
  | member (layer : LayerId) (space : String) (outer : Scope)
  deriving DecidableEq, Repr

namespace Scope

/-- The innermost layer, which definitions go to. -/
def layer : Scope → LayerId
  | .root layer => layer
  | .child layer _ => layer
  | .member layer _ _ => layer

/-- The layers of a scope, innermost first. -/
def layers : Scope → List LayerId
  | .root layer => [layer]
  | .child layer outer => layer :: outer.layers
  | .member layer _ outer => layer :: outer.layers

/-- What a scope is called in messages. -/
def name : Scope → String
  | .root _ => "<root>"
  | .child _ _ => "<anonymous>"
  | .member _ _ _ => "<anonymous>"

/-- The namespaces that a scope is directly nested in, as a prefix of qualified names. -/
def qualifier : Scope → String
  | .root _ => ""
  | .child _ _ => ""
  | .member _ space outer => outer.qualifier ++ space ++ ":"

/--
The scopes that a definition is registered in, each with the name it gets
there: the scope itself, and around every namespace the scope that encloses
it, under the name qualified with the namespace.
-/
def registrations (scope : Scope) (name : String) : List (Scope × String) :=
  match scope with
  | .root _ => [(scope, name)]
  | .child _ _ => [(scope, name)]
  | .member _ space outer => (scope, name) :: outer.registrations (space ++ ":" ++ name)

@[simp]
theorem layers_root (layer : LayerId) :
    (root layer).layers = [layer] := rfl

@[simp]
theorem layers_child (layer : LayerId) (outer : Scope) :
    (child layer outer).layers = layer :: outer.layers := rfl

@[simp]
theorem layers_member (layer : LayerId) (space : String) (outer : Scope) :
    (member layer space outer).layers = layer :: outer.layers := rfl

theorem layer_mem_layers (scope : Scope) :
    scope.layer ∈ scope.layers := by
  cases scope <;> simp [layer]

end Scope

end TreeScript
