import TreeScript.Proofs.FailedDefinitions

/-!
# What namespaces declare

Seen from outside, a namespace with all that is nested in it comes down to its
declarations: for each member the namespaces that it lies in, its name, and the
expressions for its value and its attributes.  The order of members makes no difference to what is
declared (`Node.Reordered.perm`).

A declaration binds the same variable in its own namespace and around each of the
namespaces that it lies in, up to a scope that is not the scope of a namespace.
Once all members of a namespace have been defined, its layer repeats what this
scope has under qualified names.  So what a name means inside of nested namespaces
can be said by names of that scope alone (`Store.Nests.bindsAlike`).
-/

namespace TreeScript

/-! ## Declarations -/

/-- A namespace, with the names that are declared in its layer. -/
structure Space where
  name : String
  declares : String → Prop

/-- A member as it is declared, in namespaces, the outermost first. -/
structure Declaration where
  path : List Space
  member : String
  value : Node
  attributes : List (String × Node)

namespace Declaration

/-- How a declaration is spelled around the namespaces that it lies in. -/
def name (declaration : Declaration) : String :=
  declaration.path.foldr (fun space spelled => space.name ++ ":" ++ spelled) declaration.member

/-- A declaration in one namespace more. -/
def inside (space : Space) (declaration : Declaration) : Declaration :=
  { declaration with path := space :: declaration.path }

end Declaration

/-- The namespace of a name in which some declarations are made. -/
def Space.of (name : String) (declarations : List Declaration) : Space :=
  ⟨name, fun declared => declared ∈ declarations.map Declaration.name⟩

/-- In whatever order declarations are made, it is the same namespace. -/
theorem Space.of_perm (name : String) {first second : List Declaration}
    (perm : first.Perm second) : Space.of name first = Space.of name second :=
  congrArg (Space.mk name) (funext fun _ => propext (perm.map _).mem_iff)

namespace Node

mutual

/-- What a node declares as a member of a namespace. -/
def declarations : Node → List Declaration
  | .mk (.namespaceBlock space members) _ =>
      (declarationsOf members).map (Declaration.inside (.of space (declarationsOf members)))
  | .mk (.definition target value _ attributes) _ =>
      match target.shape with
      | .identifier name => [⟨[], name, value, attributes⟩]
      | _ => []
  | _ => []

/-- What nodes declare as members of a namespace. -/
def declarationsOf : List Node → List Declaration
  | [] => []
  | node :: rest => declarations node ++ declarationsOf rest

end

/-- What is declared depends on the order of the nodes only in its order. -/
theorem perm_declarationsOf {nodes others : List Node} (perm : nodes.Perm others) :
    (declarationsOf nodes).Perm (declarationsOf others) := by
  induction perm with
  | nil => exact .nil
  | cons node _ inductive_step => exact .append_left _ inductive_step
  | swap first second rest =>
      rw [declarationsOf, declarationsOf, declarationsOf, declarationsOf, ← List.append_assoc,
        ← List.append_assoc]
      exact List.perm_append_comm.append_right _
  | trans _ _ first second => exact first.trans second

theorem declarationsOf_append (first second : List Node) :
    declarationsOf (first ++ second) = declarationsOf first ++ declarationsOf second := by
  induction first with
  | nil => rfl
  | cons node rest inductive_step =>
      rw [List.cons_append, declarationsOf, inductive_step, declarationsOf, List.append_assoc]

/-- Whether a node is the declaration of a namespace. -/
def isBlock (node : Node) : Bool :=
  match node.shape with
  | .namespaceBlock _ _ => true
  | _ => false

/-- What namespaces and other members declare is all that is declared. -/
theorem perm_declarationsOf_isBlock (nodes : List Node) :
    (declarationsOf (nodes.filter isBlock) ++
      declarationsOf (nodes.filter fun node => !node.isBlock)).Perm (declarationsOf nodes) := by
  rw [← declarationsOf_append]
  exact perm_declarationsOf (List.filter_append_perm isBlock nodes)

/-! ## Other orders -/

/-- Members in another order, at each level. -/
inductive Reordered : List Node → List Node → Prop where
  | nil : Reordered [] []
  | keep (node : Node) {rest others : List Node} (below : Reordered rest others) :
      Reordered (node :: rest) (node :: others)
  | nested (space : String) (span : Span) {members others rest after : List Node}
      (within : Reordered members others) (below : Reordered rest after) :
      Reordered (.mk (.namespaceBlock space members) span :: rest)
        (.mk (.namespaceBlock space others) span :: after)
  | swap (first second : Node) (rest : List Node) :
      Reordered (first :: second :: rest) (second :: first :: rest)
  | trans {nodes between others : List Node} (first : Reordered nodes between)
      (second : Reordered between others) :
      Reordered nodes others

namespace Reordered

variable {nodes others : List Node}

theorem refl (nodes : List Node) : Reordered nodes nodes := by
  induction nodes with
  | nil => exact .nil
  | cons node rest inductive_step => exact .keep node inductive_step

theorem symm (reordered : Reordered nodes others) : Reordered others nodes := by
  induction reordered with
  | nil => exact .nil
  | keep node _ inductive_step => exact .keep node inductive_step
  | nested space span _ _ within below => exact .nested space span within below
  | swap first second rest => exact .swap second first rest
  | trans _ _ first second => exact second.trans first

/-- Any permutation is another order. -/
theorem of_perm (perm : nodes.Perm others) : Reordered nodes others := by
  induction perm with
  | nil => exact .nil
  | cons node _ inductive_step => exact .keep node inductive_step
  | swap first second rest => exact .swap second first rest
  | trans _ _ first second => exact first.trans second

/-- In another order the same is declared. -/
theorem perm (reordered : Reordered nodes others) :
    (declarationsOf nodes).Perm (declarationsOf others) := by
  induction reordered with
  | nil => exact .nil
  | keep node _ inductive_step => exact .append_left _ inductive_step
  | nested space span _ _ within below =>
      rw [declarationsOf, declarationsOf, declarations, declarations, Space.of_perm space within]
      exact (within.map _).append below
  | swap first second rest => exact perm_declarationsOf (.swap second first rest)
  | trans _ _ first second => exact first.trans second

/-- The namespaces among reordered nodes are reordered. -/
theorem filter_isBlock (reordered : Reordered nodes others) :
    Reordered (nodes.filter isBlock) (others.filter isBlock) := by
  induction reordered with
  | nil => exact .nil
  | keep node _ inductive_step =>
      rw [List.filter_cons, List.filter_cons]
      split
      · exact .keep node inductive_step
      · exact inductive_step
  | nested space span within _ _ below => exact .nested space span within below
  | swap first second rest =>
      cases here : first.isBlock <;> cases there : second.isBlock <;>
        simp only [List.filter_cons, here, there, if_true, Bool.false_eq_true, if_false]
      · exact .refl _
      · exact .refl _
      · exact .refl _
      · exact .swap first second _
  | trans _ _ first second => exact first.trans second

/-- What holds of all nodes in one order holds of them in another, if the order inside of each
makes no difference. -/
theorem forall_mem {holds : Node → Prop}
    (block : ∀ {space : String} {span : Span} {members others : List Node},
      ((∀ member ∈ members, holds member) → ∀ member ∈ others, holds member) →
      holds (.mk (.namespaceBlock space members) span) →
        holds (.mk (.namespaceBlock space others) span))
    (reordered : Reordered nodes others) (each : ∀ node ∈ nodes, holds node) :
    ∀ node ∈ others, holds node := by
  induction reordered with
  | nil => exact each
  | keep node _ inductive_step =>
      obtain ⟨here, later⟩ := List.forall_mem_cons.mp each
      exact List.forall_mem_cons.mpr ⟨here, inductive_step later⟩
  | nested space span _ _ within below =>
      obtain ⟨here, later⟩ := List.forall_mem_cons.mp each
      exact List.forall_mem_cons.mpr ⟨block within here, below later⟩
  | swap first second rest =>
      exact fun node mem => each node ((List.Perm.swap first second rest).mem_iff.mp mem)
  | trans _ _ first second => exact second (first each)

end Reordered

end Node

/-! ## Places -/

namespace Scope

/-- The layers that a name of a scope is bound in, with its spelling in each. -/
def places (scope : Scope) (name : String) : List (LayerId × String) :=
  (scope.registrations name).map fun place => (place.1.layer, place.2)

@[simp]
theorem places_member (layer : LayerId) (space : String) (outer : Scope) (name : String) :
    (member layer space outer).places name =
      (layer, name) :: outer.places (space ++ ":" ++ name) := rfl

/-- The layer of the scope around the namespaces that a scope is directly nested in. -/
def ground : Scope → LayerId
  | .root layer => layer
  | .child layer _ => layer
  | .member _ _ outer => outer.ground

theorem ground_mem_places (scope : Scope) (name : String) :
    (scope.ground, scope.qualifier ++ name) ∈ scope.places name := by
  induction scope generalizing name with
  | root layer | child layer outer =>
      rw [qualifier, String.empty_append]
      exact List.mem_singleton.mpr rfl
  | member layer space outer inductive_step =>
      have spelled : outer.qualifier ++ space ++ ":" ++ name =
          outer.qualifier ++ (space ++ ":" ++ name) := by simp only [String.append_assoc]
      rw [places_member, qualifier, spelled]
      exact List.mem_cons_of_mem _ (inductive_step _)

/-- A scope lies in namespaces in another one, the outermost first. -/
inductive Surrounds : Scope → List Space → Scope → Prop where
  | here {scope : Scope} : Surrounds scope [] scope
  | inside {outer inner : Scope} {layer : LayerId} {space : Space} {path : List Space}
      (rest : Surrounds (.member layer space.name outer) path inner) :
      Surrounds outer (space :: path) inner

namespace Surrounds

variable {outer inner : Scope} {path : List Space}

theorem ground_eq (surrounds : outer.Surrounds path inner) : inner.ground = outer.ground := by
  induction surrounds with
  | here => rfl
  | inside _ inductive_step => exact inductive_step

/-- The namespaces that a scope lies in are part of the names that are spelled around them. -/
theorem qualifier_append (surrounds : outer.Surrounds path inner) (member : String) :
    inner.qualifier ++ member = outer.qualifier ++
      path.foldr (fun space spelled => space.name ++ ":" ++ spelled) member := by
  induction surrounds with
  | here => rfl
  | inside _ inductive_step =>
      rw [inductive_step, qualifier, List.foldr_cons]
      simp only [String.append_assoc]

/-- The same namespaces qualify names in the same way. -/
theorem qualifier_eq {outer' inner' : Scope} (surrounds : outer.Surrounds path inner)
    (surrounds' : outer'.Surrounds path inner') (same : outer.qualifier = outer'.qualifier) :
    inner.qualifier = inner'.qualifier := by
  have spelled := surrounds.qualifier_append ""
  rwa [same, ← surrounds'.qualifier_append "", String.append_empty, String.append_empty] at spelled

end Surrounds

theorem layer_mem_of_place {scope : Scope} {name : String} {place : LayerId × String}
    (mem : place ∈ scope.places name) : place.1 ∈ scope.layers := by
  obtain ⟨registration, registered, rfl⟩ := List.mem_map.mp mem
  exact scope.layer_mem_of_registration registered

theorem places_eq_cons (scope : Scope) (name : String) :
    ∃ rest, scope.places name = (scope.layer, name) :: rest := by
  obtain ⟨_, registrations⟩ := scope.registrations_eq_cons name
  exact ⟨_, congrArg (List.map _) registrations⟩

/-- A name has one place at most in each layer. -/
theorem nodup_places (scope : Scope) (nodup : scope.layers.Nodup) (name : String) :
    ((scope.places name).map Prod.fst).Nodup := by
  rw [places, List.map_map]
  exact (scope.sublist_layers_registrations name).nodup nodup

/-- Different names have different places. -/
theorem eq_of_mem_places {scope : Scope} (nodup : scope.layers.Nodup) {name other : String}
    {place : LayerId × String} (first : place ∈ scope.places name)
    (second : place ∈ scope.places other) : name = other := by
  induction scope generalizing name other with
  | root layer | child layer outer =>
      cases List.mem_singleton.mp first
      cases List.mem_singleton.mp second
      rfl
  | member layer space outer inductive_step =>
      obtain ⟨apart, nodup⟩ := List.nodup_cons.mp nodup
      rcases List.mem_cons.mp first with rfl | first
      · rcases List.mem_cons.mp second with same | second
        · exact congrArg Prod.snd same
        · exact (apart (layer_mem_of_place second)).elim
      · rcases List.mem_cons.mp second with rfl | second
        · exact (apart (layer_mem_of_place first)).elim
        · have same := inductive_step nodup first second
          exact (String.append_right_inj _).mp same

end Scope

namespace Store

/-- Some names are different from each other and not taken in any of their places. -/
def HasRoom (store : Store) (scope : Scope) (names : List String) : Prop :=
  names.Nodup ∧ ∀ name ∈ names, ∀ place ∈ scope.places name,
    (store.bindings place.1).find? place.2 = none

theorem hasRoom_perm (store : Store) (scope : Scope) {names others : List String}
    (perm : names.Perm others) : store.HasRoom scope names ↔ store.HasRoom scope others := by
  rw [HasRoom, HasRoom, perm.nodup_iff]
  exact and_congr_right' (forall_congr' fun _ => imp_congr_left perm.mem_iff)

theorem HasRoom.of_append {store : Store} {scope : Scope} {names others : List String}
    (room : store.HasRoom scope (names ++ others)) : store.HasRoom scope names :=
  ⟨(List.nodup_append.mp room.1).1, fun name mem => room.2 name (List.mem_append_left _ mem)⟩

/-- A layer binds the names of a namespace, and it binds them as they are bound on the ground. -/
structure Repeats (store : Store) (outer : Scope) (layer : LayerId) (space : Space) : Prop where
  fresh : layer ∉ outer.layers
  present : layer.index < store.layers.size
  declared : ∀ name, space.declares name → ∃ bound,
    (store.bindings layer).find? name = some bound ∧
      (store.bindings outer.ground).find? (outer.qualifier ++ (space.name ++ ":" ++ name)) =
        some bound
  others : ∀ name, ¬ space.declares name → (store.bindings layer).find? name = none

/-- A scope lies in namespaces in another one that all repeat what is bound on the ground. -/
inductive Nests (store : Store) : Scope → List Space → Scope → Prop where
  | here {scope : Scope} : Nests store scope [] scope
  | inside {outer inner : Scope} {layer : LayerId} {space : Space} {path : List Space}
      (repeats : store.Repeats outer layer space)
      (rest : Nests store (.member layer space.name outer) path inner) :
      Nests store outer (space :: path) inner

variable {store other before after : Store} {outer inner : Scope} {path : List Space}

/-- Namespaces stay as they are while no layer of theirs is changed and no binding gets lost. -/
theorem Nests.later (nests : before.Nests outer path inner)
    (layers : before.layers.size ≤ after.layers.size)
    (same : ∀ layer, layer ∉ outer.layers → layer.index < before.layers.size → ∀ name,
      (after.bindings layer).find? name = (before.bindings layer).find? name)
    (persists : ∀ layer name bound, (before.bindings layer).find? name = some bound →
      (after.bindings layer).find? name = some bound) :
    after.Nests outer path inner := by
  induction nests with
  | here => exact .here
  | @inside outer inner layer space path repeats _ inductive_step =>
      refine .inside ⟨repeats.fresh, Nat.lt_of_lt_of_le repeats.present layers, ?_, ?_⟩
        (inductive_step fun other apart => same other fun mem => apart (.tail _ mem))
      · intro name declares
        obtain ⟨bound, here, ground⟩ := repeats.declared name declares
        exact ⟨bound, persists _ _ _ here, persists _ _ _ ground⟩
      · intro name absent
        rw [same layer repeats.fresh repeats.present]
        exact repeats.others name absent

theorem Nests.surrounds (nests : store.Nests outer path inner) : outer.Surrounds path inner := by
  induction nests with
  | here => exact .here
  | inside _ _ inductive_step => exact .inside inductive_step

theorem binding?_member (store : Store) (layer : LayerId) (space : String) (outer : Scope)
    (name : String) :
    store.binding? (.member layer space outer) name =
      ((store.bindings layer).find? name).or (store.binding? outer name) := by
  rw [binding?, Scope.layers, findBinding?]
  cases (store.bindings layer).find? name <;> rfl

theorem binding?_root (store : Store) (root : LayerId) (name : String) :
    store.binding? (.root root) name = (store.bindings root).find? name := by
  rw [binding?, Scope.layers, findBinding?]
  cases (store.bindings root).find? name <;> rfl

/-- What the layer of a scope binds is bound in the scope. -/
theorem binding?_of_layer {store : Store} {scope : Scope} {name : String} {bound : Variable}
    (found : (store.bindings scope.layer).find? name = some bound) :
    store.binding? scope name = some bound := by
  obtain ⟨outer, layers⟩ := scope.exists_layers
  rw [binding?, layers, findBinding?, found]
  rfl

/-- What a name is bound to in a scope of two stores is what one name is bound to on the ground. -/
def BindsAlike (store other : Store) (scope scope' : Scope) : Prop :=
  ∀ name, ∃ qualified,
    store.binding? scope name = (store.bindings scope.ground).find? qualified ∧
      other.binding? scope' name = (other.bindings scope'.ground).find? qualified

/-- In the same namespaces of two stores, names are bound to what they are bound to outside. -/
theorem Nests.bindsAlike {outer' inner' : Scope} (nests : store.Nests outer path inner)
    (nests' : other.Nests outer' path inner') (same : outer.qualifier = outer'.qualifier)
    (alike : store.BindsAlike other outer outer') : store.BindsAlike other inner inner' := by
  induction nests generalizing outer' with
  | here =>
      cases nests'
      exact alike
  | @inside outer inner layer space path repeats _ inductive_step =>
      cases nests' with
      | @inside _ _ layer' _ _ repeats' rest =>
          refine inductive_step rest (by rw [Scope.qualifier, Scope.qualifier, same])
            fun name => ?_
          rw [binding?_member, binding?_member]
          -- A name that the namespace declares is bound in its layer as it is on the ground, and
          -- every other one is left to what is around the namespace.
          by_cases declares : space.declares name
          · obtain ⟨bound, here, ground⟩ := repeats.declared name declares
            obtain ⟨bound', here', ground'⟩ := repeats'.declared name declares
            refine ⟨outer.qualifier ++ (space.name ++ ":" ++ name), ?_, ?_⟩
            · rw [here]
              exact ground.symm
            · rw [here', same]
              exact ground'.symm
          · rw [repeats.others name declares, repeats'.others name declares]
            exact alike name

end Store

end TreeScript
