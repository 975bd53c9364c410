import TreeScript.Proofs.AttributePermanence
import TreeScript.Proofs.Collecting
import TreeScript.Proofs.MemberStatements

/-!
# The attributes of members

A member of a namespace is bound in the layer of its namespace and, under qualified
names, around it, before its attributes are put on it.  They are put on the first of
these bindings alone, and there they stay; all others are left without attributes.
So the root scope binds every member of a collected script to its value, but to none
of its attributes (`Evaluation.attributes_of_members`), while a definition outside of
namespaces has them where it is bound (`Evaluation.attributes_of_definition`).
-/

namespace TreeScript

open Rule

variable {options : Options} {host : Host} {mode : Mode} {free : Bool}
variable {world between reached : World} {scope outer inner : Scope}

/-! ## Putting attributes on a binding -/

/-- Attributes are put on the binding of the target, and on no other one. -/
theorem Edit.find?_decorate {target : Node} {name : String}
    (named : target.shape = .identifier name) {isMutable : Bool} {value : Value} (given : Value)
    (attributes : List Attribute)
    (found : (world.store.bindings scope.layer).find? name = some (.plain isMutable value))
    (layer : LayerId) (sought : String) :
    (((decorate scope target given attributes).run.run world).2.store.bindings layer).find? sought =
      if layer = scope.layer ∧ sought = name then some ⟨isMutable, value, attributes⟩
      else (world.store.bindings layer).find? sought := by
  unfold decorate
  split
  · rename_i none
    obtain rfl := List.isEmpty_iff.mp none
    split
    · rename_i here
      obtain ⟨rfl, rfl⟩ := here
      exact found
    · rfl
  · rw [named]
    show (((world.store.setAttributes given attributes).describe scope.layer name
      attributes).bindings layer).find? sought = _
    have valued (layer : LayerId) :
        (world.store.setAttributes given attributes).bindings layer =
          world.store.bindings layer := by
      cases given <;> rfl
    have inside := Store.index_lt_of_find?_bindings ((valued scope.layer).symm ▸ found)
    rw [Store.describe, valued, found]
    dsimp only
    rw [Store.find?_bind, valued]
    simp only [inside, and_true]
    rfl

/-! ## Definitions and their attributes -/

/-- What attributes evaluate to, sometime. -/
def Evaluation.Gives (options : Options) (host : Host) (mode : Mode) (scope : Scope)
    (attributes : List (String × Node)) (given : List Attribute) : Prop :=
  ∃ before after : World, (evaluateAttributes scope (.top mode) attributes).Ends options host
    mode.isFree before after (.ok given)

/-- The bindings of a name that has been defined for good in a scope, with attributes. -/
structure World.Describes (world : World) (scope : Scope) (name : String) (isMutable : Bool)
    (value : Value) (attributes : List Attribute) : Prop where
  here : (world.store.bindings scope.layer).find? name = some ⟨isMutable, value, attributes⟩
  around : ∀ place ∈ (scope.places name).tail,
    (world.store.bindings place.1).find? place.2 = some (.plain isMutable value)

/-- What has been described stays so. -/
theorem World.Describes.later {name : String} {value : Value} {attributes : List Attribute}
    (describes : world.Describes scope name false value attributes)
    (settles : world.store.Settles reached.store) :
    reached.Describes scope name false value attributes where
  here := settles.kept _ _ _ describes.here rfl
  around place mem := settles.kept _ _ _ (describes.around place mem) rfl

/-- The layers of a scope stay while bindings are kept. -/
theorem Store.HasLayers.later {before after : Store} (layers : before.HasLayers scope)
    (kept : before.KeepsBindings after) : after.HasLayers scope :=
  layers.of_le kept.layers

namespace Evaluation

/-- As many results as elements. -/
theorem length_of_ends_traverse {α β : Type} {step : α → Rule β} {elements : List α}
    {results : List β}
    (ends : (Rule.traverse step elements).Ends options host free world reached (.ok results)) :
    results.length = elements.length := by
  induction elements generalizing world results with
  | nil =>
      obtain ⟨-, ⟨⟩⟩ := ends_pure_iff.mp ends
      rfl
  | cons element rest inductive_step =>
      rw [traverse_cons] at ends
      obtain ⟨_, first, -, goesOn⟩ := ends_bind_ok_iff.mp ends
      obtain ⟨_, later, follows, returns⟩ := ends_bind_ok_iff.mp goesOn
      obtain ⟨rfl, ⟨⟩⟩ := ends_pure_iff.mp returns
      exact congrArg (· + 1) (inductive_step follows)

/-- There are attributes if there are expressions for them. -/
theorem Gives.eq_nil_iff {attributes : List (String × Node)} {given : List Attribute}
    (gives : Gives options host mode scope attributes given) : given = [] ↔ attributes = [] := by
  obtain ⟨before, after, ends⟩ := gives
  obtain ⟨_, entries, evaluates, returns⟩ := ends_bind_ok_iff.mp ends
  obtain ⟨rfl, ⟨⟩⟩ := ends_pure_iff.mp returns
  rw [List.map_eq_nil_iff, ← List.length_eq_zero_iff, ← List.length_eq_zero_iff,
    length_of_ends_traverse evaluates]

section Definitions

variable {target literal : Node} {name : String} {isMutable : Bool}
  {attributes : List (String × Node)}

/-- What is declared and then gets attributes has them in its scope, but not around it. -/
theorem describes_of_declare {value given : Value} {held : List Attribute}
    (named : target.shape = .identifier name) (layers : world.store.HasLayers scope)
    (declared : (Edit.declare options scope name (.plain isMutable value)).run.run world =
      (.ok (), between)) :
    (between.perform options (.decorate scope target given held)).2.Describes scope name isMutable
      value held := by
  have inside : ∀ place ∈ scope.registrations name,
      place.1.layer.index < world.store.layers.size := fun place mem =>
    layers.present _ (scope.layer_mem_of_registration mem)
  obtain ⟨-, -, bound⟩ := Edit.register_ok options inside declared
  have placed {place : LayerId × String} (mem : place ∈ scope.places name) :
      (between.store.bindings place.1).find? place.2 = some (.plain isMutable value) :=
    (bound place.1 place.2).trans (if_pos mem)
  obtain ⟨rest, places⟩ := scope.places_eq_cons name
  have found := placed (places ▸ List.mem_cons_self)
  have decorated := Edit.find?_decorate named given held found
  refine ⟨(decorated _ _).trans (if_pos ⟨rfl, rfl⟩), fun place mem => ?_⟩
  refine (decorated _ _).trans ((if_neg ?_).trans (placed (List.mem_of_mem_tail mem)))
  -- The other places are in other layers, whatever the name is spelled like there.
  rintro ⟨same, -⟩
  have apart := scope.nodup_places layers.nodup name
  rw [places, List.map_cons, List.nodup_cons] at apart
  rw [places, List.tail_cons] at mem
  have taken : place.1 ∈ rest.map Prod.fst := List.mem_map_of_mem mem
  rw [same] at taken
  exact apart.1 taken

/-- A definition outside of namespaces has exactly the attributes that it is given. -/
theorem attributes_of_definition (named : target.shape = .identifier name)
    (layers : world.store.HasLayers scope)
    (ends : (define target literal isMutable attributes scope (.top mode)).Ends options host
      mode.isFree world reached (.ok .null)) :
    ∃ value given, Gives options host mode scope attributes given ∧
      reached.store.binding? scope name = some ⟨isMutable, value, given⟩ := by
  obtain ⟨valued, value, values, goesOn⟩ := ends_bind_ok_iff.mp ends
  obtain ⟨attributed, held, gives, goesOn⟩ := ends_bind_ok_iff.mp goesOn
  obtain ⟨known, ⟨⟩, names, goesOn⟩ := ends_bind_ok_iff.mp goesOn
  obtain ⟨defined, ⟨⟩, defines, goesOn⟩ := ends_bind_ok_iff.mp goesOn
  obtain ⟨decorated, ⟨⟩, decorates, returns⟩ := ends_bind_ok_iff.mp goesOn
  obtain ⟨rfl, -⟩ := ends_pure_iff.mp returns
  obtain rfl := ends_attempt_decorate_ok_iff.mp decorates
  have declares := ends_attempt_define_ok_iff.mp defines
  rw [define_identifier named] at declares
  have present := ((layers.later values.keepsBindings).later gives.keepsBindings).later
    names.keepsBindings
  refine ⟨value, held, ⟨valued, attributed, gives⟩, ?_⟩
  exact Store.binding?_of_layer (describes_of_declare named present declares).here

end Definitions

end Evaluation

/-! ## Members -/

/-- A declaration has been carried out: its attributes are with the binding in its namespace. -/
def World.Shows (options : Options) (host : Host) (mode : Mode) (scope : Scope)
    (declaration : Declaration) (world : World) : Prop :=
  ∃ layer space outer value given,
    scope.Surrounds declaration.path (.member layer space outer) ∧
      Evaluation.Gives options host mode outer declaration.attributes given ∧
      world.Describes (.member layer space outer) declaration.member false value given

namespace World.Shows

variable {declaration : Declaration}

theorem later (shows : world.Shows options host mode scope declaration)
    (settles : world.store.Settles reached.store) :
    reached.Shows options host mode scope declaration := by
  obtain ⟨layer, space, outer, value, given, surrounds, gives, describes⟩ := shows
  exact ⟨layer, space, outer, value, given, surrounds, gives, describes.later settles⟩

/-- What is shown in a namespace is shown around it. -/
theorem inside {layer : LayerId} {space : Space}
    (shows : world.Shows options host mode (.member layer space.name outer) declaration) :
    world.Shows options host mode outer (declaration.inside space) := by
  obtain ⟨layer, space, outer, value, given, surrounds, gives, describes⟩ := shows
  exact ⟨layer, space, outer, value, given, .inside surrounds, gives, describes⟩

end World.Shows

namespace Evaluation

/-- A member is shown as soon as it has been defined. -/
theorem shows_defineMember {layer : LayerId} {space : String} {position : Position}
    {target literal : Node} {isMutable : Bool} {attributes : List (String × Node)} {span : Span}
    (layers : world.store.HasLayers (.member layer space outer))
    (ends : (defineMember outer (.member layer space outer) mode position target literal isMutable
      attributes).Ends options host mode.isFree world reached (.ok ())) :
    ∀ declaration ∈ Node.declarations (.mk (.definition target literal isMutable attributes) span),
      reached.Shows options host mode (.member layer space outer) declaration := by
  intro declaration mem
  cases named : target.shape with
  | identifier name =>
      rw [Node.declarations, named] at mem
      obtain rfl := List.mem_singleton.mp mem
      cases isMutable with
      | true =>
          rw [defineMember, named] at ends
          cases not_ends_refuseMember ends
      | false =>
          obtain ⟨valued, attributed, known, defined, value, given, values, gives, names, declares,
            rfl⟩ := (ends_defineMember_ok_iff named).mp ends
          have present := ((layers.later values.keepsBindings).later gives.keepsBindings).later
            names.keepsBindings
          exact ⟨layer, space, outer, value, given, .here, ⟨valued, attributed, gives⟩,
            describes_of_declare named present declares⟩
  | _ =>
      rw [Node.declarations, named] at mem
      cases mem

variable (guests : host.LeavesAttributes)

include guests

/-- The members that are no namespaces are shown when all have been defined. -/
theorem shows_defineMembers {layer : LayerId} {space : String} {members : List Node}
    (layers : world.store.HasLayers (.member layer space outer))
    (ends : (defineMembers outer (.member layer space outer) mode members).Ends options host
      mode.isFree world reached (.ok ())) :
    ∀ declaration ∈ Node.declarationsOf (members.filter fun member => !member.isBlock),
      reached.Shows options host mode (.member layer space outer) declaration := by
  induction members generalizing world with
  | nil => exact nofun
  | cons member rest inductive_step =>
      rcases member with ⟨shape, span⟩
      cases shape with
      | namespaceBlock space members => exact inductive_step layers ends
      | definition target literal isMutable attributes =>
          obtain ⟨between, ⟨⟩, defines, goesOn⟩ := ends_bind_ok_iff.mp ends
          have settles := goesOn.settles guests (closed_defineMembers
            (closed_decoratesFresh mode) decoratesFresh_nameFunction outer
            (.member layer space outer) rest)
          intro declaration mem
          rcases List.mem_append.mp mem with here | later
          · exact (shows_defineMember layers defines declaration here).later settles
          · exact inductive_step (layers.later defines.keepsBindings) goesOn declaration later
      | _ => cases not_ends_refuseMember ends

omit guests
mutual

theorem shows_collectNode (guests : host.LeavesAttributes) (scope : Scope) :
    ∀ (node : Node) {world reached : World}, world.store.HasLayers scope →
      (collectNode mode scope node).Ends options host mode.isFree world reached (.ok ()) →
      ∀ declaration ∈ Node.declarationsOf ([node].filter Node.isBlock),
        reached.Shows options host mode scope declaration
  | .mk shape span, world, reached, layers, ends => by
      cases shape with
      | namespaceBlock space members =>
          obtain ⟨between, ⟨⟩, collects, defines⟩ :=
            ends_bind_ok_iff.mp (ends_perform_bind_iff.mp ends)
          have opened : world.opened.store.HasLayers (world.spaceIn space scope) :=
            World.hasLayers_spaceIn layers
          have settles := defines.settles guests (closed_defineMembers
            (closed_decoratesFresh mode) decoratesFresh_nameFunction scope
            (world.spaceIn space scope) members)
          have declares : Node.declarationsOf
              ([.mk (.namespaceBlock space members) span].filter Node.isBlock) =
                (Node.declarationsOf members).map
                  (Declaration.inside (.of space (Node.declarationsOf members))) :=
            List.append_nil _
          rw [declares]
          refine List.forall_mem_map.mpr fun declaration mem => ?_
          have shown :
              reached.Shows options host mode (world.spaceIn space scope) declaration := by
            rcases List.mem_append.mp ((Node.perm_declarationsOf_isBlock members).mem_iff.mpr mem)
              with nested | direct
            · exact (shows_collect guests (world.spaceIn space scope) members opened collects
                declaration nested).later settles
            · exact shows_defineMembers guests (opened.later collects.keepsBindings) defines
                declaration direct
          exact shown.inside
      | _ => exact nofun

/-- The members of namespaces are shown when these have been collected. -/
theorem shows_collect (guests : host.LeavesAttributes) (scope : Scope) :
    ∀ (nodes : List Node) {world reached : World}, world.store.HasLayers scope →
      (collect mode scope nodes).Ends options host mode.isFree world reached (.ok ()) →
      ∀ declaration ∈ Node.declarationsOf (nodes.filter Node.isBlock),
        reached.Shows options host mode scope declaration
  | [], _, _, _, _ => nofun
  | node :: rest, world, reached, layers, ends => by
      obtain ⟨between, ⟨⟩, collects, goesOn⟩ := ends_bind_ok_iff.mp ends
      have settles := goesOn.settles guests
        (closed_collect (closed_decoratesFresh mode) decoratesFresh_nameFunction scope rest)
      intro declaration mem
      have blocks : (node :: rest).filter Node.isBlock =
          [node].filter Node.isBlock ++ rest.filter Node.isBlock := List.filter_append [node] rest
      rw [blocks, Node.declarationsOf_append] at mem
      rcases List.mem_append.mp mem with here | later
      · exact (shows_collectNode guests scope node layers collects declaration here).later settles
      · exact shows_collect guests scope rest (layers.later collects.keepsBindings) goesOn
          declaration later

end

/--
Where namespaces have been collected, each member has exactly the attributes that it
was given in its own namespace, whatever its value is, but none in the root scope.
-/
theorem attributes_of_members (guests : host.LeavesAttributes) {root : LayerId}
    (present : root.index < world.store.layers.size) {script : List Node}
    (ends : (collect mode (.root root) script).Ends options host mode.isFree world reached (.ok ()))
    {declaration : Declaration}
    (member : declaration ∈ Node.declarationsOf (script.filter Node.isBlock)) :
    ∃ layer space outer value given,
      (Scope.root root).Surrounds declaration.path (.member layer space outer) ∧
      Gives options host mode outer declaration.attributes given ∧
      reached.store.binding? (.member layer space outer) declaration.member =
        some ⟨false, value, given⟩ ∧
      reached.store.binding? (.root root) declaration.name = some ⟨false, value, []⟩ ∧
      (given = [] ↔ declaration.attributes = []) := by
  obtain ⟨layer, space, outer, value, given, surrounds, gives, describes⟩ :=
    shows_collect guests (.root root) script (.of_root present) ends declaration member
  refine ⟨layer, space, outer, value, given, surrounds, gives,
    Store.binding?_of_layer describes.here, ?_, gives.eq_nil_iff⟩
  have ground : outer.ground = root := surrounds.ground_eq
  have spelled : outer.qualifier ++ (space ++ ":" ++ declaration.member) = declaration.name := by
    have qualified := surrounds.qualifier_append declaration.member
    rw [Scope.qualifier, Scope.qualifier, String.empty_append] at qualified
    rw [Declaration.name, ← qualified]
    simp only [String.append_assoc]
  have around := describes.around _ (outer.ground_mem_places (space ++ ":" ++ declaration.member))
  rw [ground, spelled] at around
  exact Store.binding?_of_layer around

/-! ## A member with attributes -/

section Concrete

/-- A member with an attribute, in two namespaces. -/
def labelled : Node :=
  .of (.namespaceBlock "A" [.of (.namespaceBlock "B" [
    .of (.definition (.of (.identifier "x")) (.of (.bool true)) false [("a", .of .null)])])])

/-- The attribute of the member is bound in the inner namespace, but not in the root scope. -/
theorem attributes_of_members_labelled :
    bare.host.LeavesAttributes ∧ 0 < bare.world.store.layers.size ∧
    ∃ reached declaration,
      (collect .asynchronous (.root ⟨0⟩) [labelled]).Ends bare.options bare.host true bare.world
        reached (.ok ()) ∧
      declaration ∈ Node.declarationsOf ([labelled].filter Node.isBlock) ∧
      declaration.name = "A:B:x" ∧
      ∃ layer space outer value given,
        (Scope.root ⟨0⟩).Surrounds declaration.path (.member layer space outer) ∧
        Gives bare.options bare.host .asynchronous outer declaration.attributes given ∧
        reached.store.binding? (.member layer space outer) declaration.member =
          some ⟨false, value, given⟩ ∧
        reached.store.binding? (.root ⟨0⟩) declaration.name = some ⟨false, value, []⟩ ∧
        (given = [] ↔ declaration.attributes = []) := by
  have guests : bare.host.LeavesAttributes := by rintro name forms ⟨⟩
  have present : 0 < bare.world.store.layers.size := by decide
  obtain ⟨result, ends, same⟩ := ends_of_run bare.options bare.host bare.world
    (collect .asynchronous (.root ⟨0⟩) [labelled]) 17 rfl
  cases result with
  | error _ => cases same
  | ok _ =>
      exact ⟨guests, present, _, _, ends, .head _, rfl,
        attributes_of_members guests present ends (.head _)⟩

/--
A member that has been given an attribute, and has it in its namespace, where the
root scope binds it without.
-/
theorem exists_member_without_attributes : ∃ reached,
    (collect .asynchronous (.root ⟨0⟩) [labelled]).Ends bare.options bare.host true bare.world
      reached (.ok ()) ∧
    (reached.store.binding? (.member ⟨2⟩ "B" (.member ⟨1⟩ "A" (.root ⟨0⟩))) "x").map
      Variable.attributes = some [⟨"a", .null⟩] ∧
    (reached.store.binding? (.root ⟨0⟩) "A:B:x").map Variable.attributes = some [] := by
  obtain ⟨result, ends, same⟩ := ends_of_run bare.options bare.host bare.world
    (collect .asynchronous (.root ⟨0⟩) [labelled]) 17 rfl
  cases result with
  | error _ => cases same
  | ok _ => exact ⟨_, ends, rfl, rfl⟩

end Concrete

end Evaluation

end TreeScript
