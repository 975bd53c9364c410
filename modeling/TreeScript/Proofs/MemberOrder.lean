import TreeScript.Proofs.PlainMembers
import TreeScript.Proofs.MemberStatements

/-!
# The order of members

Members that are literals and functions may be given in any order, at each level
of nested namespaces: collecting them succeeds in one order if it succeeds in
another, and then the root scope has the same names, bound to the same literals
or to functions that cannot be told apart (`Evaluation.collects_in_any_order`).

The two orders make layers and functions in different order, so that scopes of
one collection are not scopes of the other.  What can be compared is what names
mean in them: each name that a function reads means in both collections what one
qualified name means in the root scope.
-/

namespace TreeScript

open Rule

variable {options : Options} {host : Host} {mode : Mode}
variable {world world' reached reached' : World} {root root' : LayerId}

/-! ## Other orders of members -/

namespace Node

variable {nodes others : List Node}

/-- Whether nodes can be members does not depend on their order. -/
theorem Reordered.forall_isMember (reordered : Reordered nodes others)
    (each : ∀ node ∈ nodes, node.IsMember) : ∀ node ∈ others, node.IsMember :=
  reordered.forall_mem (fun within block =>
    isMember_block_iff.mpr (within (isMember_block_iff.mp block))) each

/-- Whether nodes are plain does not depend on their order. -/
theorem Reordered.forall_isPlain (reordered : Reordered nodes others)
    (each : ∀ node ∈ nodes, node.IsPlain) : ∀ node ∈ others, node.IsPlain := by
  refine reordered.forall_mem (fun within block => ?_) each
  cases block with
  | block each => exact .block (within each)
  | other kind => exact (kind (.head _)).elim

theorem forall_mem_isBlock_iff {holds : Node → Prop} :
    (∀ node ∈ nodes, node.isBlock = true → holds node) ↔
      ∀ node ∈ nodes.filter isBlock, holds node := by
  simp only [List.mem_filter, and_imp]

end Node

/-! ## Comparing collections -/

namespace Store

/-- Each name means in scopes of two stores what one name means in their root layers. -/
structure ResolvesAlike (store store' : Store) (root root' : LayerId) (scope scope' : Scope) :
    Prop where
  binds : ∀ name, ∃ qualified,
    store.binding? scope name = (store.bindings root).find? qualified ∧
      store'.binding? scope' name = (store'.bindings root').find? qualified
  reads : ∀ name, ∃ qualified,
    store.lookup? scope name = (store.bindings root).find? qualified ∧
      store'.lookup? scope' name = (store'.bindings root').find? qualified

/--
The values of a member in two stores: the same literal, or functions that have the
name of the member and its definition, in scopes where names mean the same.  While
evaluation is stopped, there is nothing.
-/
inductive SameMember (store store' : Store) (root root' : LayerId) (isStopped : Bool)
    (declaration : Declaration) : Value → Value → Prop where
  | nothing (stopped : isStopped = true) :
      SameMember store store' root root' isStopped declaration .null .null
  | literal {value : Value} (literal : declaration.value.shape.literal? = some value) :
      SameMember store store' root root' isStopped declaration value value
  | function {function function' : FunctionId} {parameters : List Parameter} {body : List Node}
      {scope scope' : Scope} (shape : declaration.value.shape = .function parameters body)
      (made : store.function? function = some ⟨some declaration.name, [],
        .closure parameters (parameters.map Parameter.constantFallback) body scope⟩)
      (made' : store'.function? function' = some ⟨some declaration.name, [],
        .closure parameters (parameters.map Parameter.constantFallback) body scope'⟩)
      (resolves : store.ResolvesAlike store' root root' scope scope') :
      SameMember store store' root root' isStopped declaration (.fn function) (.fn function')

/-- Declarations make the same members in scopes where names mean the same. -/
theorem SameMember.of_makes {store store' : Store} {isStopped : Bool} {declaration : Declaration}
    {inner inner' : Scope} {value value' : Value}
    (named : inner.qualifier ++ declaration.member = declaration.name)
    (named' : inner'.qualifier ++ declaration.member = declaration.name)
    (makes : store.Makes isStopped inner declaration value)
    (makes' : store'.Makes isStopped inner' declaration value')
    (resolves : store.ResolvesAlike store' root root' inner inner') :
    store.SameMember store' root root' isStopped declaration value value' := by
  cases makes with
  | nothing stopped =>
      cases makes' with
      | nothing _ => exact .nothing stopped
      | literal running _ | function running _ _ => cases stopped.symm.trans running
  | literal running literal =>
      cases makes' with
      | nothing stopped => cases stopped.symm.trans running
      | literal _ literal' =>
          cases literal.symm.trans literal'
          exact .literal literal
      | function _ shape _ =>
          rw [shape] at literal
          cases literal
  | function running shape made =>
      cases makes' with
      | nothing stopped => cases stopped.symm.trans running
      | literal _ literal =>
          rw [shape] at literal
          cases literal
      | function _ shape' made' =>
          cases shape.symm.trans shape'
          exact .function shape (named ▸ made) (named' ▸ made') resolves

/-- Where names are bound alike and the same names are bound in the root layers, they are read
alike. -/
theorem BindsAlike.resolvesAlike {store store' : Store} {scope scope' : Scope}
    (alike : store.BindsAlike store' scope scope') (qualifier : scope.qualifier = scope'.qualifier)
    (same : ∀ name, ((store.bindings scope.ground).find? name).isSome =
      ((store'.bindings scope'.ground).find? name).isSome) :
    store.ResolvesAlike store' scope.ground scope'.ground scope scope' where
  binds := alike
  reads name := by
    obtain ⟨near, here, there⟩ := alike name
    obtain ⟨afar, here', there'⟩ := alike (scope.qualifier ++ name)
    rw [lookup?, lookup?, ← qualifier, here, there, here', there']
    -- Both scopes find the name as it is spelled, or both go on to its qualified spelling.
    cases found : ((store.bindings scope.ground).find? near).isSome with
    | true =>
        refine ⟨near, Option.or_of_isSome found, Option.or_of_isSome ?_⟩
        exact (same near).symm.trans found
    | false =>
        have missing := Option.isSome_eq_false_iff.mp found
        have missing' := Option.isSome_eq_false_iff.mp ((same near).symm.trans found)
        rw [Option.isNone_iff_eq_none] at missing missing'
        rw [missing, missing', Option.none_or, Option.none_or]
        split
        · exact ⟨near, missing.symm, missing'.symm⟩
        · exact ⟨afar, rfl, rfl⟩

end Store

namespace World

/-- Worlds that have the same bindings in their root layers, and can go on for as long. -/
structure BeginAlike (world world' : World) (root root' : LayerId) : Prop where
  present : root.index < world.store.layers.size
  present' : root'.index < world'.store.layers.size
  bindings : ∀ name,
    (world.store.bindings root).find? name = (world'.store.bindings root').find? name
  steps : world.steps = world'.steps
  lifecycle : world.lifecycle = world'.lifecycle

/--
From two worlds the same has been collected: exactly the declared names are new in
the root scopes, where they are bound for good to the same members.
-/
structure CollectAlike (declarations : List Declaration) (root root' : LayerId)
    (world reached world' reached' : World) : Prop where
  declared : ∀ declaration ∈ declarations, ∃ value value',
    (world.store.bindings root).find? declaration.name = none ∧
    (world'.store.bindings root').find? declaration.name = none ∧
    (reached.store.bindings root).find? declaration.name = some (.plain false value) ∧
    (reached'.store.bindings root').find? declaration.name = some (.plain false value') ∧
    reached.store.SameMember reached'.store root root' world.lifecycle.isStopped declaration
      value value'
  others : ∀ name, (∀ declaration ∈ declarations, declaration.name ≠ name) →
    (reached.store.bindings root).find? name = (world.store.bindings root).find? name ∧
      (reached'.store.bindings root').find? name = (world'.store.bindings root').find? name

namespace Declares

variable {declarations : List Declaration}

/-- What is declared in a root scope is new there. -/
theorem root_declared (declares : Declares (.root root) declarations world reached)
    {declaration : Declaration} (mem : declaration ∈ declarations) : ∃ inner value,
    reached.store.Nests (.root root) declaration.path inner ∧
      reached.store.Makes world.lifecycle.isStopped inner declaration value ∧
      (world.store.bindings root).find? declaration.name = none ∧
      (reached.store.bindings root).find? declaration.name = some (.plain false value) := by
  obtain ⟨inner, value, nests, makes, bound⟩ := declares.bound declaration mem
  exact ⟨inner, value, nests, makes,
    declares.room.2 _ (List.mem_map_of_mem mem) (root, declaration.name) (.head _),
    bound (root, declaration.name) (.head _)⟩

/-- What is not declared in a root scope stays as it is. -/
theorem root_others (declares : Declares (.root root) declarations world reached)
    (present : root.index < world.store.layers.size) {name : String}
    (other : ∀ declaration ∈ declarations, declaration.name ≠ name) :
    (reached.store.bindings root).find? name = (world.store.bindings root).find? name := by
  refine declares.kept root name present fun declaration mem placed => ?_
  cases List.mem_singleton.mp placed
  exact other declaration mem rfl

/-- From root scopes that bind the same names, the same names are bound in the end. -/
theorem isSome_find?_root (begins : world.BeginAlike world' root root')
    (declares : Declares (.root root) declarations world reached)
    (declares' : Declares (.root root') declarations world' reached') (name : String) :
    ((reached.store.bindings root).find? name).isSome =
      ((reached'.store.bindings root').find? name).isSome := by
  by_cases declared : ∃ declaration ∈ declarations, declaration.name = name
  · obtain ⟨declaration, mem, rfl⟩ := declared
    obtain ⟨_, _, -, -, -, bound⟩ := declares.root_declared mem
    obtain ⟨_, _, -, -, -, bound'⟩ := declares'.root_declared mem
    rw [bound, bound']
    rfl
  · have other : ∀ declaration ∈ declarations, declaration.name ≠ name :=
      fun declaration mem same => declared ⟨declaration, mem, same⟩
    rw [declares.root_others begins.present other, declares'.root_others begins.present' other,
      begins.bindings]

/-- What is declared in two root scopes is declared alike. -/
theorem collectAlike (begins : world.BeginAlike world' root root')
    (declares : Declares (.root root) declarations world reached)
    (declares' : Declares (.root root') declarations world' reached') :
    CollectAlike declarations root root' world reached world' reached' where
  declared declaration mem := by
    obtain ⟨inner, value, nests, makes, missing, bound⟩ := declares.root_declared mem
    obtain ⟨inner', value', nests', makes', missing', bound'⟩ := declares'.root_declared mem
    have rooted : reached.store.BindsAlike reached'.store (.root root) (.root root') := by
      exact fun name => ⟨name, Store.binding?_root _ root name, Store.binding?_root _ root' name⟩
    have ground : inner.ground = root := nests.surrounds.ground_eq
    have ground' : inner'.ground = root' := nests'.surrounds.ground_eq
    have resolves : reached.store.ResolvesAlike reached'.store root root' inner inner' := by
      have binds := nests.bindsAlike nests' rfl rooted
      have same := isSome_find?_root begins declares declares'
      rw [← ground, ← ground'] at same ⊢
      exact binds.resolvesAlike (nests.surrounds.qualifier_eq nests'.surrounds rfl) same
    rw [← begins.lifecycle] at makes'
    refine ⟨value, value', missing, missing', bound, bound', ?_⟩
    refine .of_makes ?_ ?_ makes makes' resolves
    · rw [nests.surrounds.qualifier_append, Scope.qualifier, String.empty_append, Declaration.name]
    · rw [nests'.surrounds.qualifier_append, Scope.qualifier, String.empty_append, Declaration.name]
  others name other :=
    ⟨declares.root_others begins.present fun declaration mem => other declaration mem,
      declares'.root_others begins.present' fun declaration mem => other declaration mem⟩

end Declares

end World

namespace Evaluation

/--
The members of namespaces may be reordered at each level, where they are literals
and functions without fallbacks and attributes: collecting them succeeds in both
orders or in none, and if it succeeds, the same has been collected.
-/
theorem collects_in_any_order {script script' : List Node}
    (plain : ∀ node ∈ script, node.isBlock = true → node.IsPlain)
    (reordered : Node.Reordered script script') (begins : world.BeginAlike world' root root') :
    ((∃ reached, (collect mode (.root root) script).Ends options host mode.isFree world reached
        (.ok ())) ↔
      ∃ reached', (collect mode (.root root') script').Ends options host mode.isFree world'
        reached' (.ok ())) ∧
    ∀ {reached reached' : World},
      (collect mode (.root root) script).Ends options host mode.isFree world reached (.ok ()) →
      (collect mode (.root root') script').Ends options host mode.isFree world' reached'
        (.ok ()) →
      World.CollectAlike (Node.declarationsOf (script.filter Node.isBlock)) root root' world
        reached world' reached' := by
  have perm : (Node.declarationsOf (script.filter Node.isBlock)).Perm
      (Node.declarationsOf (script'.filter Node.isBlock)) := reordered.filter_isBlock.perm
  have plain' : ∀ node ∈ script', node.isBlock = true → node.IsPlain :=
    Node.forall_mem_isBlock_iff.mpr
      (reordered.filter_isBlock.forall_isPlain (Node.forall_mem_isBlock_iff.mp plain))
  have valid : (∀ node ∈ script', node.isBlock = true → node.IsMember) ↔
      ∀ node ∈ script, node.isBlock = true → node.IsMember := by
    rw [Node.forall_mem_isBlock_iff, Node.forall_mem_isBlock_iff]
    exact ⟨reordered.filter_isBlock.symm.forall_isMember,
      reordered.filter_isBlock.forall_isMember⟩
  have collects : (collect mode (.root root) script).Collects options host mode (.root root)
      (∀ node ∈ script, node.isBlock = true → node.IsMember)
      (Node.declarationsOf (script.filter Node.isBlock)) :=
    collects_collect (.root root) script plain
  have collects' : (collect mode (.root root') script').Collects options host mode (.root root')
      (∀ node ∈ script, node.isBlock = true → node.IsMember)
      (Node.declarationsOf (script.filter Node.isBlock)) :=
    (collects_collect (.root root') script' plain').congr valid.symm perm.symm
  have room : world.store.HasRoom (.root root)
        ((Node.declarationsOf (script.filter Node.isBlock)).map Declaration.name) ↔
      world'.store.HasRoom (.root root')
        ((Node.declarationsOf (script.filter Node.isBlock)).map Declaration.name) := by
    refine and_congr_right' (forall₂_congr fun name _ => ?_)
    show (∀ place ∈ [(root, name)], _) ↔ ∀ place ∈ [(root', name)], _
    rw [List.forall_mem_singleton, List.forall_mem_singleton, begins.bindings]
  have affords {count : Nat} : world.Affords options mode count ↔
      world'.Affords options mode count := by
    rw [World.Affords, World.Affords, begins.lifecycle, begins.steps]
  refine ⟨?_, fun ends ends' => ?_⟩
  · rw [collects.ends_iff (.of_root begins.present), collects'.ends_iff (.of_root begins.present'),
      room, affords]
  · exact (collects.declares (.of_root begins.present) ends).collectAlike begins
      (collects'.declares (.of_root begins.present') ends')

/-! ## Two orders -/

section Concrete

/-- A function without parameters that reads a name. -/
def reading (name : String) : Node :=
  .of (.function [] [.of (.identifier name)])

/-- The definition of a member. -/
def constantOf (name : String) (value : Node) : Node :=
  .of (.definition (.of (.identifier name)) value false [])

/-- Two namespaces, with functions that read what is defined behind them. -/
def readingAhead : List Node := [
  .of (.namespaceBlock "A" [
    constantOf "f" (reading "y"),
    .of (.namespaceBlock "B" [constantOf "g" (reading "x"), constantOf "x" (.of (.str "x"))]),
    constantOf "y" (.of (.bool true))])]

/-- The same namespaces, with functions that read what is defined in front of them. -/
def readingBack : List Node := [
  .of (.namespaceBlock "A" [
    constantOf "y" (.of (.bool true)),
    .of (.namespaceBlock "B" [constantOf "x" (.of (.str "x")), constantOf "g" (reading "x")]),
    constantOf "f" (reading "y")])]

/-- It makes no difference whether functions read ahead or back. -/
theorem collects_in_any_order_reversed :
    (∀ node ∈ readingAhead, node.isBlock = true → node.IsPlain) ∧
    Node.Reordered readingAhead readingBack ∧
    bare.world.BeginAlike bare.world ⟨0⟩ ⟨0⟩ ∧
    ∃ reached reached',
      (collect .asynchronous (.root ⟨0⟩) readingAhead).Ends bare.options bare.host true bare.world
        reached (.ok ()) ∧
      (collect .asynchronous (.root ⟨0⟩) readingBack).Ends bare.options bare.host true bare.world
        reached' (.ok ()) ∧
      World.CollectAlike (Node.declarationsOf (readingAhead.filter Node.isBlock)) ⟨0⟩ ⟨0⟩
        bare.world reached bare.world reached' := by
  have constant {name : String} {value : Node} (plain : value.shape.isPlain = true) :
      (constantOf name value).IsPlain := .definition plain
  have plain : ∀ node ∈ readingAhead, node.isBlock = true → node.IsPlain := by
    refine List.forall_mem_singleton.mpr fun _ => .block ?_
    refine List.forall_mem_cons.mpr ⟨constant rfl, List.forall_mem_cons.mpr ⟨.block ?_,
      List.forall_mem_singleton.mpr (constant rfl)⟩⟩
    exact List.forall_mem_cons.mpr ⟨constant rfl, List.forall_mem_singleton.mpr (constant rfl)⟩
  have reordered : Node.Reordered readingAhead readingBack := by
    refine .nested "A" _ (.trans (.keep _ (.nested "B" _ (.swap _ _ []) (.refl _))) ?_) .nil
    exact .of_perm (List.reverse_perm _).symm
  have begins : bare.world.BeginAlike bare.world ⟨0⟩ ⟨0⟩ :=
    ⟨by decide, by decide, fun _ => rfl, rfl, rfl⟩
  have valid : ∀ node ∈ readingAhead, node.isBlock = true → node.IsMember := by
    have each {name : String} {value : Node} : (constantOf name value).IsMember := .constant rfl
    refine List.forall_mem_singleton.mpr fun _ => .block ?_
    refine List.forall_mem_cons.mpr ⟨each, List.forall_mem_cons.mpr ⟨.block ?_,
      List.forall_mem_singleton.mpr each⟩⟩
    exact List.forall_mem_cons.mpr ⟨each, List.forall_mem_singleton.mpr each⟩
  have room : bare.world.store.HasRoom (.root ⟨0⟩)
      ((Node.declarationsOf (readingAhead.filter Node.isBlock)).map Declaration.name) :=
    ⟨by decide, by decide⟩
  have collects : (collect .asynchronous (.root ⟨0⟩) readingAhead).Collects bare.options bare.host
      .asynchronous (.root ⟨0⟩) (∀ node ∈ readingAhead, node.isBlock = true → node.IsMember)
      (Node.declarationsOf (readingAhead.filter Node.isBlock)) :=
    collects_collect (.root ⟨0⟩) readingAhead plain
  obtain ⟨reached, ends⟩ := (collects.ends_iff (.of_root begins.present)).mpr
    ⟨valid, room, .inr (.inr ⟨fun _ => rfl, .inl rfl⟩)⟩
  obtain ⟨inBoth, alike⟩ := collects_in_any_order plain reordered begins
  obtain ⟨reached', ends'⟩ := inBoth.mp ⟨reached, ends⟩
  exact ⟨plain, reordered, begins, reached, reached', ends, ends', alike ends ends'⟩

end Concrete

end Evaluation

end TreeScript
