import TreeScript.Proofs.Bisimilarity
import TreeScript.Proofs.FailedDefinitions
import TreeScript.Proofs.Slots

/-!
# What is visible in a scope

Scopes share layers.  A name that is looked up in a scope is found in one slot of
one layer: the slot of the innermost binding of the name or, failing that, of its
qualified form (`Store.resolve?`).  An assignment changes what one slot holds and
nothing else, so that it is seen by exactly those lookups, from whatever scope, that
come to this slot.  A definition fills slots of layers that scopes further inside
have as well; there it is seen unless a nearer layer binds the name:
`ScopeTree.layers_are_shared`.

The list of all names of a scope is made from the outermost layer inwards, while a
lookup goes from the innermost layer outwards.  `ScopeTree.visible_agrees` says that
they agree.
-/

namespace TreeScript

namespace Dict

variable {α : Type}

theorem find?_foldl_insert_of_not_mem {entries : List (String × α)} {name : String}
    (absent : name ∉ entries.map Prod.fst) (dict : Dict α) :
    (entries.foldl (fun dict entry => dict.insert entry.1 entry.2) dict).find? name =
      dict.find? name := by
  induction entries generalizing dict with
  | nil => rfl
  | cons entry rest inductive_step =>
      rw [List.map_cons, List.mem_cons, not_or] at absent
      rw [List.foldl_cons, inductive_step absent.2, find?_insert_of_ne dict entry.2 absent.1]

/-- Of entries with different names each one counts. -/
theorem find?_foldl_insert_of_mem {entries : List (String × α)} {name : String} {value : α}
    (sorted : SortedEntries entries) (mem : (name, value) ∈ entries) (dict : Dict α) :
    (entries.foldl (fun dict entry => dict.insert entry.1 entry.2) dict).find? name =
      some value := by
  induction entries generalizing dict with
  | nil => cases mem
  | cons entry rest inductive_step =>
      rw [SortedEntries, List.pairwise_cons] at sorted
      rw [List.foldl_cons]
      rcases List.mem_cons.mp mem with rfl | later
      · have absent : name ∉ rest.map Prod.fst := by
          intro again
          rcases List.mem_map.mp again with ⟨other, inside, same⟩
          have less : name < other.1 := sorted.1 other inside
          rw [same] at less
          exact String.lt_irrefl name less
        rw [find?_foldl_insert_of_not_mem absent, find?_insert_self]
      · exact inductive_step sorted.2 later _

end Dict

namespace Store

variable {α : Type}

/-! ## All names of a scope -/

/-- What is laid over a dictionary hides what is below. -/
theorem find?_overlay (below above : Dict α) (name : String) :
    (overlay below above).find? name = (above.find? name).or (below.find? name) := by
  cases found : above.find? name with
  | some value =>
      have mem : (name, value) ∈ above.entries := (above.mem_entries_iff name value).mpr found
      rw [overlay, Dict.find?_foldl_insert_of_mem above.sorted_entries mem, Option.some_or]
  | none =>
      have absent : name ∉ above.entries.map Prod.fst := by
        simp [above.mem_names_iff, found]
      rw [overlay, Dict.find?_foldl_insert_of_not_mem absent, Option.none_or]

/-- Collecting from the outermost layer inwards finds what looking up from the innermost does. -/
theorem find?_visibleIn (store : Store) (layers : List LayerId) (name : String) :
    (store.visibleIn layers).find? name = (store.findBinding? name layers).map Prod.snd := by
  induction layers with
  | nil => exact Dict.find?_empty name
  | cons layer outer inductive_step =>
      rw [visibleIn, find?_overlay, inductive_step, findBinding?]
      cases (store.bindings layer).find? name <;> rfl

theorem mem_visible_iff (store : Store) (scope : Scope) (name : String) (value : Value) :
    (name, value) ∈ store.visible scope ↔
      ∃ found, store.binding? scope name = some found ∧ found.value = value := by
  rw [visible, List.mem_map]
  constructor
  · rintro ⟨⟨_, found⟩, mem, ⟨⟩⟩
    rw [Dict.mem_entries_iff, find?_visibleIn] at mem
    exact ⟨found, mem, rfl⟩
  · rintro ⟨found, bound, rfl⟩
    refine ⟨(name, found), ?_, rfl⟩
    rw [Dict.mem_entries_iff, find?_visibleIn]
    exact bound

theorem sortedEntries_visible (store : Store) (scope : Scope) :
    SortedEntries (store.visible scope) :=
  List.pairwise_map.mpr (store.visibleIn scope.layers).sorted_entries

/-! ## Slots of names -/

/-- The slot of the innermost binding of a name. -/
def seat? (store : Store) (scope : Scope) (name : String) : Option Slot :=
  (store.findBinding? name scope.layers).map fun place => (place.1, name)

/-- The slot that reading a name finds: that of the name itself or else of its qualified form. -/
def resolve? (store : Store) (scope : Scope) (name : String) : Option Slot :=
  (store.seat? scope name).or
    (if scope.qualifier.isEmpty then none else store.seat? scope (scope.qualifier ++ name))

theorem binding?_eq_bind (store : Store) (scope : Scope) (name : String) :
    store.binding? scope name = (store.seat? scope name).bind store.held? := by
  rw [binding?, seat?]
  cases found : store.findBinding? name scope.layers with
  | none => rfl
  | some place => exact (find?_of_findBinding? found).symm

theorem isSome_binding? (store : Store) (scope : Scope) (name : String) :
    (store.binding? scope name).isSome = (store.seat? scope name).isSome := by
  rw [binding?, seat?, Option.isSome_map, Option.isSome_map]

/-- To read a name is to look into the slot that it resolves to. -/
theorem lookup?_eq_bind (store : Store) (scope : Scope) (name : String) :
    store.lookup? scope name = (store.resolve? scope name).bind store.held? := by
  have near := store.isSome_binding? scope name
  rw [lookup?, resolve?, store.binding?_eq_bind scope (scope.qualifier ++ name)]
  rw [binding?_eq_bind] at near ⊢
  cases found : store.seat? scope name with
  | none =>
      rw [Option.bind_none, Option.none_or, Option.none_or]
      split <;> rfl
  | some slot =>
      rw [found] at near
      obtain ⟨bound, held⟩ := Option.isSome_iff_exists.mp near
      rw [held, Option.some_or, Option.some_or, ← held]

/-- The layers in front are looked through first. -/
theorem findBinding?_append (store : Store) (name : String) (nearer outer : List LayerId) :
    store.findBinding? name (nearer ++ outer) =
      (store.findBinding? name nearer).or (store.findBinding? name outer) := by
  induction nearer with
  | nil => rfl
  | cons layer rest inductive_step =>
      rw [List.cons_append, findBinding?, findBinding?, inductive_step]
      cases (store.bindings layer).find? name <;> rfl

theorem findBinding?_congr {before after : Store} {name : String} {layers : List LayerId}
    (same : ∀ layer ∈ layers, after.held? (layer, name) = before.held? (layer, name)) :
    after.findBinding? name layers = before.findBinding? name layers := by
  induction layers with
  | nil => rfl
  | cons layer outer inductive_step =>
      rw [List.forall_mem_cons] at same
      have here : (after.bindings layer).find? name = (before.bindings layer).find? name := same.1
      rw [findBinding?, findBinding?, inductive_step same.2, here]

/-- Names resolve to slots by which slots are filled, whatever is in them. -/
theorem seat?_congr {before after : Store}
    (filled : ∀ slot, (after.held? slot).isSome = (before.held? slot).isSome)
    (scope : Scope) (name : String) :
    after.seat? scope name = before.seat? scope name := by
  rw [seat?, seat?]
  induction scope.layers with
  | nil => rfl
  | cons layer outer inductive_step =>
      have here := filled (layer, name)
      simp only [held?] at here
      rw [findBinding?, findBinding?]
      cases found : (before.bindings layer).find? name with
      | none =>
          rw [found, Option.isSome_none, Option.isSome_eq_false_iff, Option.isNone_iff_eq_none]
            at here
          rw [here]
          exact inductive_step
      | some old =>
          rw [found, Option.isSome_some] at here
          obtain ⟨new, here⟩ := Option.isSome_iff_exists.mp here
          rw [here]
          rfl

/-! ## When one slot gets another binding -/

namespace Receives

variable {before after : Store} {slot : Slot} {old new : Variable}
variable (received : before.Receives after [(slot, new)]) (held : before.held? slot = some old)

include received

theorem held?_eq (other : Slot) :
    after.held? other = if other = slot then some new else before.held? other := by
  split
  · subst other
    exact received.holds (slot, new) List.mem_cons_self
  · apply received.others
    simpa

/-- What is found in a place is the new binding if the place is the slot that has got it. -/
theorem bind_held?_eq (place : Option Slot) :
    place.bind after.held? = if place = some slot then some new else place.bind before.held? := by
  cases place with
  | none => rfl
  | some other => simp [received.held?_eq]

include held

theorem filled (other : Slot) : (after.held? other).isSome = (before.held? other).isSome := by
  rw [received.held?_eq]
  split
  · subst other
    simp [held]
  · rfl

theorem seat?_eq (scope : Scope) (name : String) :
    after.seat? scope name = before.seat? scope name :=
  seat?_congr (received.filled held) scope name

theorem resolve?_eq (scope : Scope) (name : String) :
    after.resolve? scope name = before.resolve? scope name := by
  rw [resolve?, resolve?, received.seat?_eq held, received.seat?_eq held]

/-- A lookup finds the new binding if it comes to the slot, and otherwise what it found before. -/
theorem lookup?_eq (scope : Scope) (name : String) :
    after.lookup? scope name =
      if before.resolve? scope name = some slot then some new else before.lookup? scope name := by
  rw [lookup?_eq_bind, lookup?_eq_bind, received.resolve?_eq held, received.bind_held?_eq]

theorem binding?_eq_ite (scope : Scope) (name : String) :
    after.binding? scope name =
      if before.seat? scope name = some slot then some new else before.binding? scope name := by
  rw [binding?_eq_bind, binding?_eq_bind, received.seat?_eq held, received.bind_held?_eq]

end Receives

end Store

namespace ScopeTree

/--
All names of a scope, as a list and as lookups see them: the list has each name that
is bound once, in the order of the names, with the value that reading it gives,
whatever hides what in whatever layer.
-/
theorem visible_agrees (tree : ScopeTree) (scope : Scope) :
    let listed := tree.world.store.visible scope
    SortedEntries listed ∧
    (∀ name, name ∈ listed.map Prod.fst ↔ tree.world.store.isBound scope name = true) ∧
    ∀ name value, (name, value) ∈ listed ↔
      tree.world.store.isBound scope name = true ∧
        (tree.perform scope (.get name)).1 = .value value := by
  intro listed
  refine ⟨tree.world.store.sortedEntries_visible scope, ?_, ?_⟩
  · intro name
    rw [Store.isBound, Option.isSome_iff_exists, List.mem_map]
    constructor
    · rintro ⟨⟨_, value⟩, mem, rfl⟩
      obtain ⟨found, bound, -⟩ := (Store.mem_visible_iff _ _ _ _).mp mem
      exact ⟨found, bound⟩
    · rintro ⟨found, bound⟩
      exact ⟨(name, found.value), (Store.mem_visible_iff _ _ _ _).mpr ⟨found, bound, rfl⟩, rfl⟩
  · intro name value
    rw [Store.mem_visible_iff, fst_perform_get, Store.isBound, Store.lookup?]
    cases tree.world.store.binding? scope name with
    | none => simp
    | some found => simp

/-! ## What scopes answer -/

/-- What a scope answers when it is asked about a name. -/
structure Answers where
  /-- What reading the name gives. -/
  read : ScopeResult
  /-- Whether the name is bound. -/
  isBound : Bool
  /-- The attributes of its binding. -/
  attributes : Option (List Attribute)

/-- What a scope of a tree answers about a name. -/
def answers (tree : ScopeTree) (scope : Scope) (name : String) : Answers where
  read := (tree.perform scope (.get name)).1
  isBound := tree.world.store.isBound scope name
  attributes := (tree.world.store.binding? scope name).map Variable.attributes

variable {tree after : ScopeTree} {scope : Scope} {name : String}

theorem answers_of_store (same : after.world.store = tree.world.store) (scope : Scope)
    (name : String) : after.answers scope name = tree.answers scope name := by
  rw [answers, answers, fst_perform_get, fst_perform_get, same]

/-- A binding with another value changes what is read, and only where the slot is read. -/
theorem answers_of_receives {slot : Slot} {found : Variable} {value : Value}
    (held : tree.world.store.held? slot = some found)
    (received : tree.world.store.Receives after.world.store
      [(slot, { found with value := value })]) (scope : Scope) (name : String) :
    after.answers scope name =
      if tree.world.store.resolve? scope name = some slot then
        { tree.answers scope name with read := .value value }
      else tree.answers scope name := by
  have attributes : (after.world.store.binding? scope name).map Variable.attributes =
      (tree.world.store.binding? scope name).map Variable.attributes := by
    rw [received.binding?_eq_ite held]
    split
    · rename_i here
      rw [Store.binding?_eq_bind, here, Option.bind_some, held]
      rfl
    · rfl
  have bound : after.world.store.isBound scope name = tree.world.store.isBound scope name := by
    rw [Store.isBound, Store.isBound, ← Option.isSome_map, attributes, Option.isSome_map]
  rw [answers, attributes, bound, fst_perform_get, received.lookup?_eq held, answers,
    fst_perform_get]
  by_cases here : tree.world.store.resolve? scope name = some slot
  · rw [if_pos here, if_pos here]
  · rw [if_neg here, if_neg here]

theorem answers_of_binding? {found : Variable}
    (bound : tree.world.store.binding? scope name = some found) :
    tree.answers scope name = ⟨.value found.value, true, some found.attributes⟩ := by
  rw [answers, fst_perform_get, Store.lookup?, Store.isBound, bound]
  rfl

/-! ## Assignments -/

/-- An assignment puts the value into the slot of the name, or it fails and changes no layer. -/
theorem assign_cases (tree : ScopeTree) (scope : Scope) (name : String) (value : Value) :
    (∃ slot found, tree.world.store.seat? scope name = some slot ∧
      tree.world.store.held? slot = some found ∧ found.isMutable = true ∧
      (tree.perform scope (.assign name value)).1 = .silent ∧
      tree.world.store.Receives (tree.perform scope (.assign name value)).2.world.store
        [(slot, { found with value := value })]) ∨
    ((∀ slot found, tree.world.store.seat? scope name = some slot →
        tree.world.store.held? slot = some found → found.isMutable = false) ∧
      (∃ error, (tree.perform scope (.assign name value)).1 = .failed error) ∧
      (tree.perform scope (.assign name value)).2.world.store = tree.world.store) := by
  have logged := World.store_log tree.options "var:write" (some scope.name) (some name)
    (some value) tree.world
  have ran := Edit.run_assign tree.options scope name value tree.world
  rw [perform, edit_snd, edit_fst, ran, Store.seat?]
  cases found : tree.world.store.findBinding? name scope.layers with
  | none =>
      right
      refine ⟨?_, ⟨_, rfl⟩, logged⟩
      intro slot given missing
      cases missing
  | some place =>
      have held : tree.world.store.held? (place.1, name) = some place.2 :=
        Store.find?_of_findBinding? found
      cases mutable : place.2.isMutable with
      | false =>
          right
          refine ⟨?_, ?_, ?_⟩
          · rintro _ _ ⟨⟩ also
            cases held.symm.trans also
            exact mutable
          · simp [mutable]
          · simp [mutable, logged]
      | true =>
          left
          refine ⟨(place.1, name), place.2, rfl, held, mutable, ?_, ?_⟩
          · simp [mutable]
          · simp only [mutable, if_true]
            exact .hold logged _ _ (Store.index_lt_of_find?_bindings held)

end ScopeTree

/-! ## Definitions -/

namespace Scope

theorem length_le_of_registration (scope : Scope) {name : String} {place : Scope × String}
    (mem : place ∈ scope.registrations name) : name.length ≤ place.2.length := by
  induction scope generalizing name with
  | root layer | child layer outer =>
      rw [registrations, List.mem_singleton] at mem
      rw [mem]
  | member layer space outer inductive_step =>
      rw [registrations, List.mem_cons] at mem
      rcases mem with rfl | around
      · exact Nat.le_refl _
      · have longer := inductive_step around
        simp only [String.length_append] at longer
        omega

/-- The places of a definition all have names of their own. -/
theorem eq_of_registration (scope : Scope) {name : String} {place other : Scope × String}
    (mem : place ∈ scope.registrations name) (memOther : other ∈ scope.registrations name)
    (same : other.2 = place.2) : other = place := by
  induction scope generalizing name with
  | root layer | child layer outer =>
      rw [registrations, List.mem_singleton] at mem memOther
      rw [mem, memOther]
  | member layer space outer inductive_step =>
      have longer {place : Scope × String}
          (around : place ∈ outer.registrations (space ++ ":" ++ name)) :
          name.length < place.2.length := by
        have := outer.length_le_of_registration around
        simp only [String.length_append] at this
        have colon : ":".length = 1 := rfl
        omega
      rw [registrations, List.mem_cons] at mem memOther
      rcases mem with rfl | around
      · rcases memOther with rfl | aroundToo
        · rfl
        · have := longer aroundToo
          rw [same] at this
          exact absurd this (Nat.lt_irrefl _)
      · rcases memOther with rfl | aroundToo
        · have := longer around
          rw [← same] at this
          exact absurd this (Nat.lt_irrefl _)
        · exact inductive_step around aroundToo

end Scope

namespace ScopeTree

section Definitions

variable {options : Options} {store : Store} {bindings : Dict Variable} {tree after : ScopeTree}
variable {scope inner : Scope} {name : String} {bound : Variable} {place : Scope × String}
variable {nearer : List LayerId}

/--
A definition is seen from all scopes inside of those in which it is registered, unless
a layer in between binds the name that it has there; then nothing changes for them.
-/
theorem answers_of_added (grown : (root options store bindings).Leads tree)
    (present : scope ∈ tree.scopes)
    (added : tree.perform scope (.add name bound) = (.silent, after))
    (registered : place ∈ scope.registrations name)
    (inside : inner ∈ tree.scopes)
    (layers : inner.layers = nearer ++ place.1.layers) :
    after.answers inner place.2 =
      if ∃ layer ∈ nearer, (tree.world.store.held? (layer, place.2)).isSome then
        tree.answers inner place.2
      else ⟨.value bound.value, true, some bound.attributes⟩ := by
  have rooted := isRooted_root options store bindings
  have within := grown.isRooted rooted scope present
  have distinct := grown.isLayered rooted (isLayered_root options store bindings) inner inside
  obtain ⟨⟨⟩, ran⟩ := exists_ok_of_edit _ _ (fun _ => ScopeResult.noConfusion) added
  obtain ⟨-, -, filled⟩ := Edit.register_ok tree.options
    (fun other mem => within _ (scope.layer_mem_of_registration mem)) ran
  have kept : ∀ layer ∈ nearer,
      after.world.store.held? (layer, place.2) = tree.world.store.held? (layer, place.2) := by
    intro layer near
    refine (filled layer place.2).trans (if_neg ?_)
    intro mem
    obtain ⟨other, also, same⟩ := List.mem_map.mp mem
    obtain ⟨rfl, sameName⟩ := Prod.mk.inj same
    obtain rfl := scope.eq_of_registration registered also sameName
    rw [layers] at distinct
    exact List.disjoint_of_nodup_append distinct near other.1.layer_mem_layers
  have same := Store.findBinding?_congr kept
  split
  · rename_i shadowed
    obtain ⟨layer, near, isBound⟩ := shadowed
    cases found : tree.world.store.findBinding? place.2 nearer with
    | none =>
        rw [Store.findBinding?_eq_none_iff.mp found layer near] at isBound
        cases isBound
    | some hit =>
        have before : tree.world.store.binding? inner place.2 = some hit.2 := by
          rw [Store.binding?, layers, Store.findBinding?_append, found]
          rfl
        have now : after.world.store.binding? inner place.2 = some hit.2 := by
          rw [Store.binding?, layers, Store.findBinding?_append, same, found]
          rfl
        rw [answers_of_binding? before, answers_of_binding? now]
  · rename_i unshadowed
    apply answers_of_binding?
    have unbound : tree.world.store.findBinding? place.2 nearer = none := by
      rw [Store.findBinding?_eq_none_iff]
      intro layer near
      rw [← Option.not_isSome_iff_eq_none]
      exact fun isBound => unshadowed ⟨layer, near, isBound⟩
    have here : (after.world.store.bindings place.1.layer).find? place.2 = some bound := by
      refine (filled place.1.layer place.2).trans (if_pos ?_)
      exact List.mem_map.mpr ⟨place, registered, rfl⟩
    obtain ⟨outer, own⟩ := place.1.exists_layers
    rw [Store.binding?, layers, Store.findBinding?_append, same, unbound, own, Store.findBinding?,
      here]
    rfl

/--
Assignments through shared layers.  In a tree that has grown from a root, a name is
assigned to in a scope.  This succeeds if and only if the innermost binding of the
name is mutable.  Then every lookup, of any name from any scope, that comes to the slot
in which this binding is gives the new value, and any other gives what it gave before; what
is bound and which attributes it has stays the same.  If the assignment fails, then
nothing that can be looked up has changed.  And a definition that succeeds is seen at
once from all scopes that were made before inside of those in which it is registered,
unless a layer in between binds its name there.
-/
theorem layers_are_shared (grown : (root options store bindings).Leads tree)
    (present : scope ∈ tree.scopes) (name : String) :
    (∀ value,
      let assigned := tree.perform scope (.assign name value)
      (assigned.1 = .silent ↔ ∃ slot found, tree.world.store.seat? scope name = some slot ∧
        tree.world.store.held? slot = some found ∧ found.isMutable = true) ∧
      (assigned.1 = .silent → ∃ slot, tree.world.store.resolve? scope name = some slot ∧
        ∀ other sought, assigned.2.answers other sought =
          if tree.world.store.resolve? other sought = some slot then
            { tree.answers other sought with read := .value value }
          else tree.answers other sought) ∧
      (assigned.1 ≠ .silent → ∀ other sought,
        assigned.2.answers other sought = tree.answers other sought)) ∧
    ∀ bound after, tree.perform scope (.add name bound) = (.silent, after) →
      ∀ place ∈ scope.registrations name, ∀ inner ∈ tree.scopes, ∀ nearer,
        inner.layers = nearer ++ place.1.layers →
        after.answers inner place.2 =
          if ∃ layer ∈ nearer, (tree.world.store.held? (layer, place.2)).isSome then
            tree.answers inner place.2
          else ⟨.value bound.value, true, some bound.attributes⟩ := by
  constructor
  · intro value assigned
    rcases tree.assign_cases scope name value with
      ⟨slot, found, seated, held, mutable, silent, received⟩ | ⟨immutable, ⟨error, failed⟩, same⟩
    · have resolved : tree.world.store.resolve? scope name = some slot := by
        rw [Store.resolve?, seated, Option.some_or]
      refine ⟨⟨fun _ => ⟨slot, found, seated, held, mutable⟩, fun _ => silent⟩, fun _ => ?_, ?_⟩
      · exact ⟨slot, resolved, fun other sought => answers_of_receives held received other sought⟩
      · exact fun loud => (loud silent).elim
    · have loud : assigned.1 ≠ .silent := by
        intro silent
        cases failed.symm.trans silent
      refine ⟨⟨fun silent => (loud silent).elim, ?_⟩, fun silent => (loud silent).elim, ?_⟩
      · rintro ⟨slot, found, seated, held, mutable⟩
        rw [immutable slot found seated held] at mutable
        cases mutable
      · exact fun _ other sought => answers_of_store same other sought
  · intro bound after added place registered inner inside nearer layers
    exact answers_of_added grown present added registered inside layers

/-- A root that binds a name, with a child that does not bind it and one that does. -/
def siblings : ScopeTree :=
  let base := root (.silent 0 0) .empty (Dict.empty.insert "x" (.plain true .null))
  let first := (base.perform (.root ⟨0⟩) (.child .empty)).2
  (first.perform (.root ⟨0⟩) (.child (Dict.empty.insert "x" (.plain true (.bool false))))).2

/--
The one child assigns to the name, and the root reads what it has assigned while the
other child does not; then the root defines a name, and the children read that too.
-/
theorem layers_are_shared_siblings :
    let assigned := siblings.perform (.child ⟨1⟩ (.root ⟨0⟩)) (.assign "x" (.bool true))
    let added := siblings.perform (.root ⟨0⟩) (.add "y" (.constant (.str "late")))
    (assigned.2.answers (.root ⟨0⟩) "x").read = .value (.bool true) ∧
    (assigned.2.answers (.child ⟨2⟩ (.root ⟨0⟩)) "x").read = .value (.bool false) ∧
    (added.2.answers (.child ⟨1⟩ (.root ⟨0⟩)) "y").read = .value (.str "late") := by
  intro assigned added
  have grown : (root (.silent 0 0) .empty (Dict.empty.insert "x" (.plain true .null))).Leads
      siblings :=
    (Leads.refl.perform (Array.mem_def.mpr (.head _)) (.child .empty)).perform
      (Array.mem_def.mpr (.head _)) (.child (Dict.empty.insert "x" (.plain true (.bool false))))
  have childPresent : .child ⟨1⟩ (.root ⟨0⟩) ∈ siblings.scopes :=
    Array.mem_def.mpr (.tail _ (.head _))
  have rootPresent : .root ⟨0⟩ ∈ siblings.scopes := Array.mem_def.mpr (.head _)
  obtain ⟨-, effect, -⟩ := (layers_are_shared grown childPresent "x").1 (.bool true)
  obtain ⟨slot, resolved, seen⟩ := effect rfl
  have seated : siblings.world.store.resolve? (.child ⟨1⟩ (.root ⟨0⟩)) "x" = some (⟨0⟩, "x") := by
    decide +kernel
  obtain rfl := Option.some.inj (seated.symm.trans resolved)
  have visible := (layers_are_shared grown rootPresent "y").2 _ added.2 rfl (.root ⟨0⟩, "y")
    (.head _) _ childPresent [⟨1⟩] rfl
  refine ⟨?_, ?_, ?_⟩
  · rw [seen, if_pos (by decide +kernel)]
  · rw [seen, if_neg (by decide +kernel)]
    rfl
  · rw [visible, if_neg (by decide +kernel)]
    rfl

end Definitions

end ScopeTree

end TreeScript
