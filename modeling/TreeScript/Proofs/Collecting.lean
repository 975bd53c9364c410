import TreeScript.Proofs.Declarations
import TreeScript.Proofs.RuleEndings
import Mathlib.Data.List.Nodup

/-!
# Carrying out declarations

To declare literals and functions is to bind each of them in all of its places to
what its expression makes, and to change nothing else (`World.Declares`).  A rule
that does this succeeds if the members are valid, there is room for their names,
and as many steps can be taken as there are members (`Rule.Collects`).

Declarations may be carried out one after the other (`Rule.Collects.andThen`), or
in a new namespace (`Rule.Collects.inNamespace`).
-/

namespace TreeScript

open Rule

variable {options : Options} {host : Host} {mode : Mode} {free : Bool}
variable {world before between after reached : World}
variable {scope outer inner : Scope}

/-! ## What declarations make -/

/-- The fallback of a parameter that has no expression for one. -/
def Parameter.constantFallback (parameter : Parameter) : Option Value :=
  if parameter.isOptional then some .null else none

/-- What the expression of a declaration makes in a scope, if it is a literal or a function. -/
inductive Store.Makes (store : Store) (isStopped : Bool) (inner : Scope)
    (declaration : Declaration) : Value → Prop where
  | nothing (stopped : isStopped = true) : Makes store isStopped inner declaration .null
  | literal {value : Value} (running : isStopped = false)
      (literal : declaration.value.shape.literal? = some value) :
      Makes store isStopped inner declaration value
  | function {parameters : List Parameter} {body : List Node} {function : FunctionId}
      (running : isStopped = false)
      (shape : declaration.value.shape = .function parameters body)
      (made : store.function? function = some ⟨some (inner.qualifier ++ declaration.member), [],
        .closure parameters (parameters.map Parameter.constantFallback) body inner⟩) :
      Makes store isStopped inner declaration (.fn function)

/-- It makes no difference to a value in which namespaces it is declared. -/
theorem Store.Makes.inside {store : Store} {isStopped : Bool} {declaration : Declaration}
    {value : Value} (makes : store.Makes isStopped inner declaration value) (space : Space) :
    store.Makes isStopped inner (declaration.inside space) value := by
  cases makes with
  | nothing stopped => exact .nothing stopped
  | literal running literal => exact .literal running literal
  | function running shape made => exact .function running shape made

/-- What has been made stays as it is while no function is changed. -/
theorem Store.Makes.later {store other : Store} {isStopped : Bool} {declaration : Declaration}
    {value : Value} (makes : store.Makes isStopped inner declaration value)
    (functions : ∀ function found, store.function? function = some found →
      other.function? function = some found) :
    other.Makes isStopped inner declaration value := by
  cases makes with
  | nothing stopped => exact .nothing stopped
  | literal running literal => exact .literal running literal
  | function running shape made => exact .function running shape (functions _ _ made)

/-- A scope whose layers are all there, and are different from each other. -/
structure Store.HasLayers (store : Store) (scope : Scope) : Prop where
  nodup : scope.layers.Nodup
  present : ∀ layer ∈ scope.layers, layer.index < store.layers.size

/-- The layers of a scope stay while no layer is lost. -/
theorem Store.HasLayers.of_le {before after : Store} (holds : before.HasLayers scope)
    (layers : before.layers.size ≤ after.layers.size) : after.HasLayers scope :=
  ⟨holds.nodup, fun layer mem => Nat.lt_of_lt_of_le (holds.present layer mem) layers⟩

/-- A layer that is there is one of a root scope. -/
theorem Store.HasLayers.of_root {store : Store} {root : LayerId}
    (present : root.index < store.layers.size) : store.HasLayers (.root root) where
  nodup := List.nodup_singleton root
  present layer mem := by
    cases List.mem_singleton.mp mem
    exact present

namespace World

/--
Some declarations are made in a scope: each is bound in all of its places to what
its expression makes, and nothing else is changed in the layers that there were.
-/
structure Declares (scope : Scope) (declarations : List Declaration) (before after : World) :
    Prop where
  lifecycle : after.lifecycle = before.lifecycle
  steps : after.steps = before.steps +
    if before.lifecycle.isStopped then 0 else declarations.length
  layers : before.store.layers.size ≤ after.store.layers.size
  functions : ∀ function found, before.store.function? function = some found →
    after.store.function? function = some found
  room : before.store.HasRoom scope (declarations.map Declaration.name)
  kept : ∀ layer sought, layer.index < before.store.layers.size →
    (∀ declaration ∈ declarations, (layer, sought) ∉ scope.places declaration.name) →
    (after.store.bindings layer).find? sought = (before.store.bindings layer).find? sought
  bound : ∀ declaration ∈ declarations, ∃ inner value,
    after.store.Nests scope declaration.path inner ∧
      after.store.Makes before.lifecycle.isStopped inner declaration value ∧
      ∀ place ∈ scope.places declaration.name,
        (after.store.bindings place.1).find? place.2 = some (.plain false value)

namespace Declares

variable {declarations first second : List Declaration}

/-- Nothing that is bound gets lost. -/
theorem persists (declares : Declares scope declarations before after) {layer : LayerId}
    {name : String} {bound : Variable}
    (found : (before.store.bindings layer).find? name = some bound) :
    (after.store.bindings layer).find? name = some bound := by
  rw [declares.kept layer name (Store.index_lt_of_find?_bindings found), found]
  intro declaration mem place
  have missing := declares.room.2 _ (List.mem_map_of_mem mem) _ place
  cases missing.symm.trans found

/-- Layers outside of the scope stay as they are. -/
theorem kept_outside (declares : Declares scope declarations before after) {layer : LayerId}
    (outside : layer ∉ scope.layers) (present : layer.index < before.store.layers.size)
    (name : String) :
    (after.store.bindings layer).find? name = (before.store.bindings layer).find? name :=
  declares.kept layer name present fun _ _ mem => outside (Scope.layer_mem_of_place mem)

theorem hasLayers (declares : Declares scope declarations before after)
    (holds : before.store.HasLayers scope) : after.store.HasLayers scope :=
  holds.of_le declares.layers

theorem refl (scope : Scope) (world : World) : Declares scope [] world world where
  lifecycle := rfl
  steps := by rw [List.length_nil, ite_self, Nat.add_zero]
  layers := Nat.le_refl _
  functions _ _ found := found
  room := ⟨.nil, nofun⟩
  kept _ _ _ _ := rfl
  bound := nofun

theorem perm (declares : Declares scope first before after) (perm : first.Perm second) :
    Declares scope second before after where
  lifecycle := declares.lifecycle
  steps := perm.length_eq ▸ declares.steps
  layers := declares.layers
  functions := declares.functions
  room := (before.store.hasRoom_perm scope (perm.map _)).mp declares.room
  kept layer sought present elsewhere :=
    declares.kept layer sought present fun declaration mem =>
      elsewhere declaration (perm.mem_iff.mp mem)
  bound declaration mem := declares.bound declaration (perm.mem_iff.mpr mem)

/-- There is room for declarations after others if there is room for them all. -/
theorem hasRoom_append_iff (declares : Declares scope first before between)
    (holds : before.store.HasLayers scope) (names : List String) :
    before.store.HasRoom scope (first.map Declaration.name ++ names) ↔
      between.store.HasRoom scope names := by
  constructor
  · rintro ⟨distinct, free⟩
    obtain ⟨-, distinctLater, apart⟩ := List.nodup_append.mp distinct
    refine ⟨distinctLater, fun name mem place placed => ?_⟩
    -- A place of this name that has been taken would be a place of an earlier one.
    rw [declares.kept place.1 place.2 (holds.present _ (Scope.layer_mem_of_place placed)),
      free name (List.mem_append_right _ mem) place placed]
    intro declaration declared taken
    exact apart _ (List.mem_map_of_mem declared) _ mem
      (Scope.eq_of_mem_places holds.nodup taken placed)
  · rintro ⟨distinct, free⟩
    have absent : ∀ name ∈ names, ∀ place ∈ scope.places name,
        (before.store.bindings place.1).find? place.2 = none := by
      intro name mem place placed
      cases found : (before.store.bindings place.1).find? place.2 with
      | none => rfl
      | some bound => cases (free name mem place placed).symm.trans (declares.persists found)
    refine ⟨List.nodup_append.mpr ⟨declares.room.1, distinct, ?_⟩, fun name mem => ?_⟩
    · -- A name that has been declared is taken on the ground.
      rintro _ early name mem rfl
      obtain ⟨declaration, declared, rfl⟩ := List.mem_map.mp early
      obtain ⟨_, _, -, -, bound⟩ := declares.bound declaration declared
      have ground := scope.ground_mem_places declaration.name
      cases (free _ mem _ ground).symm.trans (bound _ ground)
    · rcases List.mem_append.mp mem with early | late
      · exact declares.room.2 name early
      · exact absent name late

/-- Declarations that are made one after the other are all made. -/
theorem append (holds : before.store.HasLayers scope)
    (earlier : Declares scope first before between)
    (later : Declares scope second between after) :
    Declares scope (first ++ second) before after where
  lifecycle := later.lifecycle.trans earlier.lifecycle
  steps := by
    rw [later.steps, earlier.steps, earlier.lifecycle, List.length_append]
    split
    · rfl
    · exact Nat.add_assoc _ _ _
  layers := Nat.le_trans earlier.layers later.layers
  functions function found present := later.functions _ _ (earlier.functions _ _ present)
  room := by
    rw [List.map_append]
    exact (earlier.hasRoom_append_iff holds _).mpr later.room
  kept layer sought present elsewhere := by
    rw [later.kept layer sought (Nat.lt_of_lt_of_le present earlier.layers)
        fun declaration mem => elsewhere declaration (List.mem_append_right _ mem),
      earlier.kept layer sought present
        fun declaration mem => elsewhere declaration (List.mem_append_left _ mem)]
  bound declaration mem := by
    rcases List.mem_append.mp mem with early | late
    · obtain ⟨inner, value, nests, makes, bound⟩ := earlier.bound declaration early
      refine ⟨inner, value, nests.later later.layers ?_ ?_, makes.later later.functions, ?_⟩
      · exact fun layer outside present name => later.kept_outside outside present name
      · exact fun _ _ _ found => later.persists found
      · exact fun place placed => later.persists (bound place placed)
    · exact earlier.lifecycle ▸ later.bound declaration late

end Declares

/-- The world in which a layer has been made for a namespace. -/
def opened (world : World) : World :=
  { world with store := (world.store.newLayer .empty).1 }

/-- The scope of a namespace for which a layer is made. -/
def spaceIn (world : World) (space : String) (outer : Scope) : Scope :=
  .member (world.store.newLayer .empty).2 space outer

section Opening

variable {declarations : List Declaration} {space : String}

theorem bindings_opened (world : World) {layer : LayerId}
    (present : layer.index < world.store.layers.size) :
    world.opened.store.bindings layer = world.store.bindings layer :=
  Store.bindings_newLayer _ _ present

theorem size_opened (world : World) :
    world.opened.store.layers.size = world.store.layers.size + 1 :=
  Array.size_push _

theorem fresh_spaceIn (holds : world.store.HasLayers outer) :
    (world.store.newLayer .empty).2 ∉ outer.layers :=
  fun mem => Nat.lt_irrefl _ (holds.present _ mem)

theorem hasLayers_spaceIn (holds : world.store.HasLayers outer) :
    world.opened.store.HasLayers (world.spaceIn space outer) where
  nodup := List.nodup_cons.mpr ⟨fresh_spaceIn holds, holds.nodup⟩
  present layer mem := by
    rw [size_opened]
    rcases List.mem_cons.mp mem with rfl | mem
    · exact Nat.lt_succ_self _
    · exact Nat.lt_succ_of_lt (holds.present layer mem)

/-- The places inside of a new namespace are one in its own layer and those around it. -/
theorem places_spaceIn (world : World) (space : String) (outer : Scope) (name : String) :
    (world.spaceIn space outer).places name =
      ((world.store.newLayer .empty).2, name) :: outer.places (space ++ ":" ++ name) := rfl

theorem find?_fresh (world : World) (name : String) :
    (world.opened.store.bindings (world.store.newLayer .empty).2).find? name = none := by
  rw [opened, Store.bindings_newLayer_self, Dict.find?_empty]

/-- There is room in a new namespace if there is room for the qualified names around it. -/
theorem hasRoom_opened_iff (holds : world.store.HasLayers outer) :
    world.opened.store.HasRoom (world.spaceIn space outer)
        (declarations.map Declaration.name) ↔
      world.store.HasRoom outer
        ((declarations.map (Declaration.inside (.of space declarations))).map
          Declaration.name) := by
  have qualified : (declarations.map (Declaration.inside (.of space declarations))).map
      Declaration.name = (declarations.map Declaration.name).map (space ++ ":" ++ ·) := by
    rw [List.map_map, List.map_map]
    rfl
  have around {name : String} {place : LayerId × String}
      (placed : place ∈ outer.places (space ++ ":" ++ name)) :
      world.opened.store.bindings place.1 = world.store.bindings place.1 :=
    bindings_opened world (holds.present _ (Scope.layer_mem_of_place placed))
  rw [qualified, Store.HasRoom, Store.HasRoom]
  refine and_congr (List.nodup_map_iff fun _ _ same => (String.append_right_inj _).mp same).symm ?_
  simp only [List.forall_mem_map, places_spaceIn, List.forall_mem_cons]
  refine forall₂_congr fun declaration _ => ?_
  constructor
  · rintro ⟨-, free⟩ place placed
    exact around placed ▸ free place placed
  · refine fun free => ⟨find?_fresh world _, fun place placed => ?_⟩
    rw [around placed]
    exact free place placed

/-- What is declared in a new namespace is declared around it. -/
theorem Declares.inside (holds : world.store.HasLayers outer)
    (declares : Declares (world.spaceIn space outer) declarations world.opened after) :
    Declares outer (declarations.map (Declaration.inside (.of space declarations))) world after
    where
  lifecycle := declares.lifecycle
  steps := by
    rw [List.length_map]
    exact declares.steps
  layers := Nat.le_trans (Nat.le_of_lt (size_opened world ▸ Nat.lt_succ_self _)) declares.layers
  functions := declares.functions
  room := (hasRoom_opened_iff holds).mp declares.room
  kept layer sought present elsewhere := by
    rw [declares.kept layer sought (size_opened world ▸ Nat.lt_succ_of_lt present),
      bindings_opened world present]
    intro declaration mem placed
    rw [places_spaceIn] at placed
    rcases List.mem_cons.mp placed with same | placed
    · cases same
      exact Nat.lt_irrefl _ present
    · exact elsewhere _ (List.mem_map_of_mem mem) placed
  bound := by
    have repeats : after.store.Repeats outer (world.store.newLayer .empty).2
        (.of space declarations) := by
      refine ⟨fresh_spaceIn holds, ?_, fun name declares' => ?_, fun name absent => ?_⟩
      · exact Nat.lt_of_lt_of_le (size_opened world ▸ Nat.lt_succ_self _) declares.layers
      · obtain ⟨declaration, mem, rfl⟩ := List.mem_map.mp declares'
        obtain ⟨_, value, -, -, bound⟩ := declares.bound declaration mem
        rw [places_spaceIn] at bound
        obtain ⟨here, around⟩ := List.forall_mem_cons.mp bound
        exact ⟨_, here, around _ (outer.ground_mem_places _)⟩
      · rw [declares.kept _ name (size_opened world ▸ Nat.lt_succ_self _), find?_fresh]
        intro declaration mem placed
        rw [places_spaceIn] at placed
        rcases List.mem_cons.mp placed with same | placed
        · cases same
          exact absent (List.mem_map_of_mem mem)
        · exact fresh_spaceIn holds (Scope.layer_mem_of_place placed)
    refine List.forall_mem_map.mpr fun declaration mem => ?_
    obtain ⟨inner, value, nests, makes, bound⟩ := declares.bound declaration mem
    rw [places_spaceIn] at bound
    exact ⟨inner, value, .inside repeats nests, makes.inside _,
      (List.forall_mem_cons.mp bound).2⟩

end Opening

end World

/-! ## Rules that declare -/

/-- As many nodes can be evaluated one after the other as said. -/
def World.Affords (options : Options) (mode : Mode) (count : Nat) (world : World) : Prop :=
  count = 0 ∨ world.lifecycle.isStopped = true ∨
    (mode = .asynchronous → world.lifecycle.pause = none) ∧
      (options.stepLimit = 0 ∨ world.steps + count ≤ options.stepLimit)

/-- Nodes can be evaluated after others if all of them can. -/
theorem World.Declares.affords_add_iff {declarations : List Declaration}
    (declares : Declares scope declarations before between) {count : Nat}
    (afforded : before.Affords options mode declarations.length) :
    before.Affords options mode (declarations.length + count) ↔
      between.Affords options mode count := by
  have steps := declares.steps
  rw [Affords] at afforded
  rw [Affords, Affords, declares.lifecycle]
  cases stopped : before.lifecycle.isStopped with
  | true => simp
  | false =>
      rw [stopped] at steps afforded
      simp only [Bool.false_eq_true, if_false, false_or] at steps afforded ⊢
      rw [steps, Nat.add_assoc]
      rcases Nat.eq_zero_or_pos count with rfl | positive
      · simpa using afforded
      · rw [or_iff_right (Nat.ne_of_gt (Nat.add_pos_right _ positive)),
          or_iff_right (Nat.ne_of_gt positive)]

theorem World.Affords.of_add {count more : Nat}
    (affords : world.Affords options mode (count + more)) : world.Affords options mode count := by
  rcases affords with none | stopped | ⟨unpaused, limit⟩
  · exact .inl (Nat.eq_zero_of_add_eq_zero_right none)
  · exact .inr (.inl stopped)
  · exact .inr (.inr ⟨unpaused, limit.imp_right fun enough =>
      Nat.le_trans (Nat.add_le_add_left (Nat.le_add_right count more) _) enough⟩)

/--
A rule that makes declarations in a scope, if they are valid, if there is room for
them and if they can be afforded.
-/
structure Rule.Collects (options : Options) (host : Host) (mode : Mode) (scope : Scope)
    (valid : Prop) (declarations : List Declaration) (rule : Rule Unit) : Prop where
  ends_iff : ∀ {world : World}, world.store.HasLayers scope →
    ((∃ reached, rule.Ends options host mode.isFree world reached (.ok ())) ↔
      valid ∧ world.store.HasRoom scope (declarations.map Declaration.name) ∧
        world.Affords options mode declarations.length)
  declares : ∀ {world reached : World}, world.store.HasLayers scope →
    rule.Ends options host mode.isFree world reached (.ok ()) →
    world.Declares scope declarations reached

namespace Rule.Collects

variable {valid validThen : Prop} {first second : List Declaration} {rule other : Rule Unit}

theorem congr (collects : rule.Collects options host mode scope valid first)
    (same : validThen ↔ valid) (perm : first.Perm second) :
    rule.Collects options host mode scope validThen second where
  ends_iff holds := by
    rw [collects.ends_iff holds, same, perm.length_eq, Store.hasRoom_perm _ _ (perm.map _)]
  declares holds ends := (collects.declares holds ends).perm perm

theorem nothing (scope : Scope) :
    Collects options host mode scope True [] (pure ()) where
  ends_iff holds := by
    refine iff_of_true ⟨_, ends_pure_iff.mpr ⟨rfl, rfl⟩⟩ ⟨trivial, ⟨.nil, nofun⟩, .inl rfl⟩
  declares _ ends := by
    obtain ⟨rfl, -⟩ := ends_pure_iff.mp ends
    exact .refl scope _

/-- A rule that refuses something never makes any declaration. -/
theorem refused (refuses : ∀ {world reached}, ¬ rule.Ends options host mode.isFree world reached
    (.ok ())) (declarations : List Declaration) :
    rule.Collects options host mode scope False declarations where
  ends_iff _ := iff_of_false (fun ⟨_, ends⟩ => refuses ends) fun given => given.1
  declares _ ends := (refuses ends).elim

/-- Rules that make declarations one after the other. -/
theorem andThen (collects : rule.Collects options host mode scope valid first)
    (collectsThen : other.Collects options host mode scope validThen second) :
    (rule >>= fun _ => other).Collects options host mode scope (valid ∧ validThen)
      (first ++ second) where
  ends_iff {world} holds := by
    rw [List.map_append, List.length_append]
    constructor
    · rintro ⟨reached, ends⟩
      obtain ⟨between, ⟨⟩, ends, endsThen⟩ := ends_bind_ok_iff.mp ends
      have declares := collects.declares holds ends
      obtain ⟨isValid, room, afforded⟩ := (collects.ends_iff holds).mp ⟨_, ends⟩
      obtain ⟨isValidThen, roomThen, affordedThen⟩ :=
        (collectsThen.ends_iff (declares.hasLayers holds)).mp ⟨_, endsThen⟩
      exact ⟨⟨isValid, isValidThen⟩,
        (declares.hasRoom_append_iff holds _).mpr roomThen,
        (declares.affords_add_iff afforded).mpr affordedThen⟩
    · rintro ⟨⟨isValid, isValidThen⟩, room, afforded⟩
      obtain ⟨between, ends⟩ :=
        (collects.ends_iff holds).mpr ⟨isValid, room.of_append, afforded.of_add⟩
      have declares := collects.declares holds ends
      obtain ⟨reached, endsThen⟩ := (collectsThen.ends_iff (declares.hasLayers holds)).mpr
        ⟨isValidThen, (declares.hasRoom_append_iff holds _).mp room,
          (declares.affords_add_iff afforded.of_add).mp afforded⟩
      exact ⟨reached, ends_bind_ok_iff.mpr ⟨between, (), ends, endsThen⟩⟩
  declares holds ends := by
    obtain ⟨between, ⟨⟩, ends, endsThen⟩ := ends_bind_ok_iff.mp ends
    have declares := collects.declares holds ends
    exact declares.append holds (collectsThen.declares (declares.hasLayers holds) endsThen)

/-- A rule that makes declarations in a new namespace. -/
theorem inNamespace {rest : LayerId → Rule Unit} {space : String}
    (collects : ∀ layer, (rest layer).Collects options host mode (.member layer space outer) valid
      first) :
    (perform (.newLayer .empty) >>= rest).Collects options host mode outer valid
      (first.map (Declaration.inside (.of space first))) where
  ends_iff {world} holds := by
    have afforded : world.opened.Affords options mode first.length ↔
        world.Affords options mode (first.map (Declaration.inside (.of space first))).length := by
      rw [List.length_map]
      exact .rfl
    rw [← World.hasRoom_opened_iff holds, ← afforded]
    exact (exists_congr fun _ => ends_perform_bind_iff).trans
      ((collects _).ends_iff (World.hasLayers_spaceIn holds))
  declares holds ends :=
    .inside holds ((collects _).declares (World.hasLayers_spaceIn holds)
      (ends_perform_bind_iff.mp ends))

end Rule.Collects

end TreeScript
