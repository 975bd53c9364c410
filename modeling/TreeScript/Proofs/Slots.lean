import TreeScript.Proofs.Lookups
import TreeScript.Proofs.Patterns

/-!
# Giving values to variables

A variable is kept in a slot: a layer, and a name in it.  A definition in a child
scope fills a slot of the new layer, and an assignment changes the slot in which
the variable is found.  Either way one slot is set and everything else stays, so
that values which are given to variables with different slots do not get in each
other's way: `Edit.Binds.deliver` says what they leave behind.
-/

namespace TreeScript

/-- Where a variable is kept: a layer, and the name that it has there. -/
abbrev Slot := LayerId × String

namespace Store

/-- The binding in a slot. -/
def held? (store : Store) (slot : Slot) : Option Variable :=
  (store.bindings slot.1).find? slot.2

/-- Put a binding into a slot. -/
def hold (store : Store) (slot : Slot) (bound : Variable) : Store :=
  store.modifyLayer slot.1 fun bindings => bindings.insert slot.2 bound

theorem sharesContainers_hold (store : Store) (slot : Slot) (bound : Variable) :
    (store.hold slot bound).SharesContainers store :=
  ⟨rfl, rfl⟩

/-- Between two stores some slots have got bindings, and nothing else has happened. -/
structure Receives (before after : Store) (given : List (Slot × Variable)) : Prop where
  containers : after.SharesContainers before
  functions : after.functions = before.functions
  layers : after.layers.size = before.layers.size
  holds : ∀ entry ∈ given, after.held? entry.1 = some entry.2
  others : ∀ slot, slot ∉ given.map Prod.fst → after.held? slot = before.held? slot

namespace Receives

theorem nothing (store : Store) : store.Receives store [] where
  containers := .refl store
  functions := rfl
  layers := rfl
  holds := by simp
  others := by simp

theorem hold {store same : Store} (unchanged : same = store) (slot : Slot) (bound : Variable)
    (inside : slot.1.index < store.layers.size) :
    store.Receives (same.hold slot bound) [(slot, bound)] where
  containers := unchanged ▸ same.sharesContainers_hold slot bound
  functions := unchanged ▸ rfl
  layers := unchanged ▸ Array.size_modify
  holds := by
    intro entry mem
    cases List.mem_singleton.mp mem
    subst unchanged
    exact (same.find?_bind slot.1 slot.1 slot.2 slot.2 bound).trans (if_pos ⟨rfl, rfl, inside⟩)
  others := by
    intro other different
    subst unchanged
    refine (same.find?_bind slot.1 other.1 slot.2 other.2 bound).trans (if_neg ?_)
    rintro ⟨sameLayer, sameName, -⟩
    exact different (List.mem_singleton.mpr (Prod.ext sameLayer sameName))

theorem cons {before between after : Store} {entry : Slot × Variable}
    {rest : List (Slot × Variable)} (first : before.Receives between [entry])
    (others : between.Receives after rest) (different : entry.1 ∉ rest.map Prod.fst) :
    before.Receives after (entry :: rest) where
  containers := others.containers.trans first.containers
  functions := others.functions.trans first.functions
  layers := others.layers.trans first.layers
  holds := by
    intro given mem
    rcases List.mem_cons.mp mem with rfl | mem
    · rw [others.others given.1 different]
      exact first.holds given (.head _)
    · exact others.holds given mem
  others := by
    intro slot outside
    rw [List.map_cons, List.mem_cons, not_or] at outside
    rw [others.others slot outside.2]
    exact first.others slot (by simpa using outside.1)

end Receives

/-- The slot in which a variable is found; where it is not found, that of a definition. -/
def seat (store : Store) (target : Scope × String) : Slot :=
  (((store.findBinding? target.2 target.1.layers).map Prod.fst).getD target.1.layer, target.2)

/-- The binding of a variable once it has got a value. -/
def renewed (store : Store) (target : Scope × String) (value : Value) : Variable :=
  { (store.binding? target.1 target.2).getD (.plain true value) with value := value }

/-- A variable is found if its slot holds something and the layers before it do not. -/
theorem findBinding?_eq_some {store : Store} {scope : Scope} {name : String} {found : Variable}
    (bound : store.binding? scope name = some found) :
    store.findBinding? name scope.layers = some ((store.seat (scope, name)).1, found) := by
  obtain ⟨⟨layer, same⟩, found', rfl⟩ := Option.map_eq_some_iff.mp bound
  rw [seat, found']
  rfl

theorem held?_seat {store : Store} {scope : Scope} {name : String} {found : Variable}
    (bound : store.binding? scope name = some found) :
    store.held? (store.seat (scope, name)) = some found :=
  find?_of_findBinding? (findBinding?_eq_some bound)

theorem findBinding?_eq_none_iff {store : Store} {name : String} {layers : List LayerId} :
    store.findBinding? name layers = none ↔ ∀ layer ∈ layers, store.held? (layer, name) = none := by
  induction layers with
  | nil => simp [findBinding?]
  | cons first outer inductive_step =>
      rw [findBinding?, List.forall_mem_cons, ← inductive_step, held?]
      cases (store.bindings first).find? name <;> simp

/-- A variable stays in its slot when what happens does not bind its name nearer by. -/
theorem findBinding?_of_held? {before after : Store} {name : String} {layers : List LayerId}
    {layer : LayerId} {old new : Variable}
    (found : before.findBinding? name layers = some (layer, old))
    (absent : ∀ other, before.held? (other, name) = none → after.held? (other, name) = none)
    (held : after.held? (layer, name) = some new) :
    after.findBinding? name layers = some (layer, new) := by
  induction layers with
  | nil => cases found
  | cons first outer inductive_step =>
      rw [findBinding?] at found ⊢
      cases here : (before.bindings first).find? name with
      | none =>
          rw [here] at found
          rw [show (after.bindings first).find? name = none from absent first here]
          exact inductive_step found
      | some bound =>
          rw [here] at found
          obtain ⟨rfl, -⟩ := Prod.mk.inj (Option.some.inj found)
          rw [show (after.bindings first).find? name = some new from held]

namespace Receives

variable {before after : Store} {given : List (Slot × Variable)}

/-- Slots that held nothing still hold nothing, if those that are set held something before. -/
theorem held?_eq_none (received : before.Receives after given)
    (occupied : ∀ entry ∈ given, (before.held? entry.1).isSome = true) {slot : Slot}
    (absent : before.held? slot = none) :
    after.held? slot = none := by
  rw [received.others slot, absent]
  intro mem
  obtain ⟨entry, given, rfl⟩ := List.mem_map.mp mem
  simpa [absent] using occupied entry given

/-- A variable whose slot is set has got what is put there. -/
theorem binding?_eq_some (received : before.Receives after given)
    (occupied : ∀ entry ∈ given, (before.held? entry.1).isSome = true)
    {scope : Scope} {name : String} {old new : Variable}
    (bound : before.binding? scope name = some old)
    (mem : (before.seat (scope, name), new) ∈ given) :
    after.binding? scope name = some new := by
  rw [binding?, findBinding?_of_held? (findBinding?_eq_some bound)
    (fun _ => received.held?_eq_none occupied) (received.holds _ mem)]
  rfl

/-- A variable whose slot is not set is what it was. -/
theorem binding?_eq (received : before.Receives after given)
    (occupied : ∀ entry ∈ given, (before.held? entry.1).isSome = true)
    {scope : Scope} {name : String}
    (outside : before.seat (scope, name) ∉ given.map Prod.fst) :
    after.binding? scope name = before.binding? scope name := by
  cases bound : before.binding? scope name with
  | some old =>
      have held := (received.others _ outside).trans (held?_seat bound)
      rw [binding?, findBinding?_of_held? (findBinding?_eq_some bound)
        (fun _ => received.held?_eq_none occupied) held]
      rfl
  | none =>
      have absent := findBinding?_eq_none_iff.mp (Option.map_eq_none_iff.mp bound)
      rw [binding?, findBinding?_eq_none_iff.mpr fun layer mem =>
        received.held?_eq_none occupied (absent layer mem)]
      rfl

end Receives

end Store

namespace Edit

/-! ## Edits that set slots -/

section Binds

variable {β : Type} {edit : β → Edit Unit} {entry : β → Slot × Variable}
variable {ready : β → Store → Prop}

/--
Each of some edits succeeds when it is ready, and sets its slot and nothing else.
Those with other slots stay ready.
-/
structure Binds (edit : β → Edit Unit) (entry : β → Slot × Variable)
    (ready : β → Store → Prop) : Prop where
  binds : ∀ part world, ready part world.store →
    ∃ reached, (edit part).run.run world = (.ok (), reached) ∧
      world.store.Receives reached.store [entry part]
  stays : ∀ part other before after, ready part before → ready other before →
    (entry other).1 ≠ (entry part).1 → before.Receives after [entry part] → ready other after

/-- Edits with different slots all succeed, and set their slots and nothing else. -/
theorem Binds.run_forM (binds : Binds edit entry ready) {parts : List β}
    (distinct : (parts.map fun part => (entry part).1).Nodup) {world : World}
    (allReady : ∀ part ∈ parts, ready part world.store) :
    ∃ reached, (forM parts edit).run.run world = (.ok (), reached) ∧
      world.store.Receives reached.store (parts.map entry) := by
  induction parts generalizing world with
  | nil => exact ⟨world, rfl, .nothing world.store⟩
  | cons part rest inductive_step =>
      obtain ⟨outside, distinct⟩ := List.nodup_cons.mp distinct
      obtain ⟨first, others⟩ := List.forall_mem_cons.mp allReady
      obtain ⟨between, ran, received⟩ := binds.binds part world first
      have stillReady : ∀ other ∈ rest, ready other between.store := by
        intro other mem
        refine binds.stays part other _ _ first (others other mem) ?_ received
        intro same
        exact outside (List.mem_map.mpr ⟨other, mem, same⟩)
      obtain ⟨reached, goesOn, receivedLater⟩ := inductive_step distinct stillReady
      refine ⟨reached, ?_, received.cons receivedLater ?_⟩
      · rw [List.forM_cons, run_bind, ran]
        exact goesOn
      · rwa [List.map_map]

/-- Giving dealt parts to different slots ends as the dealing did, and they all have got theirs. -/
theorem Binds.run_deliver {α : Type} {give : α → Value → Edit Unit}
    {entry : α × Value → Slot × Variable} {ready : α × Value → Store → Prop}
    (binds : Binds (fun part => give part.1 part.2) entry ready) {dealt : Dealt α}
    (distinct : (dealt.parts.map fun part => (entry part).1).Nodup) {world : World}
    (allReady : ∀ part ∈ dealt.parts, ready part world.store) :
    ∃ reached, (deliver give dealt).run.run world = (dealt.result, reached) ∧
      world.store.Receives reached.store (dealt.parts.map entry) := by
  obtain ⟨reached, ran, received⟩ := binds.run_forM distinct allReady
  refine ⟨reached, ?_, received⟩
  rw [deliver, run_bind, ran]
  cases dealt.result <;> rfl

end Binds

/-! ## Definitions in a child scope -/

section Declaration

variable (options : Options) (layer : LayerId) (outer : Scope)

/-- What declaring a name in a child scope comes to. -/
theorem run_declare_child (name : String) (bound : Variable) (world : World) :
    let logged := world.log options "var:add" (some "<anonymous>") (some name) (some bound.value)
    (declare options (.child layer outer) name bound).run.run world =
      if (world.store.held? (layer, name)).isSome then
        (.error (.of (.alreadyDefined name "<anonymous>")), logged)
      else (.ok (), logged.mapStore fun store => store.hold (layer, name) bound) := by
  intro logged
  rw [declare, Scope.registrations, run_register_cons, World.store_log]
  rfl

theorem sparesContainers_declare_child (name : String) (bound : Variable) :
    SparesContainers (declare options (.child layer outer) name bound) := by
  intro world
  have logged := World.store_log options "var:add" (some "<anonymous>") (some name)
    (some bound.value) world
  rw [run_declare_child]
  split
  · exact logged ▸ .refl world.store
  · exact (Store.sharesContainers_hold _ _ _).trans (logged ▸ .refl world.store)

/-- Names that a child scope does not bind can be declared in it. -/
theorem binds_declare_child (isMutable : Bool) :
    Binds (fun part : String × Value =>
        declare options (.child layer outer) part.1 (.plain isMutable part.2))
      (fun part => ((layer, part.1), .plain isMutable part.2))
      (fun part store => layer.index < store.layers.size ∧
        store.held? (layer, part.1) = none) where
  binds part world ready := by
    have logged := World.store_log options "var:add" (some "<anonymous>") (some part.1)
      (some (Variable.plain isMutable part.2).value) world
    rw [run_declare_child]
    rw [if_neg (by simp [ready.2])]
    exact ⟨_, rfl, .hold logged (layer, part.1) _ ready.1⟩
  stays part other before after _ ready different received := by
    constructor
    · exact received.layers ▸ ready.1
    · rw [received.others _ (by simpa using different)]
      exact ready.2

/-- Names that have been declared one after the other are different, and were not bound before. -/
theorem nodup_of_run_forM_declare {isMutable : Bool} {parts : List (String × Value)}
    {world reached : World}
    (ran : (forM parts fun part =>
        declare options (.child layer outer) part.1 (.plain isMutable part.2)).run.run world =
      (.ok (), reached))
    (inside : layer.index < world.store.layers.size) :
    (parts.map Prod.fst).Nodup ∧
      ∀ part ∈ parts, world.store.held? (layer, part.1) = none := by
  induction parts generalizing world with
  | nil => simp
  | cons part rest inductive_step =>
      rw [List.forM_cons] at ran
      obtain ⟨_, between, declared, ran⟩ := exists_of_run_bind_ok ran
      have unbound : world.store.held? (layer, part.1) = none := by
        cases bound : world.store.held? (layer, part.1) with
        | none => rfl
        | some _ =>
            rw [run_declare_child, bound] at declared
            cases declared
      obtain ⟨_, declared', received⟩ :=
        (binds_declare_child options layer outer isMutable).binds part world ⟨inside, unbound⟩
      obtain rfl := (Prod.mk.inj (declared'.symm.trans declared)).2
      obtain ⟨distinct, unboundRest⟩ := inductive_step ran (received.layers ▸ inside)
      have held := received.holds _ (.head _)
      have outside : part.1 ∉ rest.map Prod.fst := by
        intro mem
        obtain ⟨other, mem, same⟩ := List.mem_map.mp mem
        have unboundLater := unboundRest other mem
        rw [same, held] at unboundLater
        cases unboundLater
      refine ⟨List.nodup_cons.mpr ⟨outside, distinct⟩, ?_⟩
      rw [List.forall_mem_cons]
      refine ⟨unbound, fun other mem => ?_⟩
      rw [← received.others (layer, other.1)]
      · exact unboundRest other mem
      · intro same
        obtain ⟨-, sameName⟩ := Prod.mk.inj (List.mem_singleton.mp same)
        exact outside (List.mem_map.mpr ⟨other, mem, sameName⟩)

end Declaration

/-! ## Assignments -/

section Assignment

variable (options : Options)

/-- What an assignment comes to. -/
theorem run_assign (scope : Scope) (name : String) (value : Value) (world : World) :
    let logged := world.log options "var:write" (some scope.name) (some name) (some value)
    (assign options scope name value).run.run world =
      match world.store.findBinding? name scope.layers with
      | some (layer, found) =>
          if found.isMutable then
            (.ok (), logged.mapStore fun store =>
              store.hold (layer, name) { found with value := value })
          else (.error (.of (.assignToImmutable name)), logged)
      | none => (.error (.of (.unknownIdentifier name scope.name)), logged) := by
  intro logged
  rw [← World.store_log options "var:write" (some scope.name) (some name) (some value) world]
  show ((match logged.store.findBinding? name scope.layers with
    | some (layer, found) =>
        if found.isMutable then
          modify fun world =>
            world.mapStore fun store =>
              store.modifyLayer layer fun bindings =>
                bindings.insert name { found with value := value }
        else throw (Error.of (.assignToImmutable name))
    | none => throw (Error.of (.unknownIdentifier name scope.name)) :
      Edit Unit).run.run logged) = _
  cases logged.store.findBinding? name scope.layers with
  | none => rfl
  | some place =>
      dsimp only
      cases place.2.isMutable <;> rfl

theorem sparesContainers_assign (scope : Scope) (name : String) (value : Value) :
    SparesContainers (assign options scope name value) := by
  intro world
  have logged := World.store_log options "var:write" (some scope.name) (some name) (some value)
    world
  rw [run_assign]
  split
  · split
    · exact (Store.sharesContainers_hold _ _ _).trans (logged ▸ .refl world.store)
    · exact logged ▸ .refl world.store
  · exact logged ▸ .refl world.store

/-- Mutable variables can be assigned to, wherever their bindings are. -/
theorem binds_assign {α : Type} (target : α → Scope × String) (origin : Store) :
    Binds (fun part : α × Value => assign options (target part.1).1 (target part.1).2 part.2)
      (fun part => (origin.seat (target part.1), origin.renewed (target part.1) part.2))
      (fun part store => ∃ found, found.isMutable = true ∧
        origin.binding? (target part.1).1 (target part.1).2 = some found ∧
        store.findBinding? (target part.1).2 (target part.1).1.layers =
          some ((origin.seat (target part.1)).1, found)) where
  binds part world := by
    rintro ⟨found, isMutable, bound, here⟩
    have inside := Store.index_lt_of_find?_bindings (Store.find?_of_findBinding? here)
    have logged := World.store_log options "var:write" (some (target part.1).1.name)
      (some (target part.1).2) (some part.2) world
    rw [run_assign, here, Store.renewed, bound]
    dsimp only
    rw [if_pos isMutable]
    exact ⟨_, rfl, .hold logged (origin.seat (target part.1)) _ inside⟩
  stays part other before after := by
    rintro ⟨old, -, -, there⟩ ⟨found, isMutable, bound, here⟩ different received
    refine ⟨found, isMutable, bound, Store.findBinding?_of_held? here ?_ ?_⟩
    · intro layer absent
      by_cases same : (layer, (target other.1).2) = origin.seat (target part.1)
      · have occupied := Store.find?_of_findBinding? there
        rw [same] at absent
        cases absent.symm.trans occupied
      · rw [received.others _ (by simpa using same)]
        exact absent
    · have kept := received.others (origin.seat (target other.1)) (by simpa using different)
      exact kept.trans (Store.find?_of_findBinding? here)

end Assignment

/-! ## Patterns of variables -/

section Patterns

variable (options : Options)

/-- Defining a pattern in a child scope declares the names that are dealt something. -/
theorem run_define_eq_deliver {node : Node} {pattern : Pattern String}
    (isPattern : node.pattern? = some pattern) {layer : LayerId} {outer : Scope}
    {isMutable : Bool} {value : Value} {world : World} :
    (define options (.child layer outer) isMutable node value).run.run world =
      (deliver (fun name value => declare options (.child layer outer) name
        (.plain isMutable value)) (world.store.deal pattern value)).run.run world := by
  have spares (name : String) (value : Value) :=
    sparesContainers_declare_child options layer outer name (.plain isMutable value)
  rw [define_eq_spread options _ isMutable isPattern]
  exact run_spread spares world.store pattern value world (.refl world.store)

/-- What defining a pattern in a child scope comes to that binds none of its names. -/
theorem run_define_child {node : Node} {pattern : Pattern String}
    (isPattern : node.pattern? = some pattern) {layer : LayerId} {world : World}
    (inside : layer.index < world.store.layers.size)
    (unbound : ∀ name, world.store.held? (layer, name) = none)
    (outer : Scope) (isMutable : Bool) {value : Value}
    (distinct : ((world.store.deal pattern value).parts.map Prod.fst).Nodup) :
    let dealt := world.store.deal pattern value
    ∃ reached, (define options (.child layer outer) isMutable node value).run.run world =
        (dealt.result, reached) ∧
      world.store.Receives reached.store
        (dealt.parts.map fun part => ((layer, part.1), .plain isMutable part.2)) := by
  intro dealt
  rw [run_define_eq_deliver options isPattern]
  refine (binds_declare_child options layer outer isMutable).run_deliver ?_ fun part _ =>
    ⟨inside, unbound part.1⟩
  rw [List.Nodup, List.pairwise_map] at distinct ⊢
  exact distinct.imp fun differ same => differ (congrArg Prod.snd same)

/-- A pattern that has been defined in a child scope is one of different names, as far as dealt. -/
theorem exists_pattern_of_run_define_child {node : Node} {layer : LayerId}
    {world reached : World} (inside : layer.index < world.store.layers.size) {outer : Scope}
    {isMutable : Bool} {value : Value}
    (ran : (define options (.child layer outer) isMutable node value).run.run world =
      (.ok (), reached)) :
    ∃ pattern, node.pattern? = some pattern ∧
      ((world.store.deal pattern value).parts.map Prod.fst).Nodup := by
  obtain ⟨pattern, isPattern⟩ := exists_pattern_of_run_define options _ isMutable ran
  rw [run_define_eq_deliver options isPattern, deliver] at ran
  obtain ⟨_, _, declared, -⟩ := exists_of_run_bind_ok ran
  exact ⟨pattern, isPattern, (nodup_of_run_forM_declare options layer outer declared inside).1⟩

/--
What writing to a pattern of mutable variables comes to that are kept in different
slots: it ends as dealing the value out does, and the variables that have been
dealt a part have got it.
-/
theorem run_write_names {α : Type} (target : α → Scope × String) {pattern : Pattern α}
    {world : World}
    (distinct : (pattern.places.map fun place => world.store.seat (target place)).Nodup)
    (mutables : ∀ place ∈ pattern.places, ∃ found,
      world.store.binding? (target place).1 (target place).2 = some found ∧
        found.isMutable = true)
    (value : Value) :
    let dealt := world.store.deal pattern value
    let given := dealt.parts.map fun part =>
      (world.store.seat (target part.1), world.store.renewed (target part.1) part.2)
    ∃ reached, (write options
        (pattern.location fun place => .name (target place).1 (target place).2) value).run.run
          world = (dealt.result, reached) ∧
      world.store.Receives reached.store given ∧
      (∀ part ∈ dealt.parts, ∃ found,
        world.store.binding? (target part.1).1 (target part.1).2 = some found ∧
        reached.store.binding? (target part.1).1 (target part.1).2 =
          some { found with value := part.2 }) ∧
      ∀ scope name, world.store.seat (scope, name) ∉ given.map Prod.fst →
        reached.store.binding? scope name = world.store.binding? scope name := by
  intro dealt given
  have spares (place : α) (value : Value) :=
    sparesContainers_assign options (target place).1 (target place).2 value
  have within := world.store.targets_deal pattern value
  have known : ∀ part ∈ dealt.parts, ∃ found,
      world.store.binding? (target part.1).1 (target part.1).2 = some found ∧
        found.isMutable = true :=
    fun part mem => mutables part.1 (within.subset (List.mem_map_of_mem mem))
  have different : (dealt.parts.map fun part => world.store.seat (target part.1)).Nodup := by
    have different := distinct.sublist (within.map _)
    rwa [List.map_map] at different
  have ready : ∀ part ∈ dealt.parts, ∃ found, found.isMutable = true ∧
      world.store.binding? (target part.1).1 (target part.1).2 = some found ∧
      world.store.findBinding? (target part.1).2 (target part.1).1.layers =
        some ((world.store.seat (target part.1)).1, found) := by
    intro part mem
    obtain ⟨found, bound, isMutable⟩ := known part mem
    exact ⟨found, isMutable, bound, Store.findBinding?_eq_some bound⟩
  have delivered : ∃ reached,
      (deliver (fun place value => assign options (target place).1 (target place).2 value)
        dealt).run.run world = (dealt.result, reached) ∧
      world.store.Receives reached.store given :=
    (binds_assign options target world.store).run_deliver different ready
  obtain ⟨reached, ran, received⟩ := delivered
  have occupied : ∀ entry ∈ given, (world.store.held? entry.1).isSome = true := by
    intro entry mem
    obtain ⟨part, isDealt, rfl⟩ := List.mem_map.mp mem
    obtain ⟨found, bound, -⟩ := known part isDealt
    simp [Store.held?_seat bound]
  refine ⟨reached, ?_, received, ?_, ?_⟩
  · simp only [write_eq_spread, write]
    exact (run_spread spares world.store pattern value world (.refl world.store)).trans ran
  · intro part mem
    obtain ⟨found, bound, -⟩ := known part mem
    refine ⟨found, bound, received.binding?_eq_some occupied bound ?_⟩
    refine List.mem_map.mpr ⟨part, mem, ?_⟩
    simp [Store.renewed, bound]
  · intro scope name outside
    exact received.binding?_eq occupied outside

end Patterns

end Edit

end TreeScript
