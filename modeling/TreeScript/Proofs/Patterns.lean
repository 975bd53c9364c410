import TreeScript.Proofs.EditAgreement

/-!
# Taking values apart

Definitions and assignments both put a value at a pattern: at a single place, or
at patterns for the elements of an array or for the entries of an object.
Parts that the value lacks count as `null`, and the first part that is not of
the kind its pattern asks for ends everything that would come after it.

`Store.deal` is this rule on its own: which places of a pattern get which values,
and how that ends.  It looks at the arrays and objects of one store, although an
edit looks at each of them only when it comes to it.  `Edit.run_spread` shows
that this makes no difference as long as giving a value to a place leaves arrays
and objects alone, and `Edit.define_eq_spread` and `Edit.write_eq_spread` show
that definitions and assignments follow the rule.
-/

namespace TreeScript

/-- A pattern: places for values, in arrays and objects that are nested to any depth. -/
inductive Pattern (α : Type) where
  | place (target : α)
  | items (parts : List (Pattern α))
  | entries (parts : List (String × Pattern α))

namespace Pattern

variable {α : Type}

mutual

/-- The places of a pattern, in order. -/
def places : Pattern α → List α
  | .place target => [target]
  | .items parts => placesOfItems parts
  | .entries parts => placesOfEntries parts

/-- The places of the patterns for elements, in order. -/
def placesOfItems : List (Pattern α) → List α
  | [] => []
  | part :: rest => part.places ++ placesOfItems rest

/-- The places of the patterns for entries, in order. -/
def placesOfEntries : List (String × Pattern α) → List α
  | [] => []
  | (_, part) :: rest => part.places ++ placesOfEntries rest

end

section Locations

variable (locate : α → Location)

mutual

/-- The location that a pattern of locations is. -/
def location : Pattern α → Location
  | .place target => locate target
  | .items parts => .items (locationsOfItems parts)
  | .entries parts => .entries (locationsOfEntries parts)

/-- The locations of the patterns for elements. -/
def locationsOfItems : List (Pattern α) → List Location
  | [] => []
  | part :: rest => part.location :: locationsOfItems rest

/-- The locations of the patterns for entries. -/
def locationsOfEntries : List (String × Pattern α) → List (String × Location)
  | [] => []
  | (name, part) :: rest => (name, part.location) :: locationsOfEntries rest

end

end Locations

end Pattern

mutual

/-- The pattern of names that a node is, if it is built from names, arrays and objects alone. -/
def Node.pattern? : Node → Option (Pattern String)
  | .mk (.identifier name) _ => some (.place name)
  | .mk (.arr items) _ => (Node.patternsOfItems? items).map .items
  | .mk (.obj entries) _ => (Node.patternsOfEntries? entries).map .entries
  | _ => none

/-- The patterns that the nodes of a list are. -/
def Node.patternsOfItems? : List Node → Option (List (Pattern String))
  | [] => some []
  | node :: rest => node.pattern?.bind fun part => (Node.patternsOfItems? rest).map (part :: ·)

/-- The patterns that the nodes of a list with names are. -/
def Node.patternsOfEntries? : List (String × Node) → Option (List (String × Pattern String))
  | [] => some []
  | (name, node) :: rest =>
      node.pattern?.bind fun part => (Node.patternsOfEntries? rest).map ((name, part) :: ·)

end

/-! ## The rule -/

/-- The values that some places get, and how giving them away ends. -/
structure Dealt (α : Type) where
  parts : List (α × Value)
  result : Except Error Unit

namespace Dealt

variable {α : Type}

/-- Nothing is given away. -/
def nothing : Dealt α :=
  ⟨[], .ok ()⟩

/-- Giving away goes on, unless it has failed. -/
def andThen (first second : Dealt α) : Dealt α :=
  match first.result with
  | .ok () => ⟨first.parts ++ second.parts, second.result⟩
  | .error error => ⟨first.parts, .error error⟩

@[simp]
theorem andThen_ok (parts : List (α × Value)) (fine : Unit) (second : Dealt α) :
    andThen ⟨parts, .ok fine⟩ second = ⟨parts ++ second.parts, second.result⟩ := rfl

@[simp]
theorem andThen_error (parts : List (α × Value)) (error : Error) (second : Dealt α) :
    andThen ⟨parts, .error error⟩ second = ⟨parts, .error error⟩ := rfl

theorem result_andThen_eq_ok_iff (first second : Dealt α) :
    (first.andThen second).result = .ok () ↔ first.result = .ok () ∧ second.result = .ok () := by
  rcases first with ⟨parts, error | fine⟩ <;> simp

theorem targets_andThen_sublist {first second : Dealt α} {targets others : List α}
    (here : (first.parts.map Prod.fst).Sublist targets)
    (there : (second.parts.map Prod.fst).Sublist others) :
    ((first.andThen second).parts.map Prod.fst).Sublist (targets ++ others) := by
  rcases first with ⟨parts, error | fine⟩
  · simpa using here.trans (List.sublist_append_left targets others)
  · simpa using here.append there

end Dealt

section Deal

variable {α : Type} (element : ArrayId → Nat → Value) (entry : ObjectId → String → Value)

mutual

/-- Deal a value out to the places of a pattern, given what arrays and objects hold. -/
def Pattern.dealt : Pattern α → Value → Dealt α
  | .place target, value => ⟨[(target, value)], .ok ()⟩
  | .items parts, value =>
      match value.asArr with
      | .ok array => Pattern.dealtItems array 0 parts
      | .error error => ⟨[], .error error⟩
  | .entries parts, value =>
      match value.asObj with
      | .ok object => Pattern.dealtEntries object parts
      | .error error => ⟨[], .error error⟩

/-- Deal the elements of an array out, from an index on. -/
def Pattern.dealtItems (array : ArrayId) (index : Nat) : List (Pattern α) → Dealt α
  | [] => .nothing
  | part :: rest =>
      (part.dealt (element array index)).andThen (Pattern.dealtItems array (index + 1) rest)

/-- Deal the entries of an object out. -/
def Pattern.dealtEntries (object : ObjectId) : List (String × Pattern α) → Dealt α
  | [] => .nothing
  | (name, part) :: rest =>
      (part.dealt (entry object name)).andThen (Pattern.dealtEntries object rest)

end

end Deal

namespace Store

/-- The element of an array; a missing one is `null`. -/
def element (store : Store) (array : ArrayId) (index : Nat) : Value :=
  (store.items array)[index]?.getD .null

/-- Deal a value out to the places of a pattern. -/
def deal {α : Type} (store : Store) (pattern : Pattern α) (value : Value) : Dealt α :=
  pattern.dealt store.element store.entry value

end Store

/-! ### Who gets something -/

namespace Pattern

variable {α : Type} (element : ArrayId → Nat → Value) (entry : ObjectId → String → Value)

mutual

/-- Values are only given to the places of the pattern, in their order and to each at most once. -/
theorem targets_dealt : ∀ (pattern : Pattern α) (value : Value),
    ((pattern.dealt element entry value).parts.map Prod.fst).Sublist pattern.places
  | .place target, value => by
      simp [dealt, places]
  | .items parts, value => by
      cases value with
      | arr array => exact targets_dealtItems array 0 parts
      | _ => exact List.nil_sublist _
  | .entries parts, value => by
      cases value with
      | obj object => exact targets_dealtEntries object parts
      | _ => exact List.nil_sublist _

theorem targets_dealtItems (array : ArrayId) : ∀ (index : Nat) (parts : List (Pattern α)),
    ((dealtItems element entry array index parts).parts.map Prod.fst).Sublist
      (placesOfItems parts)
  | _, [] => List.nil_sublist _
  | index, part :: rest =>
      Dealt.targets_andThen_sublist (targets_dealt part _)
        (targets_dealtItems array (index + 1) rest)

theorem targets_dealtEntries (object : ObjectId) : ∀ parts : List (String × Pattern α),
    ((dealtEntries element entry object parts).parts.map Prod.fst).Sublist
      (placesOfEntries parts)
  | [] => List.nil_sublist _
  | (_, part) :: rest =>
      Dealt.targets_andThen_sublist (targets_dealt part _) (targets_dealtEntries object rest)

end

end Pattern

theorem Store.targets_deal {α : Type} (store : Store) (pattern : Pattern α) (value : Value) :
    ((store.deal pattern value).parts.map Prod.fst).Sublist pattern.places :=
  Pattern.targets_dealt store.element store.entry pattern value

/-- Stores with the same arrays and objects. -/
structure Store.SharesContainers (store other : Store) : Prop where
  arrays : store.arrays = other.arrays
  objects : store.objects = other.objects

namespace Store.SharesContainers

theorem refl (store : Store) : store.SharesContainers store :=
  ⟨rfl, rfl⟩

theorem trans {store between other : Store} (first : store.SharesContainers between)
    (second : between.SharesContainers other) :
    store.SharesContainers other :=
  ⟨first.arrays.trans second.arrays, first.objects.trans second.objects⟩

theorem items {store other : Store} (shares : store.SharesContainers other) (array : ArrayId) :
    store.items array = other.items array := by
  rw [Store.items, Store.items, shares.arrays]

theorem entries {store other : Store} (shares : store.SharesContainers other)
    (object : ObjectId) :
    store.entries object = other.entries object := by
  rw [Store.entries, Store.entries, shares.objects]

/-- How a value is dealt out is seen from arrays and objects alone. -/
theorem deal {α : Type} {store other : Store} (shares : store.SharesContainers other)
    (pattern : Pattern α) (value : Value) :
    store.deal pattern value = other.deal pattern value := by
  have sameElements : store.element = other.element := by
    funext array index
    rw [Store.element, Store.element, shares.items]
  have sameEntries : store.entry = other.entry := by
    funext object name
    rw [Store.entry, Store.entry, shares.entries]
  rw [Store.deal, Store.deal, sameElements, sameEntries]

end Store.SharesContainers

/-! ## Edits that follow the rule -/

namespace Edit

section Spread

variable {α : Type} (give : α → Value → Edit Unit)

mutual

/-- Take a value apart and give the parts to the places of a pattern, one after the other. -/
def spread : Pattern α → Value → Edit Unit
  | .place target, value => give target value
  | .items parts, value => do
      let array ← value.asArr
      spreadItems parts ((← store).items array).toList
  | .entries parts, value => do
      let object ← value.asObj
      spreadEntries parts ((← store).entries object)

/-- Spread the elements of an array; missing ones count as `null`. -/
def spreadItems : List (Pattern α) → List Value → Edit Unit
  | [], _ => pure ()
  | part :: rest, values => do
      spread part (values.headD .null)
      spreadItems rest values.tail

/-- Spread the entries of an object; missing ones count as `null`. -/
def spreadEntries : List (String × Pattern α) → Dict Value → Edit Unit
  | [], _ => pure ()
  | (name, part) :: rest, values => do
      spread part ((values.find? name).getD .null)
      spreadEntries rest values

end

/-- Give the parts away that have been dealt out. -/
def deliver (dealt : Dealt α) : Edit Unit := do
  forM dealt.parts fun part => give part.1 part.2
  dealt.result

theorem deliver_andThen (first second : Dealt α) :
    deliver give (first.andThen second) =
      deliver give first >>= fun _ => deliver give second := by
  rcases first with ⟨parts, error | fine⟩
  · simp only [deliver, Dealt.andThen_error, bind_assoc]
    rfl
  · simp only [deliver, Dealt.andThen_ok, List.forM_append, bind_assoc]
    rfl

end Spread

section Definition

variable (options : Options) (scope : Scope) (isMutable : Bool)

mutual

/-- A definition declares the names of its pattern with the parts of the value. -/
theorem define_eq_spread {node : Node} {pattern : Pattern String}
    (found : node.pattern? = some pattern) (value : Value) :
    define options scope isMutable node value =
      spread (fun name value => declare options scope name (.plain isMutable value)) pattern
        value := by
  cases node with
  | mk shape span =>
      cases shape with
      | identifier name =>
          obtain rfl := Option.some.inj found
          rfl
      | arr items =>
          obtain ⟨parts, inside, rfl⟩ := Option.map_eq_some_iff.mp found
          simp only [define, spread, defineItems_eq_spreadItems inside]
      | obj entries =>
          obtain ⟨parts, inside, rfl⟩ := Option.map_eq_some_iff.mp found
          simp only [define, spread, defineEntries_eq_spreadEntries inside]
      | _ => cases found

theorem defineItems_eq_spreadItems {items : List Node} {parts : List (Pattern String)}
    (found : Node.patternsOfItems? items = some parts) (values : List Value) :
    defineItems options scope isMutable items values =
      spreadItems (fun name value => declare options scope name (.plain isMutable value)) parts
        values := by
  cases items with
  | nil =>
      obtain rfl := Option.some.inj found
      rfl
  | cons node rest =>
      obtain ⟨part, here, found⟩ := Option.bind_eq_some_iff.mp found
      obtain ⟨others, there, rfl⟩ := Option.map_eq_some_iff.mp found
      rw [defineItems, spreadItems, define_eq_spread here, defineItems_eq_spreadItems there]

theorem defineEntries_eq_spreadEntries {entries : List (String × Node)}
    {parts : List (String × Pattern String)}
    (found : Node.patternsOfEntries? entries = some parts) (values : Dict Value) :
    defineEntries options scope isMutable entries values =
      spreadEntries (fun name value => declare options scope name (.plain isMutable value)) parts
        values := by
  rcases entries with - | ⟨⟨name, node⟩, rest⟩
  · obtain rfl := Option.some.inj found
    rfl
  · obtain ⟨part, here, found⟩ := Option.bind_eq_some_iff.mp found
    obtain ⟨others, there, rfl⟩ := Option.map_eq_some_iff.mp found
    rw [defineEntries, spreadEntries, define_eq_spread here, defineEntries_eq_spreadEntries there]

end

/-! Nothing but patterns of names can be defined. -/

theorem exists_of_run_bind_ok {β γ : Type} {edit : Edit β} {continuation : β → Edit γ}
    {world reached : World} {result : γ}
    (ran : (edit >>= continuation).run.run world = (.ok result, reached)) :
    ∃ given between, edit.run.run world = (.ok given, between) ∧
      (continuation given).run.run between = (.ok result, reached) := by
  rw [run_bind] at ran
  split at ran
  · rename_i given between first
    exact ⟨given, between, first, ran⟩
  · cases ran

mutual

/-- What has been defined is a pattern of names. -/
theorem exists_pattern_of_run_define {node : Node} {value : Value} {world reached : World}
    (ran : (define options scope isMutable node value).run.run world = (.ok (), reached)) :
    ∃ pattern, node.pattern? = some pattern := by
  cases node with
  | mk shape span =>
      cases shape with
      | identifier name => exact ⟨.place name, rfl⟩
      | arr items =>
          rw [define] at ran
          obtain ⟨array, _, -, ran⟩ := exists_of_run_bind_ok ran
          obtain ⟨store, _, -, ran⟩ := exists_of_run_bind_ok ran
          obtain ⟨parts, found⟩ := exists_patterns_of_run_defineItems ran
          exact ⟨.items parts, by rw [Node.pattern?, found]; rfl⟩
      | obj entries =>
          rw [define] at ran
          obtain ⟨object, _, -, ran⟩ := exists_of_run_bind_ok ran
          obtain ⟨store, _, -, ran⟩ := exists_of_run_bind_ok ran
          obtain ⟨parts, found⟩ := exists_patterns_of_run_defineEntries ran
          exact ⟨.entries parts, by rw [Node.pattern?, found]; rfl⟩
      | _ => cases ran

theorem exists_patterns_of_run_defineItems {items : List Node} {values : List Value}
    {world reached : World}
    (ran : (defineItems options scope isMutable items values).run.run world = (.ok (), reached)) :
    ∃ parts, Node.patternsOfItems? items = some parts := by
  cases items with
  | nil => exact ⟨[], rfl⟩
  | cons node rest =>
      rw [defineItems] at ran
      obtain ⟨_, _, here, there⟩ := exists_of_run_bind_ok ran
      obtain ⟨part, found⟩ := exists_pattern_of_run_define here
      obtain ⟨parts, others⟩ := exists_patterns_of_run_defineItems there
      exact ⟨part :: parts, by rw [Node.patternsOfItems?, found, others]; rfl⟩

theorem exists_patterns_of_run_defineEntries {entries : List (String × Node)}
    {values : Dict Value} {world reached : World}
    (ran : (defineEntries options scope isMutable entries values).run.run world =
      (.ok (), reached)) :
    ∃ parts, Node.patternsOfEntries? entries = some parts := by
  rcases entries with - | ⟨⟨name, node⟩, rest⟩
  · exact ⟨[], rfl⟩
  · rw [defineEntries] at ran
    obtain ⟨_, _, here, there⟩ := exists_of_run_bind_ok ran
    obtain ⟨part, found⟩ := exists_pattern_of_run_define here
    obtain ⟨parts, others⟩ := exists_patterns_of_run_defineEntries there
    exact ⟨(name, part) :: parts, by rw [Node.patternsOfEntries?, found, others]; rfl⟩

end

end Definition

section Writing

variable {α : Type} (options : Options) (locate : α → Location)

mutual

/-- Writing to a pattern of locations writes the parts of the value to the locations. -/
theorem write_eq_spread : ∀ (pattern : Pattern α) (value : Value),
    write options (pattern.location locate) value =
      spread (fun target value => write options (locate target) value) pattern value
  | .place target, _ => rfl
  | .items parts, value => by
      simp only [Pattern.location, write, spread, writeItems_eq_spreadItems parts]
  | .entries parts, value => by
      simp only [Pattern.location, write, spread, writeEntries_eq_spreadEntries parts]

theorem writeItems_eq_spreadItems : ∀ (parts : List (Pattern α)) (values : List Value),
    writeItems options (Pattern.locationsOfItems locate parts) values =
      spreadItems (fun target value => write options (locate target) value) parts values
  | [], _ => rfl
  | part :: rest, values => by
      rw [Pattern.locationsOfItems, writeItems, spreadItems, write_eq_spread part,
        writeItems_eq_spreadItems rest]

theorem writeEntries_eq_spreadEntries : ∀ (parts : List (String × Pattern α)) (values : Dict Value),
    writeEntries options (Pattern.locationsOfEntries locate parts) values =
      spreadEntries (fun target value => write options (locate target) value) parts values
  | [], _ => rfl
  | (name, part) :: rest, values => by
      rw [Pattern.locationsOfEntries, writeEntries, spreadEntries, write_eq_spread part,
        writeEntries_eq_spreadEntries rest]

end

end Writing

/-! ## Taking a value apart at once -/

/-- An edit that leaves arrays and objects alone. -/
def SparesContainers (edit : Edit Unit) : Prop :=
  ∀ world : World, (edit.run.run world).2.store.SharesContainers world.store

namespace SparesContainers

theorem pure : SparesContainers (pure ()) :=
  fun _ => .refl _

theorem ofExcept (result : Except Error Unit) : SparesContainers result := by
  intro world
  cases result <;> exact .refl _

theorem bind {first : Edit Unit} {second : Unit → Edit Unit} (spares : SparesContainers first)
    (goesOn : ∀ fine, SparesContainers (second fine)) :
    SparesContainers (first >>= second) := by
  intro world
  rw [run_bind]
  have here := spares world
  generalize first.run.run world = ran at here ⊢
  rcases ran with ⟨error | fine, reached⟩
  · exact here
  · exact (goesOn fine reached).trans here

end SparesContainers

section Deal

variable {α : Type} {give : α → Value → Edit Unit}

theorem sparesContainers_deliver (spares : ∀ target value, SparesContainers (give target value))
    (dealt : Dealt α) : SparesContainers (deliver give dealt) := by
  refine SparesContainers.bind ?_ fun _ => .ofExcept dealt.result
  induction dealt.parts with
  | nil => exact .pure
  | cons part rest inductive_step =>
      rw [List.forM_cons]
      exact (spares part.1 part.2).bind fun _ => inductive_step

/-- What comes first in giving parts away leaves the containers as they were for the rest. -/
theorem run_bind_deliver (spares : ∀ target value, SparesContainers (give target value))
    {source : Store} {first : Edit Unit} {second : Unit → Edit Unit}
    {here there : Dealt α}
    (spread : ∀ world : World, world.store.SharesContainers source →
      first.run.run world = (deliver give here).run.run world)
    (spreadRest : ∀ world : World, world.store.SharesContainers source →
      (second ()).run.run world = (deliver give there).run.run world)
    {world : World} (same : world.store.SharesContainers source) :
    (first >>= second).run.run world = (deliver give (here.andThen there)).run.run world := by
  have kept := sparesContainers_deliver spares here world
  rw [deliver_andThen, run_bind, run_bind, spread world same]
  generalize (deliver give here).run.run world = ran at kept ⊢
  rcases ran with ⟨error | fine, reached⟩
  · rfl
  · exact spreadRest reached (kept.trans same)

mutual

/--
Taking a value apart step by step, looking at its containers on the way, comes to
the same as dealing it out at once and then giving the parts away.
-/
theorem run_spread (spares : ∀ target value, SparesContainers (give target value))
    (source : Store) : ∀ (pattern : Pattern α) (value : Value) (world : World),
    world.store.SharesContainers source →
    (spread give pattern value).run.run world =
      (deliver give (source.deal pattern value)).run.run world
  | .place target, value, world, _ => by
      have alone : deliver give ⟨[(target, value)], .ok ()⟩ = give target value := by
        rw [deliver, List.forM_cons, List.forM_nil, bind_pure_unit]
        exact bind_pure_unit
      rw [spread, Store.deal, Pattern.dealt, alone]
  | .items parts, value, world, same => by
      cases value with
      | arr array =>
          show (spreadItems give parts (world.store.items array).toList).run.run world = _
          rw [same.items array]
          exact run_spreadItems spares source array parts 0 world same
      | _ => rfl
  | .entries parts, value, world, same => by
      cases value with
      | obj object =>
          show (spreadEntries give parts (world.store.entries object)).run.run world = _
          rw [same.entries object]
          exact run_spreadEntries spares source object parts world same
      | _ => rfl

theorem run_spreadItems (spares : ∀ target value, SparesContainers (give target value))
    (source : Store) (array : ArrayId) :
    ∀ (parts : List (Pattern α)) (index : Nat) (world : World),
    world.store.SharesContainers source →
    (spreadItems give parts ((source.items array).toList.drop index)).run.run world =
      (deliver give (Pattern.dealtItems source.element source.entry array index parts)).run.run
        world
  | [], _, _, _ => rfl
  | part :: rest, index, world, same => by
      rw [spreadItems, List.tail_drop, List.headD_eq_head?_getD, List.head?_drop,
        Array.getElem?_toList]
      exact run_bind_deliver spares (run_spread spares source part _)
        (run_spreadItems spares source array rest (index + 1)) same

theorem run_spreadEntries (spares : ∀ target value, SparesContainers (give target value))
    (source : Store) (object : ObjectId) :
    ∀ (parts : List (String × Pattern α)) (world : World),
    world.store.SharesContainers source →
    (spreadEntries give parts (source.entries object)).run.run world =
      (deliver give (Pattern.dealtEntries source.element source.entry object parts)).run.run world
  | [], _, _ => rfl
  | (_, part) :: rest, _, same =>
      run_bind_deliver spares (run_spread spares source part _)
        (run_spreadEntries spares source object rest) same

end

end Deal

end Edit

end TreeScript
