import TreeScript.Proofs.LiteralRuns
import TreeScript.Proofs.WholeRemainders

/-!
# Reading and writing parts of containers

`target[place]` and `target.name` are read as expressions and, on the left of an
assignment, evaluated to a location that is written and read later.  The two ways
to the same part of an array or an object agree, and `Evaluation.read_after_write`
says that a part that has been written is read back either way, while all other
parts of all containers stay as they were.
-/

namespace TreeScript

open Rule

variable {options : Options} {host : Host} {free : Bool}

/-! ## Numbers as places -/

theorem slot?_eq_some_iff {index : Float} {length place : Nat} :
    slot? index length = some place ↔ Double.natural? index = some place ∧ place < length := by
  simp [slot?, Option.filter_eq_some_iff]

theorem Double.natural?_eq_some_iff {number : Float} {magnitude : Nat} :
    natural? number = some magnitude ↔ integer? number = some (magnitude : Int) := by
  unfold natural?
  split
  · rename_i found
    rw [found, Option.some_inj, Option.some_inj]
    exact Int.ofNat_inj.symm
  · rename_i missing
    constructor
    · nofun
    · intro found
      exact absurd found (missing magnitude)

/-- Numbers that stand for the same place are equal as numbers. -/
theorem beq_of_slot?_eq {index other : Float} {length place : Nat}
    (found : slot? index length = some place) (found' : slot? other length = some place) :
    (index == other) = true := by
  obtain ⟨natural, -⟩ := slot?_eq_some_iff.mp found
  obtain ⟨natural', -⟩ := slot?_eq_some_iff.mp found'
  rw [Double.natural?_eq_some_iff] at natural natural'
  exact (Double.beq_iff natural natural').mpr rfl

namespace Elements

/-- The element at a number. -/
def pick (items : Array Value) (index : Float) : Except Error Value :=
  match (slot? index items.size).bind fun place => items[place]? with
  | some value => .ok value
  | none => .error (outOfRange index items.size)

/-- The elements with another one at a number, if that stands for a place. -/
def replace (items : Array Value) (index : Float) (value : Value) : Array Value :=
  match slot? index items.size with
  | some place => items.setIfInBounds place value
  | none => items

variable {items : Array Value} {index : Float} {place : Nat} {value : Value}

theorem exists_pick_eq_ok (found : slot? index items.size = some place) :
    ∃ value, pick items index = .ok value := by
  have inside := (slot?_eq_some_iff.mp found).2
  simp [pick, found, inside]

theorem pick_of_slot?_eq_none (missing : slot? index items.size = none) :
    pick items index = .error (outOfRange index items.size) := by
  simp [pick, missing]

theorem pick_eq_error_iff {error : Error} :
    pick items index = .error error ↔
      slot? index items.size = none ∧ error = outOfRange index items.size := by
  cases found : slot? index items.size with
  | none => simp [pick, found, eq_comm]
  | some place =>
      obtain ⟨value, same⟩ := exists_pick_eq_ok found
      simp [same]

theorem replace_of_slot?_eq_some (found : slot? index items.size = some place) (value : Value) :
    replace items index value = items.setIfInBounds place value := by
  simp [replace, found]

@[simp]
theorem size_replace (items : Array Value) (index : Float) (value : Value) :
    (replace items index value).size = items.size := by
  unfold replace
  split <;> simp

theorem replace_empty (index : Float) (value : Value) : replace #[] index value = #[] := by
  apply Array.eq_empty_of_size_eq_zero
  simp

theorem pick_replace_self (found : slot? index items.size = some place) (value : Value) :
    pick (replace items index value) index = .ok value := by
  have inside := (slot?_eq_some_iff.mp found).2
  rw [pick, size_replace, found, replace_of_slot?_eq_some found]
  simp [inside]

theorem getElem?_replace_of_ne {other : Float} (different : ¬ (other == index) = true)
    (found : slot? other items.size = some place) (value : Value) :
    (replace items index value)[place]? = items[place]? := by
  unfold replace
  split
  · rename_i written here
    apply Array.getElem?_setIfInBounds_ne
    rintro rfl
    exact different (beq_of_slot?_eq found here)
  · rfl

/-- Another element at a number makes no difference to those at other numbers. -/
theorem pick_replace_of_ne {other : Float} (different : ¬ (other == index) = true)
    (value : Value) : pick (replace items index value) other = pick items other := by
  rw [pick, pick, size_replace]
  cases found : slot? other items.size with
  | none => rfl
  | some place =>
      rw [Option.bind_some, Option.bind_some, getElem?_replace_of_ne different found]

end Elements

/-! ## Changing one container -/

namespace Store

variable {store : Store}

theorem items_modifyItems (store : Store) (array other : ArrayId)
    (change : Array Value → Array Value) (fresh : change #[] = #[]) :
    (store.modifyItems array change).items other =
      if other = array then change (store.items other) else store.items other := by
  obtain ⟨other⟩ := other
  obtain ⟨array⟩ := array
  simp only [modifyItems, items, Array.getElem?_modify, ArrayId.mk.injEq]
  by_cases same : array = other
  · subst same
    cases store.arrays[array]? <;> simp [fresh]
  · simp [same, Ne.symm same]

/-- Only what a change makes of the elements that there are counts. -/
theorem modifyItems_congr {array : ArrayId} {change change' : Array Value → Array Value}
    (same : change (store.items array) = change' (store.items array)) :
    store.modifyItems array change = store.modifyItems array change' := by
  have arrays : store.arrays.modify array.index (fun cell =>
        { cell with items := change cell.items }) =
      store.arrays.modify array.index fun cell => { cell with items := change' cell.items } := by
    apply Array.ext_getElem?
    intro index
    rw [Array.getElem?_modify, Array.getElem?_modify]
    split
    · rename_i here
      subst here
      rw [items] at same
      cases found : store.arrays[array.index]? with
      | none => rfl
      | some cell =>
          rw [found] at same
          simpa using same
    · rfl
  rw [modifyItems, modifyItems, arrays]

theorem entries_setEntry_of_ne {object other : ObjectId} (different : other ≠ object)
    (name : String) (value : Value) :
    (store.setEntry object name value).entries other = store.entries other := by
  have different : object.index ≠ other.index := by
    intro same
    exact different (congrArg ObjectId.mk same.symm)
  simp [setEntry, entries, Array.getElem?_modify, different]

theorem entry_setEntry_self {object : ObjectId} (held : store.IsHeld (.obj object))
    (name : String) (value : Value) :
    (store.setEntry object name value).entry object name = value := by
  have inside : object.index < store.objects.size := held
  simp only [entry, setEntry, entries, Array.getElem?_modify, if_true]
  simp [inside]

theorem entry_setEntry_of_ne (object : ObjectId) {name other : String} (different : other ≠ name)
    (value : Value) :
    (store.setEntry object name value).entry object other = store.entry object other := by
  simp only [entry, setEntry, entries, Array.getElem?_modify, if_true]
  cases store.objects[object.index]? with
  | none => rfl
  | some cell => simp [Dict.find?_insert_of_ne cell.entries value different]

end Store

/-! ## Parts of containers -/

/-- An element of an array or an entry of an object. -/
inductive Component where
  | element (array : ArrayId) (index : Float)
  | entry (object : ObjectId) (name : String)

namespace Component

/-- The array or the object that a component belongs to. -/
def container : Component → ContainerId
  | .element array _ => .arr array
  | .entry object _ => .obj object

/-- A component as a place that can be assigned to. -/
def location : Component → Location
  | .element array index => .element array index
  | .entry object name => .entry object name

/-- Components of one container with numerically equal indices, or with the same name. -/
def Coincides : Component → Component → Prop
  | .element array index, .element other index' => array = other ∧ (index == index') = true
  | .entry object name, .entry other name' => object = other ∧ name = name'
  | _, _ => False

/-- What a store has for a component. -/
def content (store : Store) : Component → Except Error Value
  | .element array index => Elements.pick (store.items array) index
  | .entry object name => .ok (store.entry object name)

/-- The store with another value for a component. -/
def put (store : Store) (value : Value) : Component → Store
  | .element array index =>
      store.modifyItems array fun items => Elements.replace items index value
  | .entry object name => store.setEntry object name value

variable {store : Store}

/-- The one error there is is that a number stands for no place of an array. -/
theorem content_eq_error_iff {component : Component} {error : Error} :
    component.content store = .error error ↔
      ∃ array index, component = .element array index ∧
        slot? index (store.items array).size = none ∧
        error = outOfRange index (store.items array).size := by
  cases component with
  | entry object name => simp [content]
  | element array index =>
      rw [content, Elements.pick_eq_error_iff]
      constructor
      · exact fun missing => ⟨array, index, rfl, missing⟩
      · rintro ⟨_, _, ⟨⟩, missing⟩
        exact missing

theorem put_element {array : ArrayId} {index : Float} {place : Nat} (value : Value)
    (found : slot? index (store.items array).size = some place) :
    put store value (.element array index) =
      store.modifyItems array fun items => items.setIfInBounds place value := by
  rw [put]
  apply Store.modifyItems_congr
  exact Elements.replace_of_slot?_eq_some found value

theorem items_put (array other : ArrayId) (index : Float) (value : Value) :
    (put store value (.element array index)).items other =
      if other = array then Elements.replace (store.items other) index value
      else store.items other :=
  store.items_modifyItems array other _ (Elements.replace_empty index value)

theorem items_put_of_ne {component : Component} {array : ArrayId}
    (different : component.container ≠ .arr array) (value : Value) :
    (component.put store value).items array = store.items array := by
  cases component with
  | entry object name => rfl
  | element other index =>
      rw [items_put, if_neg]
      rintro rfl
      exact different rfl

theorem entries_put_of_ne {component : Component} {object : ObjectId}
    (different : component.container ≠ .obj object) (value : Value) :
    (component.put store value).entries object = store.entries object := by
  cases component with
  | element array index => rfl
  | entry other name =>
      apply Store.entries_setEntry_of_ne
      rintro rfl
      exact different rfl

/-- No array gets longer or shorter. -/
theorem size_items_put (component : Component) (value : Value) (array : ArrayId) :
    ((component.put store value).items array).size = (store.items array).size := by
  cases component with
  | entry object name => rfl
  | element other index =>
      rw [items_put]
      split <;> simp

/-- A value that is put in a place of an array, or under a name in an object, is there then. -/
theorem content_put_self {component : Component} {before : Value}
    (held : store.IsHeld component.container)
    (present : component.content store = .ok before) (value : Value) :
    component.content (component.put store value) = .ok value := by
  cases component with
  | entry object name => rw [content, put, Store.entry_setEntry_self held]
  | element array index =>
      rw [content] at present
      rw [content, items_put, if_pos rfl]
      cases found : slot? index (store.items array).size with
      | none =>
          rw [Elements.pick_of_slot?_eq_none found] at present
          cases present
      | some place => exact Elements.pick_replace_self found value

/-- What is put in a place leaves all other components as they are. -/
theorem content_put_of_not_coincides {component other : Component}
    (different : ¬ other.Coincides component) (value : Value) :
    other.content (component.put store value) = other.content store := by
  cases other with
  | entry object name =>
      rw [content, content]
      by_cases same : component.container = .obj object
      · cases component with
        | element array index => cases same
        | entry written name' =>
            cases same
            have renamed : name ≠ name' := fun same => different ⟨rfl, same⟩
            rw [put, Store.entry_setEntry_of_ne object renamed]
      · rw [Store.entry, Store.entry, entries_put_of_ne same]
  | element array index =>
      rw [content, content]
      by_cases same : component.container = .arr array
      · cases component with
        | entry object name => cases same
        | element written index' =>
            cases same
            have apart : ¬ (index == index') = true := fun equal => different ⟨rfl, equal⟩
            rw [items_put, if_pos rfl, Elements.pick_replace_of_ne apart]
      · rw [items_put_of_ne same]

/-! ## Components as locations -/

/-- Reading a component at its location finds what the store has for it. -/
theorem perform_read (component : Component) (world : World) :
    world.perform options (.read component.location) =
      (component.content world.store, world) := by
  cases component with
  | entry object name => rfl
  | element array index =>
      show (Edit.read options (.element array index)).run.run world = _
      rw [Edit.read, Edit.run_bind]
      show (match (slot? index (world.store.items array).size).bind fun place =>
          (world.store.items array)[place]? with
        | some value => return value
        | none => throw (outOfRange index (world.store.items array).size) :
          Edit Value).run.run world = _
      rw [content, Elements.pick]
      cases (slot? index (world.store.items array).size).bind fun place =>
        (world.store.items array)[place]? <;> rfl

/-- Writing a component fails precisely if reading it does. -/
theorem perform_write (component : Component) (value : Value) (world : World) :
    world.perform options (.write component.location value) =
      match component.content world.store with
      | .ok _ => (.ok (), world.mapStore fun store => component.put store value)
      | .error error => (.error error, world) := by
  cases component with
  | entry object name => rfl
  | element array index =>
      show (Edit.write options (.element array index) value).run.run world = _
      rw [Edit.write, Edit.run_bind]
      show (match slot? index (world.store.items array).size with
        | some place =>
            modify fun world =>
              world.mapStore fun store =>
                store.modifyItems array fun items => items.setIfInBounds place value
        | none => throw (outOfRange index (world.store.items array).size) :
          Edit Unit).run.run world = _
      rw [content]
      cases found : slot? index (world.store.items array).size with
      | none =>
          rw [Elements.pick_of_slot?_eq_none found]
          rfl
      | some place =>
          obtain ⟨before, present⟩ := Elements.exists_pick_eq_ok found
          rw [present, World.mapStore, put_element value found]
          rfl

end Component

/-! ## Accessors -/

/-- What follows the target in `target[place]` and in `target.name`. -/
inductive Accessor where
  | item (place : Value)
  | property (name : String)

namespace Accessor

/-- Read what an accessor stands for in a value. -/
def read (target : Value) : Accessor → Rule Value
  | .item place => Property.item target place
  | .property name => Property.get target name

/-- Find the location that an accessor stands for in a value. -/
def locate (target : Value) : Accessor → Rule Location
  | .item place =>
      match target, place with
      | .arr array, .num index => return .element array index
      | .obj object, .str name => return .entry object name
      | target, place => do
          let shown ← Rule.look fun store => store.literal place
          Rule.fail (.of (.cannotReadProp shown target.typeName))
  | .property name => do
      return .entry (← target.asObj) name

/-- Arrays have a component for each number, and objects for each text and each name. -/
def component? : Value → Accessor → Option Component
  | .arr array, .item (.num index) => some (.element array index)
  | .obj object, .item (.str name) => some (.entry object name)
  | .obj object, .property name => some (.entry object name)
  | _, _ => none

variable {world : World} {target : Value} {accessor : Accessor} {component : Component}

theorem eq_value_container (selects : accessor.component? target = some component) :
    target = component.container.value := by
  unfold component? at selects
  split at selects <;> cases selects <;> rfl

/-- An expression for an element finds what the store has for it. -/
theorem ends_item_array (array : ArrayId) (index : Float) :
    (Property.item (.arr array) (.num index)).Ends options host free world world
      ((Component.content world.store (.element array index)).mapError .error) := by
  apply (ends_ofExcept_ok rfl).andThen
  apply (ends_look _).andThen
  rw [Component.content, Elements.pick]
  show (match (slot? index (world.store.items array).size).bind fun place =>
      (world.store.items array)[place]? with
    | some value => return value
    | none => fail (outOfRange index (world.store.items array).size) :
      Rule Value).Ends options host free world world _
  cases (slot? index (world.store.items array).size).bind fun place =>
    (world.store.items array)[place]? with
  | some value => exact ends_pure value
  | none => exact ends_fail_iff.mpr ⟨rfl, rfl⟩

/-- An accessor reads what the store has for the component. -/
theorem ends_read (selects : accessor.component? target = some component) :
    (accessor.read target).Ends options host free world world
      ((component.content world.store).mapError .error) := by
  unfold component? at selects
  split at selects
  · cases selects
    exact ends_item_array _ _
  · cases selects
    exact (ends_ofExcept_ok rfl).andThen (ends_look _)
  · cases selects
    exact ends_look _
  · cases selects

/-- An accessor is located where its component is. -/
theorem ends_locate (selects : accessor.component? target = some component) :
    (accessor.locate target).Ends options host free world world (.ok component.location) := by
  unfold component? at selects
  split at selects
  · cases selects
    exact ends_pure _
  · cases selects
    exact ends_pure _
  · cases selects
    exact (ends_ofExcept_ok rfl).andThen (ends_pure _)
  · cases selects

/-- Where an accessor stands for no component, there is nothing to be assigned to. -/
theorem exists_ends_locate_error (selects : accessor.component? target = none) :
    ∃ error, (accessor.locate target).Ends options host free world world
      (.error (.error error)) := by
  cases accessor with
  | item place =>
      rw [locate]
      · exact ⟨_, (ends_look _).andThen (ends_fail_iff.mpr ⟨rfl, rfl⟩)⟩
      · rintro array index rfl rfl
        cases selects
      · rintro object name rfl rfl
        cases selects
  | property name =>
      cases target with
      | obj object => cases selects
      | _ => exact ⟨_, ends_bind_iff.mpr (.inr ⟨_, ends_ofExcept_iff.mpr ⟨rfl, rfl⟩, rfl⟩)⟩

end Accessor

namespace Evaluation

section Access

variable (options : Options) (host : Host) (free : Bool) (scope : Scope) (context : Context)

/--
From a world on, the parts of `target[place]` or of `target.name` have been
evaluated, the target to a value, and what follows it to an accessor.
-/
inductive Accesses (start : World) : Node → World → Value → Accessor → Prop
  | item {target place : Node} {span : Span} {between reached : World} {value index : Value}
      (first : (evaluate target scope context).Ends options host free start between (.ok value))
      (second : (evaluate place scope context).Ends options host free between reached
        (.ok index)) :
      Accesses start (.mk (.index target place) span) reached value (.item index)
  | property {target : Node} {name : String} {span : Span} {reached : World} {value : Value}
      (first : (evaluate target scope context).Ends options host free start reached (.ok value)) :
      Accesses start (.mk (.prop target name) span) reached value (.property name)

end Access

variable {scope : Scope} {context : Context} {start world reached : World} {node : Node}
variable {target : Value} {accessor : Accessor}

/-- An expression whose parts have been evaluated is read by its accessor. -/
theorem Accesses.ends_construct
    (accesses : Accesses options host free scope context start node world target accessor)
    {outcome : Outcome}
    (reads : (accessor.read target).Ends options host free world reached outcome) :
    (construct scope context node.start node.shape).Ends options host free start reached
      outcome := by
  cases accesses with
  | item first second => exact first.andThen (second.andThen reads)
  | property first => exact first.andThen reads

/-- A target of an assignment whose parts have been evaluated is located by its accessor. -/
theorem Accesses.ends_locate
    (accesses : Accesses options host free scope context start node world target accessor)
    {result : Except Interrupt Location}
    (locates : (accessor.locate target).Ends options host free world reached result) :
    (locate scope context node).Ends options host free start reached result := by
  cases accesses with
  | item first second =>
      rw [locate]
      exact first.andThen (second.andThen locates)
  | property first =>
      rw [locate]
      exact first.andThen locates

end Evaluation

/-! ## Reading after writing -/

/--
Between two worlds a component has been given a value and nothing else has
happened.  The component is read back as an expression and at its location;
whatever else can be read, as an expression or at a location, reads as it did.
-/
structure World.Replaces (options : Options) (host : Host) (free : Bool) (component : Component)
    (value : Value) (before after : World) : Prop where
  store_only : after = { before with store := after.store }
  ends_read : ∀ {target : Value} {accessor : Accessor},
    accessor.component? target = some component →
    (accessor.read target).Ends options host free after after (.ok value)
  perform_read : after.perform options (.read component.location) = (.ok value, after)
  ends_read_other : ∀ {target : Value} {accessor : Accessor} {other : Component},
    accessor.component? target = some other → ¬ other.Coincides component →
    ∃ outcome, (accessor.read target).Ends options host free before before outcome ∧
      (accessor.read target).Ends options host free after after outcome
  perform_read_other : ∀ {other : Component}, ¬ other.Coincides component →
    ∃ reply : Except Error Value,
      before.perform options (.read other.location) = (reply, before) ∧
      after.perform options (.read other.location) = (reply, after)
  size_items : ∀ array, (after.store.items array).size = (before.store.items array).size
  items : ∀ array, component.container ≠ .arr array →
    after.store.items array = before.store.items array
  entries : ∀ object, component.container ≠ .obj object →
    after.store.entries object = before.store.entries object

/-- To put a value in a place that is there replaces the component. -/
theorem Component.replaces_put {component : Component} {before value : Value} {world : World}
    (held : world.store.IsHeld component.container)
    (present : component.content world.store = .ok before) :
    world.Replaces options host free component value
      (world.mapStore fun store => component.put store value) := by
  have found := content_put_self held present value
  constructor
  · rfl
  · intro target accessor selects
    have reads : (accessor.read target).Ends options host free
        (world.mapStore fun store => component.put store value) _ _ :=
      Accessor.ends_read selects
    rw [World.mapStore, found] at reads
    exact reads
  · rw [Component.perform_read, World.mapStore, found]
  · intro target accessor other selects different
    refine ⟨_, Accessor.ends_read selects, ?_⟩
    rw [← content_put_of_not_coincides different value]
    exact Accessor.ends_read selects
  · intro other different
    refine ⟨_, Component.perform_read other world, ?_⟩
    rw [← content_put_of_not_coincides different value]
    exact Component.perform_read other _
  · exact size_items_put component value
  · exact fun array different => items_put_of_ne different value
  · exact fun object different => entries_put_of_ne different value

namespace Evaluation

variable {scope : Scope} {context : Context} {start world : World} {node : Node}
variable {target : Value} {accessor : Accessor}

/--
Assigning to `target[place]` or `target.name` once the parts have been evaluated.
If the target has no such component, there is no location to assign to.  Otherwise
the expression and the location read alike, failing only for a number that is no
place of an array; writing fails where reading does, with the same error and
without an effect, and elsewhere it replaces the component.
-/
theorem read_after_write
    (accesses : Accesses options host free scope context start node world target accessor)
    (owned : world.store.Owns target) (value : Value) :
    (accessor.component? target = none ∧
      ∃ error, (locate scope context node).Ends options host free start world
        (.error (.error error))) ∨
    ∃ component reply, accessor.component? target = some component ∧
      (locate scope context node).Ends options host free start world (.ok component.location) ∧
      (construct scope context node.start node.shape).Ends options host free start world
        (reply.mapError .error) ∧
      world.perform options (.read component.location) = (reply, world) ∧
      (∀ error, reply = .error error ↔
        ∃ array index, component = .element array index ∧
          slot? index (world.store.items array).size = none ∧
          error = outOfRange index (world.store.items array).size) ∧
      match reply with
      | .error error =>
          world.perform options (.write component.location value) = (.error error, world)
      | .ok _ =>
          ∃ after, world.perform options (.write component.location value) = (.ok (), after) ∧
            world.Replaces options host free component value after := by
  cases selects : accessor.component? target with
  | none =>
      obtain ⟨error, locates⟩ := Accessor.exists_ends_locate_error selects
      exact .inl ⟨rfl, error, accesses.ends_locate locates⟩
  | some component =>
      have held : world.store.IsHeld component.container :=
        owned component.container (Accessor.eq_value_container selects)
      refine .inr ⟨component, component.content world.store, rfl,
        accesses.ends_locate (Accessor.ends_locate selects),
        accesses.ends_construct (Accessor.ends_read selects), component.perform_read world,
        fun error => Component.content_eq_error_iff, ?_⟩
      have written : world.perform options (.write component.location value) = _ :=
        component.perform_write value world
      cases found : component.content world.store with
      | error error =>
          rw [found] at written
          exact written
      | ok before =>
          rw [found] at written
          exact ⟨_, written, Component.replaces_put held found⟩

/--
A new array is given another first element, and that is what its first element is
read as.
-/
theorem read_after_write_first :
    let options := Options.silent 0 0
    let node := Node.of (.index (.of (.arr [.of .null])) (.of (.num (Float.ofNat 0))))
    ∃ world after,
      Accesses options .none false (.root ⟨0⟩) (.top .synchronous) default node world (.arr ⟨0⟩)
        (.item (.num (Float.ofNat 0))) ∧
      world.store.Owns (.arr ⟨0⟩) ∧
      world.perform options (.write (.element ⟨0⟩ (Float.ofNat 0)) (.bool true)) = (.ok (), after) ∧
      (Property.item (.arr ⟨0⟩) (.num (Float.ofNat 0))).Ends options .none false after after
        (.ok (.bool true)) := by
  intro options node
  have evaluates {node : Node} {before after : World} {value : Value}
      (running : before.lifecycle.isStopped = false)
      (ends : (construct (.root ⟨0⟩) (.top .synchronous) node.start node.shape).Ends options .none
        false (before.tick options).2 after (.ok value)) :
      (evaluate node (.root ⟨0⟩) (.top .synchronous)).Ends options .none false before after
        (.ok value) := by
    have arrives : before.Arrives options .synchronous before := rfl
    exact ends_evaluate_top_iff.mpr (.inr ⟨running, before, .ok value, arrives, ends, rfl⟩)
  let store := (Store.empty.newArray #[.null]).1
  have target : (evaluate (.of (.arr [.of .null])) (.root ⟨0⟩) (.top .synchronous)).Ends options
      .none false default { (default : World) with store := store, steps := 2 }
      (.ok (.arr ⟨0⟩)) := by
    apply evaluates rfl
    have items : (evaluateAll (.root ⟨0⟩) (.top .synchronous) [.of .null]).Ends options .none
        false { (default : World) with steps := 1 } { (default : World) with steps := 2 }
        (.ok [.null]) := by
      rw [evaluateAll, traverse_cons]
      exact (evaluates rfl (ends_pure _)).andThen (ends_pure _)
    exact items.andThen (ends_perform_bind_iff.mpr (ends_pure _))
  have place : (evaluate (.of (.num (Float.ofNat 0))) (.root ⟨0⟩) (.top .synchronous)).Ends options
      .none false { (default : World) with store := store, steps := 2 }
      { (default : World) with store := store, steps := 3 } (.ok (.num (Float.ofNat 0))) :=
    evaluates rfl (ends_pure _)
  have accesses : Accesses options .none false (.root ⟨0⟩) (.top .synchronous) default node
      { (default : World) with store := store, steps := 3 } (.arr ⟨0⟩)
      (.item (.num (Float.ofNat 0))) :=
    .item target place
  have owned : store.Owns (.arr ⟨0⟩) := Store.empty.owns_newArray #[.null]
  have inside : slot? (Float.ofNat 0) (store.items ⟨0⟩).size = some 0 :=
    slot?_eq_some_iff.mpr ⟨Double.natural?_eq_some_iff.mpr Double.integer?_zero, Nat.one_pos⟩
  rcases read_after_write accesses owned (.bool true) with
    ⟨⟨⟩, -⟩ | ⟨component, reply, selects, -, -, -, failing, written⟩
  cases selects
  cases reply with
  | error error =>
      obtain ⟨array, index, ⟨⟩, missing, -⟩ := (failing error).mp rfl
      cases missing.symm.trans inside
  | ok before =>
      obtain ⟨after, wrote, replaces⟩ := written
      have selects : Accessor.component? (.arr ⟨0⟩) (.item (.num (Float.ofNat 0))) =
          some (.element ⟨0⟩ (Float.ofNat 0)) := rfl
      exact ⟨_, after, accesses, owned, wrote, replaces.ends_read selects⟩

end Evaluation

end TreeScript
