import TreeScript.Proofs.Hostless
import TreeScript.Proofs.Resemblance
import TreeScript.Proofs.SoundStore

/-!
# Stores that differ in the labels of functions

Two stores resemble each other if they are the same but for the bodies of their
closures, which are the same but for labels, and if no function is one of the
host.  All numbers in them are of one kind.  Such stores show the same of every
value: what it contains, what it equals and how it is displayed.
-/

namespace TreeScript

/-! ## What a store contains -/

/-- All values in the arrays, objects and bindings of a store have a property. -/
structure Store.Contains (holds : Value → Prop) (store : Store) : Prop where
  items : ∀ (array : ArrayId), ∀ value ∈ store.items array, holds value
  entries : ∀ (object : ObjectId) (name : String) (value : Value),
    (store.entries object).find? name = some value → holds value
  bindings : ∀ (layer : LayerId) (name : String) (bound : Variable),
    (store.bindings layer).find? name = some bound → holds bound.value

namespace Store.Contains

variable {holds : Value → Prop} {store : Store} (contains : store.Contains holds)

include contains

theorem entry (null : holds .null) (object : ObjectId) (name : String) :
    holds (store.entry object name) := by
  unfold Store.entry
  cases bound : (store.entries object).find? name with
  | none => exact null
  | some value => exact contains.entries object name value bound

theorem findBinding {name : String} {layers : List LayerId} {layer : LayerId} {bound : Variable}
    (found : store.findBinding? name layers = some (layer, bound)) :
    holds bound.value := by
  induction layers with
  | nil => cases found
  | cons first outer inductive_step =>
      rw [findBinding?] at found
      split at found
      · rename_i known present
        cases found
        exact contains.bindings layer name _ present
      · exact inductive_step found

/-- What reading a name finds has the property. -/
theorem lookup {scope : Scope} {name : String} {bound : Variable}
    (found : store.lookup? scope name = some bound) :
    holds bound.value := by
  have binding {name : String} (found : store.binding? scope name = some bound) :
      holds bound.value := by
    rcases Option.map_eq_some_iff.mp found with ⟨⟨layer, known⟩, present, rfl⟩
    exact contains.findBinding present
  rcases Option.or_eq_some_iff.mp found with present | ⟨-, present⟩
  · exact binding present
  · split at present
    · cases present
    · exact binding present

/-! ### Allocation -/

theorem newArray {items : Array Value} (given : ∀ value ∈ items, holds value) :
    (store.newArray items).1.Contains holds where
  items array value mem := by
    rw [Store.items, Store.newArray, Array.getElem?_push] at mem
    split at mem
    · exact given value mem
    · exact contains.items array value mem
  entries := contains.entries
  bindings := contains.bindings

theorem newObject {entries : Dict Value}
    (given : ∀ name value, entries.find? name = some value → holds value) :
    (store.newObject entries).1.Contains holds where
  items := contains.items
  entries object name value bound := by
    rw [Store.entries, Store.newObject, Array.getElem?_push] at bound
    split at bound
    · exact given name value bound
    · exact contains.entries object name value bound
  bindings := contains.bindings

theorem newLayer {bindings : Dict Variable}
    (given : ∀ name bound, bindings.find? name = some bound → holds bound.value) :
    (store.newLayer bindings).1.Contains holds where
  items := contains.items
  entries := contains.entries
  bindings layer name bound found := by
    rw [Store.bindings, Store.newLayer, Array.getElem?_push] at found
    split at found
    · exact given name bound found
    · exact contains.bindings layer name bound found

theorem withFunctions (functions : Array Function) :
    Contains holds { store with functions := functions } :=
  ⟨contains.items, contains.entries, contains.bindings⟩

/-! ### Change -/

theorem modifyArray (array : ArrayId) {change : ArrayCell → ArrayCell}
    (keeps : ∀ cell : ArrayCell, (∀ value ∈ cell.items, holds value) →
      ∀ value ∈ (change cell).items, holds value) :
    Contains holds { store with arrays := store.arrays.modify array.index change } where
  items other value mem := by
    have before := contains.items other
    unfold Store.items at before
    rw [Store.items, Array.getElem?_modify] at mem
    split at mem
    · cases cell : store.arrays[other.index]? with
      | none =>
          rw [cell] at mem
          exact (Array.not_mem_empty value mem).elim
      | some found =>
          rw [cell] at mem before
          exact keeps found before value mem
    · exact before value mem
  entries := contains.entries
  bindings := contains.bindings

theorem push (array : ArrayId) {value : Value} (given : holds value) :
    (store.modifyItems array fun items => items.push value).Contains holds := by
  refine contains.modifyArray array fun cell before other mem => ?_
  rcases Array.mem_push.mp mem with present | rfl
  · exact before other present
  · exact given

theorem pop (array : ArrayId) : (store.modifyItems array Array.pop).Contains holds := by
  refine contains.modifyArray array fun cell before other mem => before other ?_
  have popped : other ∈ cell.items.pop := mem
  rw [← Array.mem_toList_iff, Array.toList_pop] at popped
  exact Array.mem_toList_iff.mp ((List.dropLast_sublist _).mem popped)

theorem setItem (array : ArrayId) (place : Nat) {value : Value} (given : holds value) :
    (store.modifyItems array fun items => items.setIfInBounds place value).Contains holds := by
  refine contains.modifyArray array fun cell before other mem => ?_
  rcases Array.mem_or_eq_of_mem_setIfInBounds mem with present | rfl
  · exact before other present
  · exact given

theorem modifyObject (object : ObjectId) {change : ObjectCell → ObjectCell}
    (keeps : ∀ cell : ObjectCell,
      (∀ name value, cell.entries.find? name = some value → holds value) →
      ∀ name value, (change cell).entries.find? name = some value → holds value) :
    Contains holds { store with objects := store.objects.modify object.index change } where
  items := contains.items
  entries other name value bound := by
    have before := contains.entries other
    unfold Store.entries at before
    rw [Store.entries, Array.getElem?_modify] at bound
    split at bound
    · cases cell : store.objects[other.index]? with
      | none =>
          rw [cell] at bound before
          exact before name value bound
      | some found =>
          rw [cell] at bound before
          exact keeps found before name value bound
    · exact before name value bound
  bindings := contains.bindings

theorem setEntry (object : ObjectId) (name : String) {value : Value} (given : holds value) :
    (store.setEntry object name value).Contains holds := by
  refine contains.modifyObject object fun cell before other found bound => ?_
  rcases Dict.eq_or_find?_of_insert bound with rfl | bound
  · exact given
  · exact before other found bound

/-- Binding a name in a layer to a value with the property. -/
theorem bind (layer : LayerId) (name : String) {bound : Variable} (given : holds bound.value) :
    (store.modifyLayer layer fun bindings => bindings.insert name bound).Contains holds where
  items := contains.items
  entries := contains.entries
  bindings other sought found present := by
    have before := contains.bindings other
    unfold Store.bindings at before
    rw [Store.bindings, Store.modifyLayer, Array.getElem?_modify] at present
    split at present
    · cases cell : store.layers[other.index]? with
      | none =>
          rw [cell] at present before
          exact before sought found present
      | some bindings =>
          rw [cell] at present before
          rcases Dict.eq_or_find?_of_insert present with rfl | present
          · exact given
          · exact before sought found present
    · exact before sought found present

end Store.Contains

/-! ## Stores that resemble each other -/

section

variable (numbers : Float → Prop)

/-- A value in which all numbers are of a kind. -/
def Value.Carries : Value → Prop
  | .num number => numbers number
  | .errorWith _ information => information.Carries
  | _ => True

/-- Bodies of functions that are the same but for labels; none is of the host. -/
inductive Body.Resembles : Body → Body → Prop where
  | closure {binders : List Binder} {parameters parameters' : List Parameter}
      {fallbacks : List (Option Value)} {statements statements' : List Node} {scope : Scope}
      (each : Parameter.Resemble numbers binders parameters parameters')
      (carry : ∀ value, some value ∈ fallbacks → value.Carries numbers)
      (bodies : Node.Resemble numbers [] statements statements') :
      Resembles (.closure parameters fallbacks statements scope)
        (.closure parameters' fallbacks statements' scope)
  | native {native : Native} (hostless : (Body.native native).Hostless) :
      Resembles (.native native) (.native native)

/-- Functions that are the same but for labels. -/
structure Function.Resembles (function other : Function) : Prop where
  name : other.name = function.name
  attributes : other.attributes = function.attributes
  body : function.body.Resembles numbers other.body

/-- Functions at the same places that are the same but for labels. -/
structure Function.Resemble (functions others : Array Function) : Prop where
  size : others.size = functions.size
  each : ∀ (place : Nat) (function : Function), functions[place]? = some function →
    ∃ other, others[place]? = some other ∧ function.Resembles numbers other

/-- Stores that are the same but for labels in the bodies of functions. -/
structure Store.Resembles (store other : Store) : Prop where
  rest : other = { store with functions := other.functions }
  functions : Function.Resemble numbers store.functions other.functions
  contains : store.Contains (Value.Carries numbers)

end

section

variable {numbers : Float → Prop}

theorem Body.Resembles.shown {body other : Body} (bodies : body.Resembles numbers other) :
    other.shown = body.shown := by
  cases bodies with
  | closure each carry bodies =>
      show "@( " ++ _ ++ _ = _
      rw [each.shownNames]
      rfl
  | native hostless => rfl

theorem Body.Resembles.hostless {body other : Body} (bodies : body.Resembles numbers other) :
    body.Hostless := by
  cases bodies with
  | closure each carry bodies => trivial
  | native hostless => exact hostless

namespace Function.Resemble

variable {functions others : Array Function}
  (resemble : Function.Resemble numbers functions others)

include resemble

theorem getElem? (place : Nat) :
    (functions[place]? = none ∧ others[place]? = none) ∨
      ∃ function other, functions[place]? = some function ∧ others[place]? = some other ∧
        function.Resembles numbers other := by
  cases found : functions[place]? with
  | none =>
      refine .inl ⟨rfl, Array.getElem?_eq_none ?_⟩
      rw [resemble.size]
      exact Array.getElem?_eq_none_iff.mp found
  | some function =>
      obtain ⟨other, present, alike⟩ := resemble.each place function found
      exact .inr ⟨function, other, rfl, present, alike⟩

theorem push {function other : Function} (alike : function.Resembles numbers other) :
    Function.Resemble numbers (functions.push function) (others.push other) where
  size := by
    rw [Array.size_push, Array.size_push, resemble.size]
  each place found present := by
    rw [Array.getElem?_push] at present
    rw [Array.getElem?_push, resemble.size]
    split at present
    · cases present
      rw [if_pos ‹_›]
      exact ⟨other, rfl, alike⟩
    · rw [if_neg ‹_›]
      exact resemble.each place found present

/-- Changing functions that resemble each other in the same way, but for their bodies. -/
theorem modify (place : Nat) {change : Function → Function}
    (keeps : ∀ function other : Function, function.Resembles numbers other →
      (change function).Resembles numbers (change other)) :
    Function.Resemble numbers (functions.modify place change) (others.modify place change) where
  size := by
    rw [Array.size_modify, Array.size_modify, resemble.size]
  each other found present := by
    rw [Array.getElem?_modify] at present ⊢
    split at present
    · rw [if_pos ‹_›]
      obtain ⟨known, before, rfl⟩ := Option.map_eq_some_iff.mp present
      obtain ⟨counterpart, presentThere, alike⟩ := resemble.each other known before
      exact ⟨change counterpart, by rw [presentThere]; rfl, keeps _ _ alike⟩
    · rw [if_neg ‹_›]
      exact resemble.each other found present

end Function.Resemble

namespace Store.Resembles

variable {store other : Store} (resembles : store.Resembles numbers other)

include resembles

theorem items (array : ArrayId) : other.items array = store.items array := by
  rw [resembles.rest]
  rfl

theorem entries (object : ObjectId) : other.entries object = store.entries object := by
  rw [resembles.rest]
  rfl

theorem bindings (layer : LayerId) : other.bindings layer = store.bindings layer := by
  rw [resembles.rest]
  rfl

theorem entry (object : ObjectId) (name : String) :
    other.entry object name = store.entry object name := by
  rw [resembles.rest]
  rfl

/-- Functions with the same handle are the same but for labels. -/
theorem function? (function : FunctionId) :
    (store.function? function = none ∧ other.function? function = none) ∨
      ∃ found counterpart, store.function? function = some found ∧
        other.function? function = some counterpart ∧ found.Resembles numbers counterpart :=
  resembles.functions.getElem? function.index

theorem hostless : store.Hostless := by
  intro function found present
  obtain ⟨counterpart, -, alike⟩ := resembles.functions.each function.index found present
  exact alike.body.hostless

theorem attributes (value : Value) : other.attributes value = store.attributes value := by
  cases value with
  | fn function =>
      show ((other.function? function).map Function.attributes).getD [] =
        ((store.function? function).map Function.attributes).getD []
      rcases resembles.function? function with ⟨missing, missingThere⟩ |
        ⟨found, counterpart, present, presentThere, alike⟩
      · rw [missing, missingThere]
      · rw [present, presentThere, Option.map_some, Option.map_some, alike.attributes]
  | _ =>
      rw [resembles.rest]
      rfl

theorem findBinding? (name : String) (layers : List LayerId) :
    other.findBinding? name layers = store.findBinding? name layers := by
  induction layers with
  | nil => rfl
  | cons layer outer inductive_step =>
      rw [Store.findBinding?, Store.findBinding?, resembles.bindings, inductive_step]

theorem binding? (scope : Scope) (name : String) :
    other.binding? scope name = store.binding? scope name :=
  congrArg (Option.map Prod.snd) (resembles.findBinding? name scope.layers)

theorem lookup? (scope : Scope) (name : String) :
    other.lookup? scope name = store.lookup? scope name := by
  rw [Store.lookup?, Store.lookup?, resembles.binding?, resembles.binding?]

theorem isBound (scope : Scope) (name : String) :
    other.isBound scope name = store.isBound scope name :=
  congrArg Option.isSome (resembles.binding? scope name)

theorem visible (scope : Scope) : other.visible scope = store.visible scope := by
  have seen (layers : List LayerId) : other.visibleIn layers = store.visibleIn layers := by
    induction layers with
    | nil => rfl
    | cons layer outer inductive_step =>
        rw [visibleIn, visibleIn, inductive_step, resembles.bindings]
  rw [Store.visible, Store.visible, seen]

/-! ### What is shown -/

theorem equal (left right : Value) : other.equal left right = store.equal left right := by
  have within (budget : Nat) (assumed : List ContainerPair) :
      other.equalWithin budget assumed = store.equalWithin budget assumed := by
    induction budget generalizing assumed with
    | zero => rfl
    | succ budget inductive_step =>
        have contents (compare : Value → Value → Bool) (pair : ContainerPair) :
            other.equalContents compare pair = store.equalContents compare pair := by
          rw [resembles.rest]
          rfl
        rw [equalWithin, equalWithin]
        refine congrArg Value.equals (funext fun pair => ?_)
        rw [inductive_step, contents]
  have pairs : other.pairCount = store.pairCount := by
    rw [resembles.rest]
    rfl
  rw [Store.equal, Store.equal, pairs, within]

theorem containerPicture (detail : Detail) (value : Value → Snapshot) (container : ContainerId) :
    other.containerPicture detail value container =
      store.containerPicture detail value container := by
  have attributes : other.attributes = store.attributes := funext resembles.attributes
  cases container with
  | arr array =>
      rw [Store.containerPicture, Store.containerPicture, attributes, resembles.items]
  | obj object =>
      rw [Store.containerPicture, Store.containerPicture, attributes, resembles.entries]
  | fn function =>
      rw [Store.containerPicture, Store.containerPicture, attributes]
      rcases resembles.function? function with ⟨missing, missingThere⟩ |
        ⟨found, counterpart, present, presentThere, alike⟩
      · rw [missing, missingThere]
      · rw [present, presentThere]
        dsimp only
        rw [alike.name, alike.body.shown]

theorem snapshot (detail : Detail) (value : Value) :
    other.snapshot detail value = store.snapshot detail value := by
  have within (budget : Nat) (path : List ContainerId) :
      other.snapshotWithin detail budget path = store.snapshotWithin detail budget path := by
    induction budget generalizing path with
    | zero => rfl
    | succ budget inductive_step =>
        rw [snapshotWithin, snapshotWithin]
        refine congrArg (Value.picture detail) (funext fun container => ?_)
        split
        · rfl
        · rw [inductive_step, resembles.containerPicture]
  have containers : other.containerCount = store.containerCount := by
    rw [containerCount, containerCount, resembles.functions.size, resembles.rest]
  rw [Store.snapshot, Store.snapshot, containers, within]

theorem display (value : Value) : other.display value = store.display value :=
  congrArg Snapshot.display (resembles.snapshot .contents value)

theorem literal (value : Value) : other.literal value = store.literal value :=
  congrArg Snapshot.literal (resembles.snapshot .contents value)

/-! ### Changes -/

/-- A change that does not concern the functions, and keeps to the numbers. -/
theorem change (change : Store → Store)
    (apart : ∀ (store : Store) (functions : Array Function),
      change { store with functions := functions } =
        { change store with functions := functions })
    (contains : (change store).Contains (Value.Carries numbers)) :
    (change store).Resembles numbers (change other) := by
  have same : (change store).functions = store.functions := by
    have commuted : change store = { change store with functions := store.functions } :=
      apart store store.functions
    rw [commuted]
  have other_eq : change other = { change store with functions := other.functions } :=
    (congrArg change resembles.rest).trans (apart store other.functions)
  constructor
  · rw [other_eq]
  · rw [other_eq, same]
    exact resembles.functions
  · exact contains

/-- A change of the functions alone. -/
theorem modifyFunction (function : FunctionId) {change : Function → Function}
    (keeps : ∀ found counterpart : Function, found.Resembles numbers counterpart →
      (change found).Resembles numbers (change counterpart)) :
    Resembles numbers
      { store with functions := store.functions.modify function.index change }
      { other with functions := other.functions.modify function.index change } where
  rest := by
    rw [resembles.rest]
  functions := resembles.functions.modify function.index keeps
  contains := resembles.contains.withFunctions _

theorem nameFunction (function : FunctionId) (name : String) :
    (store.nameFunction function name).Resembles numbers (other.nameFunction function name) :=
  resembles.modifyFunction function fun _ _ alike =>
    ⟨rfl, alike.attributes, alike.body⟩

theorem setAttributes (value : Value) (attributes : List Attribute) :
    (store.setAttributes value attributes).Resembles numbers
      (other.setAttributes value attributes) := by
  cases value with
  | arr array =>
      refine resembles.change
        (fun store => store.setAttributes (.arr array) attributes) (fun _ _ => rfl) ?_
      exact resembles.contains.modifyArray array fun _ before => before
  | obj object =>
      refine resembles.change
        (fun store => store.setAttributes (.obj object) attributes) (fun _ _ => rfl) ?_
      exact resembles.contains.modifyObject object fun _ before => before
  | fn function =>
      exact resembles.modifyFunction function fun _ _ alike => ⟨alike.name, rfl, alike.body⟩
  | _ => exact resembles

theorem bind (layer : LayerId) (name : String) {bound : Variable}
    (carries : bound.value.Carries numbers) :
    (store.modifyLayer layer fun bindings => bindings.insert name bound).Resembles numbers
      (other.modifyLayer layer fun bindings => bindings.insert name bound) :=
  resembles.change
    (fun store => store.modifyLayer layer fun bindings => bindings.insert name bound)
    (fun _ _ => rfl) (resembles.contains.bind layer name carries)

theorem describe (layer : LayerId) (name : String) (attributes : List Attribute) :
    (store.describe layer name attributes).Resembles numbers
      (other.describe layer name attributes) := by
  rw [Store.describe, Store.describe, resembles.bindings]
  split
  · rename_i found present
    exact resembles.bind layer name (resembles.contains.bindings layer name found present)
  · exact resembles

theorem setItem (array : ArrayId) (place : Nat) {value : Value}
    (carries : value.Carries numbers) :
    (store.modifyItems array fun items => items.setIfInBounds place value).Resembles numbers
      (other.modifyItems array fun items => items.setIfInBounds place value) :=
  resembles.change
    (fun store =>
      store.modifyItems array fun items => items.setIfInBounds place value)
    (fun _ _ => rfl) (resembles.contains.setItem array place carries)

theorem push (array : ArrayId) {value : Value} (carries : value.Carries numbers) :
    (store.modifyItems array fun items => items.push value).Resembles numbers
      (other.modifyItems array fun items => items.push value) :=
  resembles.change (fun store => store.modifyItems array fun items => items.push value)
    (fun _ _ => rfl) (resembles.contains.push array carries)

theorem pop (array : ArrayId) :
    (store.modifyItems array Array.pop).Resembles numbers (other.modifyItems array Array.pop) :=
  resembles.change (fun store => store.modifyItems array Array.pop) (fun _ _ => rfl)
    (resembles.contains.pop array)

theorem setEntry (object : ObjectId) (name : String) {value : Value}
    (carries : value.Carries numbers) :
    (store.setEntry object name value).Resembles numbers (other.setEntry object name value) :=
  resembles.change (fun store => store.setEntry object name value) (fun _ _ => rfl)
    (resembles.contains.setEntry object name carries)

/-! ### Allocation -/

theorem newArray {items : Array Value} (carry : ∀ value ∈ items, value.Carries numbers) :
    (store.newArray items).1.Resembles numbers (other.newArray items).1 ∧
      (other.newArray items).2 = (store.newArray items).2 := by
  refine ⟨resembles.change (fun store => (store.newArray items).1) (fun _ _ => rfl)
    (resembles.contains.newArray carry), ?_⟩
  rw [resembles.rest]
  rfl

theorem newObject {entries : Dict Value}
    (carry : ∀ name value, entries.find? name = some value → value.Carries numbers) :
    (store.newObject entries).1.Resembles numbers (other.newObject entries).1 ∧
      (other.newObject entries).2 = (store.newObject entries).2 := by
  refine ⟨resembles.change (fun store => (store.newObject entries).1) (fun _ _ => rfl)
    (resembles.contains.newObject carry), ?_⟩
  rw [resembles.rest]
  rfl

theorem newLayer {bindings : Dict Variable}
    (carry : ∀ name bound, bindings.find? name = some bound → bound.value.Carries numbers) :
    (store.newLayer bindings).1.Resembles numbers (other.newLayer bindings).1 ∧
      (other.newLayer bindings).2 = (store.newLayer bindings).2 := by
  refine ⟨resembles.change (fun store => (store.newLayer bindings).1) (fun _ _ => rfl)
    (resembles.contains.newLayer carry), ?_⟩
  rw [resembles.rest]
  rfl

theorem newFunction (name : Option String) {body body' : Body}
    (bodies : body.Resembles numbers body') :
    (store.newFunction name body).1.Resembles numbers (other.newFunction name body').1 ∧
      (other.newFunction name body').2 = (store.newFunction name body).2 := by
  refine ⟨⟨?_, resembles.functions.push ⟨rfl, rfl, bodies⟩,
    resembles.contains.withFunctions _⟩, congrArg FunctionId.mk resembles.functions.size⟩
  rw [resembles.rest]
  rfl

end Store.Resembles

/-! ## Stores that resemble themselves -/

/-- A body in which all numbers are of a kind. -/
def Body.HasOnly (numbers : Float → Prop) : Body → Prop
  | .closure parameters fallbacks statements _ =>
      (∀ number ∈ Parameter.gatherAll Shape.ownNumbers parameters, numbers number) ∧
        (∀ value, some value ∈ fallbacks → value.Carries numbers) ∧
        Node.Write numbers statements
  | .native _ => True

/-- A store without functions of the host in which all numbers are of a kind. -/
structure Store.HasOnly (numbers : Float → Prop) (store : Store) : Prop where
  hostless : store.Hostless
  contains : store.Contains (Value.Carries numbers)
  bodies : ∀ (function : FunctionId) (found : Function),
    store.function? function = some found → found.body.HasOnly numbers

theorem Body.HasOnly.resembles_self {body : Body} (only : body.HasOnly numbers)
    (hostless : body.Hostless) :
    body.Resembles numbers body := by
  cases body with
  | closure parameters fallbacks statements scope =>
      obtain ⟨inParameters, carry, written⟩ := only
      have none : Binder.AreSame [] := List.forall_mem_nil _
      exact .closure (Parameter.resemble_self none parameters inParameters) carry
        (Node.resemble_self none statements written)
  | native native => exact .native hostless

/-- A store in which all numbers are of a kind resembles itself. -/
theorem Store.HasOnly.resembles_self {store : Store} (only : store.HasOnly numbers) :
    store.Resembles numbers store where
  rest := rfl
  functions := ⟨rfl, fun place function present => ⟨function, present, rfl, rfl,
    (only.bodies ⟨place⟩ function present).resembles_self
      (only.hostless ⟨place⟩ function present)⟩⟩
  contains := only.contains

theorem Value.carries_all (value : Value) : value.Carries fun _ => True := by
  induction value with
  | errorWith name information inductive_step => exact inductive_step
  | _ => trivial

/-- Every store without functions of the host has only numbers of the kind of all numbers. -/
theorem Store.Hostless.hasOnly {store : Store} (hostless : store.Hostless) :
    store.HasOnly fun _ => True where
  hostless := hostless
  contains := ⟨fun _ value _ => value.carries_all, fun _ _ value _ => value.carries_all,
    fun _ _ bound _ => bound.value.carries_all⟩
  bodies _ found _ := by
    cases found.body with
    | closure parameters fallbacks statements scope =>
        exact ⟨fun _ _ => trivial, fun value _ => value.carries_all, fun _ _ => trivial⟩
    | native native => trivial

end

end TreeScript
