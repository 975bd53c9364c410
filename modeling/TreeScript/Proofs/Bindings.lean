import TreeScript.Proofs.SoundEdit

/-!
# What happens to bindings

Layers are only ever added, and a binding of a layer is never removed.  It may
get another value, if it is mutable, and other attributes, but it stays as
mutable as it was made.  Names are added to existing layers by definitions
alone, and in the places in which the scope of the definition registers them.

`Store.Grows` says all of this between two stores.  It is transitive, so that
it holds between any two states of a run as soon as every action keeps to it.
-/

namespace TreeScript

/-- A later state of a binding: as mutable as before, with the same value if it is not. -/
structure Variable.Continues (earlier later : Variable) : Prop where
  isMutable : later.isMutable = earlier.isMutable
  value : earlier.isMutable = false → later.value = earlier.value

namespace Variable.Continues

theorem refl (bound : Variable) : bound.Continues bound :=
  ⟨rfl, fun _ => rfl⟩

theorem trans {earlier between later : Variable}
    (first : earlier.Continues between)
    (second : between.Continues later) :
    earlier.Continues later where
  isMutable := second.isMutable.trans first.isMutable
  value constant :=
    (second.value (first.isMutable.trans constant)).trans (first.value constant)

end Variable.Continues

/-- A definition in a scope may bind a name in a layer, because it is registered there. -/
def Scope.Registers (scope : Scope) (layer : LayerId) (name : String) : Prop :=
  ∃ defined registered, (registered, name) ∈ scope.registrations defined ∧
    registered.layer = layer

/--
A later state of a store: every layer and every binding is still there, and the
names that existing layers have got meanwhile were to be added, with the
mutability that they now have.
-/
structure Store.Grows (adds : LayerId → String → Bool → Prop) (before after : Store) : Prop where
  layers : before.layers.size ≤ after.layers.size
  kept : ∀ layer name bound, (before.bindings layer).find? name = some bound →
    ∃ later, (after.bindings layer).find? name = some later ∧ bound.Continues later
  added : ∀ layer name later, layer.index < before.layers.size →
    (before.bindings layer).find? name = none →
    (after.bindings layer).find? name = some later →
    adds layer name later.isMutable

namespace Store

variable {adds : LayerId → String → Bool → Prop}

/-! ## Changes of a store -/

namespace Grows

/-- The bindings depend on the layers alone. -/
theorem of_layers {before after : Store}
    (same : after.layers = before.layers) :
    before.Grows adds after where
  layers := same ▸ Nat.le_refl _
  kept layer name bound found := by
    refine ⟨bound, ?_, .refl bound⟩
    rw [bindings, same]
    exact found
  added layer name later _ missing found := by
    rw [bindings, same] at found
    cases missing.symm.trans found

theorem refl (store : Store) : store.Grows adds store :=
  of_layers rfl

/-- What is added later must have been to be added only as far as the first layers go. -/
theorem trans {addsLater : LayerId → String → Bool → Prop} {before between after : Store}
    (first : before.Grows adds between)
    (second : between.Grows addsLater after)
    (within : ∀ layer name isMutable, layer.index < before.layers.size →
      addsLater layer name isMutable → adds layer name isMutable) :
    before.Grows adds after where
  layers := Nat.le_trans first.layers second.layers
  kept layer name bound found := by
    rcases first.kept layer name bound found with ⟨between, foundBetween, continues⟩
    rcases second.kept layer name between foundBetween with ⟨later, foundLater, continues'⟩
    exact ⟨later, foundLater, continues.trans continues'⟩
  added layer name later inside missing found := by
    cases bound : (between.bindings layer).find? name with
    | none =>
        have insideLater := Nat.lt_of_lt_of_le inside first.layers
        exact within layer name later.isMutable inside
          (second.added layer name later insideLater bound found)
    | some defined =>
        rcases second.kept layer name defined bound with ⟨same, foundSame, continues⟩
        cases foundSame.symm.trans found
        exact continues.isMutable ▸ first.added layer name defined inside missing bound

theorem mono {addsMore : LayerId → String → Bool → Prop} {before after : Store}
    (grows : before.Grows adds after)
    (within : ∀ layer name isMutable, layer.index < before.layers.size →
      adds layer name isMutable → addsMore layer name isMutable) :
    before.Grows addsMore after :=
  (Grows.refl before).trans grows within

end Grows

theorem find?_bind (store : Store) (layer other : LayerId) (name sought : String)
    (bound : Variable) :
    ((store.modifyLayer layer fun bindings => bindings.insert name bound).bindings other).find?
        sought =
      if other = layer ∧ sought = name ∧ layer.index < store.layers.size then some bound
      else (store.bindings other).find? sought := by
  unfold bindings modifyLayer
  rw [Array.getElem?_modify]
  by_cases here : layer.index = other.index
  · obtain rfl : layer = other := congrArg LayerId.mk here
    rw [if_pos rfl]
    by_cases inside : layer.index < store.layers.size
    · rw [Array.getElem?_eq_getElem inside, Option.map_some, Option.getD_some, Option.getD_some]
      by_cases same : sought = name
      · rw [if_pos ⟨rfl, same, inside⟩, same, Dict.find?_insert_self]
      · rw [if_neg fun both => same both.2.1, Dict.find?_insert_of_ne _ _ same]
    · rw [if_neg fun both => inside both.2.2, Array.getElem?_eq_none (Nat.le_of_not_lt inside)]
      rfl
  · rw [if_neg here, if_neg fun both => here (congrArg LayerId.index both.1.symm)]

/-- A name of a layer is bound for the first time, or its binding is replaced by a later one. -/
theorem grows_bind (store : Store) (layer : LayerId) (name : String) {bound : Variable}
    (continues : ∀ earlier, (store.bindings layer).find? name = some earlier →
      earlier.Continues bound)
    (permitted : (store.bindings layer).find? name = none → adds layer name bound.isMutable) :
    store.Grows adds (store.modifyLayer layer fun bindings => bindings.insert name bound) where
  layers := Nat.le_of_eq Array.size_modify.symm
  kept other sought earlier found := by
    rw [find?_bind]
    split
    · rename_i here
      obtain ⟨rfl, rfl, -⟩ := here
      exact ⟨bound, rfl, continues earlier found⟩
    · exact ⟨earlier, found, .refl earlier⟩
  added other sought later _ missing found := by
    rw [find?_bind] at found
    split at found
    · rename_i here
      obtain ⟨rfl, rfl, -⟩ := here
      cases found
      exact permitted missing
    · cases missing.symm.trans found

/-- A new layer leaves those that there are alone. -/
theorem bindings_newLayer (store : Store) (created : Dict Variable) {layer : LayerId}
    (inside : layer.index < store.layers.size) :
    (store.newLayer created).1.bindings layer = store.bindings layer := by
  rw [bindings, newLayer, Array.getElem?_push, if_neg (Nat.ne_of_lt inside), bindings]

theorem bindings_newLayer_self (store : Store) (created : Dict Variable) :
    (store.newLayer created).1.bindings (store.newLayer created).2 = created := by
  rw [bindings, newLayer, Array.getElem?_push_size, Option.getD_some]

theorem index_lt_of_find?_bindings {store : Store} {layer : LayerId} {name : String}
    {bound : Variable}
    (found : (store.bindings layer).find? name = some bound) :
    layer.index < store.layers.size := by
  rcases Nat.lt_or_ge layer.index store.layers.size with inside | outside
  · exact inside
  · rw [bindings, Array.getElem?_eq_none outside] at found
    exact (Dict.find?_empty_ne_some name bound found).elim

theorem grows_newLayer (store : Store) (created : Dict Variable) :
    store.Grows adds (store.newLayer created).1 where
  layers := by
    rw [newLayer, Array.size_push]
    exact Nat.le_succ _
  kept layer name bound found := by
    rw [bindings_newLayer store created (index_lt_of_find?_bindings found)]
    exact ⟨bound, found, .refl bound⟩
  added layer name later inside missing found := by
    rw [bindings_newLayer store created inside] at found
    cases missing.symm.trans found

theorem grows_describe (store : Store) (layer : LayerId) (name : String)
    (attributes : List Attribute) :
    store.Grows adds (store.describe layer name attributes) := by
  unfold describe
  split
  · rename_i bound present
    refine store.grows_bind layer name (fun earlier found => ?_) fun missing => ?_
    · cases present.symm.trans found
      exact ⟨rfl, fun _ => rfl⟩
    · cases missing.symm.trans present
  · exact .refl store

theorem grows_setAttributes (store : Store) (value : Value) (attributes : List Attribute) :
    store.Grows adds (store.setAttributes value attributes) := by
  apply Grows.of_layers
  cases value <;> rfl

/-- A binding that is found in some layers is one of the layer that it is found in. -/
theorem find?_of_findBinding? {store : Store} {name : String} {layers : List LayerId}
    {layer : LayerId} {bound : Variable}
    (found : store.findBinding? name layers = some (layer, bound)) :
    (store.bindings layer).find? name = some bound := by
  induction layers with
  | nil => cases found
  | cons first outer inductive_step =>
      rw [findBinding?] at found
      split at found
      · rename_i present
        cases found
        exact present
      · exact inductive_step found

end Store

/-! ## Edits -/

/--
A relation of stores that holds where nothing happens to the layers but that names
are added which may be added, and that mutable bindings get other values.
-/
structure Store.Withstands (adds : LayerId → String → Bool → Prop)
    (related : Store → Store → Prop) : Prop where
  same : ∀ {before after : Store}, after.layers = before.layers → related before after
  trans : ∀ {before between after : Store},
    related before between → related between after → related before after
  add : ∀ (store : Store) (layer : LayerId) (name : String) (bound : Variable),
    (store.bindings layer).find? name = none → adds layer name bound.isMutable →
    related store (store.modifyLayer layer fun bindings => bindings.insert name bound)
  assign : ∀ (store : Store) (layer : LayerId) (name : String) (found : Variable) (value : Value),
    (store.bindings layer).find? name = some found → found.isMutable = true →
    related store (store.modifyLayer layer fun bindings =>
      bindings.insert name { found with value := value })

/-- Growing withstands edits. -/
theorem Store.withstands_grows (adds : LayerId → String → Bool → Prop) :
    Withstands adds fun before after => before.Grows adds after where
  same := .of_layers
  trans first second := first.trans second fun _ _ _ _ added => added
  add store layer name bound missing permitted := by
    refine store.grows_bind layer name (fun earlier found => ?_) fun _ => permitted
    cases missing.symm.trans found
  assign store layer name bound value present isMutable := by
    refine store.grows_bind layer name (fun earlier found => ?_) fun missing => ?_
    · cases present.symm.trans found
      exact ⟨rfl, fun constant => by cases isMutable.symm.trans constant⟩
    · cases missing.symm.trans present

namespace Edit

variable {α β : Type} {adds : LayerId → String → Bool → Prop} {related : Store → Store → Prop}

/-- An edit that relates the stores before and after it, in whatever world. -/
def Relates (related : Store → Store → Prop) (edit : Edit α) : Prop :=
  ∀ world : World, related world.store (edit.run.run world).2.store

section Closure

variable (withstands : Store.Withstands adds related)

include withstands

theorem relates_pure (result : α) : Relates related (pure result) :=
  fun _ => withstands.same rfl

theorem relates_throw (error : Error) : Relates related (throw error : Edit α) :=
  fun _ => withstands.same rfl

theorem relates_ofExcept (result : Except Error α) : Relates related (liftM result : Edit α) := by
  cases result with
  | ok value => exact relates_pure withstands value
  | error error => exact relates_throw withstands error

theorem relates_bind_at {edit : Edit α} {world : World}
    (first : related world.store (edit.run.run world).2.store)
    {continuation : α → Edit β}
    (goesOn : ∀ result, Relates related (continuation result)) :
    related world.store ((edit >>= continuation).run.run world).2.store := by
  rw [run_bind]
  generalize edit.run.run world = ran at first ⊢
  rcases ran with ⟨error | result, reached⟩
  · exact first
  · exact withstands.trans first (goesOn result reached)

theorem relates_bind {edit : Edit α} (first : Relates related edit)
    {continuation : α → Edit β}
    (goesOn : ∀ result, Relates related (continuation result)) :
    Relates related (edit >>= continuation) :=
  fun world => relates_bind_at withstands (first world) goesOn

omit withstands in
/-- What follows a look at the store may rely on what it has seen. -/
theorem relates_store_bind {continuation : Store → Edit β}
    (goesOn : ∀ world : World,
      related world.store ((continuation world.store).run.run world).2.store) :
    Relates related (store >>= continuation) :=
  goesOn

theorem relates_change {change : Store → Store}
    (same : ∀ store : Store, (change store).layers = store.layers) :
    Relates related (modify fun world => world.mapStore change : Edit Unit) :=
  fun world => withstands.same (same world.store)

theorem relates_log (options : Options) (name : String) (scope : Scope) (bound : String)
    (value : Value) :
    Relates related (log options name scope bound value) :=
  fun world => withstands.same (congrArg Store.layers (World.store_log options name _ _ _ world))

end Closure

section Operations

variable (options : Options) (withstands : Store.Withstands adds related)

include withstands

theorem relates_readName (scope : Scope) (name : String) :
    Relates related (readName options scope name) := by
  refine relates_store_bind fun world => ?_
  split
  · exact (relates_bind withstands (relates_log withstands options "var:read" scope name _)
      fun _ => relates_pure withstands _) world
  · exact relates_throw withstands _ world

/-- A definition adds the name in the places in which it is registered, unless it is there. -/
theorem relates_register {bound : Variable} {registrations : List (Scope × String)}
    (permitted : ∀ place ∈ registrations, adds place.1.layer place.2 bound.isMutable) :
    Relates related (register options bound registrations) := by
  induction registrations with
  | nil => exact relates_pure withstands ()
  | cons place rest inductive_step =>
      rcases List.forall_mem_cons.mp permitted with ⟨first, others⟩
      refine relates_bind withstands
        (relates_log withstands options "var:add" place.1 place.2 bound.value) fun _ => ?_
      refine relates_store_bind fun world => ?_
      split
      · exact relates_throw withstands _ world
      · rename_i absent
        refine relates_bind_at withstands ?_ fun _ => inductive_step others
        exact withstands.add world.store place.1.layer place.2 bound
          (Option.not_isSome_iff_eq_none.mp absent) first

theorem relates_assign (scope : Scope) (name : String) (value : Value) :
    Relates related (assign options scope name value) := by
  refine relates_bind withstands (relates_log withstands options "var:write" scope name value)
    fun _ => ?_
  refine relates_store_bind fun world => ?_
  split
  · rename_i layer bound found
    split
    · rename_i isMutable
      exact withstands.assign world.store layer name bound value
        (Store.find?_of_findBinding? found) isMutable
    · exact relates_throw withstands _ world
  · exact relates_throw withstands _ world

theorem relates_newArray (items : Array Value) : Relates related (newArray items) :=
  fun _ => withstands.same rfl

theorem relates_newObject (entries : List (String × Value)) :
    Relates related (newObject entries) :=
  fun _ => withstands.same rfl

section Definition

variable {scope : Scope} {isMutable : Bool}

omit withstands in
mutual

/-- A definition adds names where its scope registers them, as mutable as it says. -/
theorem relates_define (withstands : Store.Withstands adds related)
    (permitted : ∀ layer name, scope.Registers layer name → adds layer name isMutable) :
    ∀ (pattern : Node) (value : Value),
      Relates related (define options scope isMutable pattern value)
  | .mk shape span, value => by
      cases shape with
      | identifier name =>
          exact relates_register options withstands fun place mem =>
            permitted _ _ ⟨name, place.1, mem, rfl⟩
      | arr patterns =>
          refine relates_bind withstands (relates_ofExcept withstands value.asArr) fun array => ?_
          exact relates_store_bind fun world =>
            relates_defineItems withstands permitted patterns _ world
      | obj patterns =>
          refine relates_bind withstands (relates_ofExcept withstands value.asObj) fun object => ?_
          exact relates_store_bind fun world =>
            relates_defineEntries withstands permitted patterns _ world
      | _ => exact relates_throw withstands _

theorem relates_defineItems (withstands : Store.Withstands adds related)
    (permitted : ∀ layer name, scope.Registers layer name → adds layer name isMutable) :
    ∀ (patterns : List Node) (values : List Value),
      Relates related (defineItems options scope isMutable patterns values)
  | [], _ => relates_pure withstands ()
  | pattern :: rest, _ =>
      relates_bind withstands (relates_define withstands permitted pattern _) fun _ =>
        relates_defineItems withstands permitted rest _

theorem relates_defineEntries (withstands : Store.Withstands adds related)
    (permitted : ∀ layer name, scope.Registers layer name → adds layer name isMutable) :
    ∀ (patterns : List (String × Node)) (values : Dict Value),
      Relates related (defineEntries options scope isMutable patterns values)
  | [], _ => relates_pure withstands ()
  | (_, pattern) :: rest, values =>
      relates_bind withstands (relates_define withstands permitted pattern _) fun _ =>
        relates_defineEntries withstands permitted rest values

end

end Definition

omit withstands in
mutual

theorem relates_read (withstands : Store.Withstands adds related) :
    ∀ location : Location, Relates related (read options location)
  | .name scope name => relates_readName options withstands scope name
  | .element array index => by
      refine relates_store_bind fun world => ?_
      dsimp only
      split
      · exact relates_pure withstands _ world
      · exact relates_throw withstands _ world
  | .entry object name => relates_store_bind fun world => relates_pure withstands _ world
  | .items locations =>
      relates_bind withstands (relates_readItems withstands locations) fun _ =>
        relates_newArray withstands _
  | .entries locations =>
      relates_bind withstands (relates_readEntries withstands locations) fun _ =>
        relates_newObject withstands _

theorem relates_readItems (withstands : Store.Withstands adds related) :
    ∀ locations : List Location, Relates related (readItems options locations)
  | [] => relates_pure withstands []
  | location :: rest =>
      relates_bind withstands (relates_read withstands location) fun _ =>
        relates_bind withstands (relates_readItems withstands rest) fun _ =>
          relates_pure withstands _

theorem relates_readEntries (withstands : Store.Withstands adds related) :
    ∀ locations : List (String × Location), Relates related (readEntries options locations)
  | [] => relates_pure withstands []
  | (_, location) :: rest =>
      relates_bind withstands (relates_read withstands location) fun _ =>
        relates_bind withstands (relates_readEntries withstands rest) fun _ =>
          relates_pure withstands _

end

omit withstands in
mutual

theorem relates_write (withstands : Store.Withstands adds related) :
    ∀ (location : Location) (value : Value), Relates related (write options location value)
  | .name scope name, value => relates_assign options withstands scope name value
  | .element array index, value => by
      refine relates_store_bind fun world => ?_
      dsimp only
      split
      · refine relates_change withstands (fun store => ?_) world
        rfl
      · exact relates_throw withstands _ world
  | .entry object name, value => relates_change withstands fun _ => rfl
  | .items locations, value =>
      relates_bind withstands (relates_ofExcept withstands value.asArr) fun _ =>
        relates_store_bind fun world => relates_writeItems withstands locations _ world
  | .entries locations, value =>
      relates_bind withstands (relates_ofExcept withstands value.asObj) fun _ =>
        relates_store_bind fun world => relates_writeEntries withstands locations _ world

theorem relates_writeItems (withstands : Store.Withstands adds related) :
    ∀ (locations : List Location) (values : List Value),
      Relates related (writeItems options locations values)
  | [], _ => relates_pure withstands ()
  | location :: rest, _ =>
      relates_bind withstands (relates_write withstands location _) fun _ =>
        relates_writeItems withstands rest _

theorem relates_writeEntries (withstands : Store.Withstands adds related) :
    ∀ (locations : List (String × Location)) (values : Dict Value),
      Relates related (writeEntries options locations values)
  | [], _ => relates_pure withstands ()
  | (_, location) :: rest, values =>
      relates_bind withstands (relates_write withstands location _) fun _ =>
        relates_writeEntries withstands rest values

end

end Operations

/-- Attributes change neither which names are bound nor their values. -/
theorem grows_decorate (scope : Scope) (target : Node) (value : Value)
    (attributes : List Attribute) :
    Relates (fun before after => before.Grows adds after)
      (decorate scope target value attributes) := by
  have withstands := Store.withstands_grows adds
  unfold decorate
  split
  · exact relates_pure withstands ()
  · refine relates_bind withstands
      (fun world => world.store.grows_setAttributes value attributes) fun _ => ?_
    split
    · exact fun world => world.store.grows_describe _ _ _
    · exact relates_pure withstands ()

end Edit

/-! ## Actions -/

/-- The names that an action may add to layers that there are, and how mutable they get. -/
def Action.Adds (layer : LayerId) (name : String) (isMutable : Bool) : Action → Prop
  | .define scope asked _ _ => isMutable = asked ∧ scope.Registers layer name
  | _ => False

/-- What withstands edits and new layers withstands every action but that attributes are put on
what has been defined. -/
theorem World.relates_perform (options : Options) {action : Action}
    {related : Store → Store → Prop}
    (withstands : Store.Withstands (fun layer name isMutable => action.Adds layer name isMutable)
      related)
    (newLayer : ∀ {created : Dict Variable}, action = .newLayer created →
      ∀ store : Store, related store (store.newLayer created).1)
    (decorate : ∀ {scope target value attributes},
      action = .decorate scope target value attributes →
      Edit.Relates related (Edit.decorate scope target value attributes)) (world : World) :
    related world.store (world.perform options action).2.store := by
  cases action with
  | readName scope name => exact Edit.relates_readName options withstands scope name world
  | define scope isMutable pattern value =>
      exact Edit.relates_define options withstands (fun layer name registers => ⟨rfl, registers⟩)
        pattern value world
  | decorate scope target value attributes => exact decorate rfl world
  | read location => exact Edit.relates_read options withstands location world
  | write location value => exact Edit.relates_write options withstands location value world
  | newLayer bindings => exact newLayer rfl world.store
  | log name scope value =>
      exact withstands.same (congrArg Store.layers (store_log options name scope none value world))
  | print value =>
      apply withstands.same
      dsimp only [perform]
      split <;> rfl
  | ask prompt => exact withstands.same (congrArg Store.layers (store_ask options world prompt))
  | deliver error =>
      exact withstands.same (congrArg Store.layers (store_deliver options world error))
  | mention tag => exact withstands.same (congrArg Store.layers (store_handler world tag .nothing))
  | subscribe transition tag =>
      exact withstands.same (congrArg Store.layers (store_handler world tag .nothing))
  | unsubscribe transition tag =>
      exact withstands.same (congrArg Store.layers (store_handler world tag .nothing))
  | _ => exact withstands.same rfl

/-- Whatever an action does, it removes no binding, and adds none but those it may add. -/
theorem World.grows_perform (options : Options) (world : World) (action : Action) :
    world.store.Grows (fun layer name isMutable => action.Adds layer name isMutable)
      (world.perform options action).2.store :=
  relates_perform options (Store.withstands_grows _) (fun _ store => store.grows_newLayer _)
    (fun _ => Edit.grows_decorate _ _ _ _) world

end TreeScript
