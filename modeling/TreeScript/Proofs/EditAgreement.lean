import TreeScript.Machine.Edit

/-!
# What edits depend on

An edit looks at the store only, and it changes the world only by changes of
the store that leave the names and the bodies of functions alone, and by events.
So an edit gives equal results in worlds that are related in any way that these
changes keep; `EditRelation` lists them.
-/

namespace TreeScript

/-- A change of the store that leaves the bodies of functions alone. -/
def Store.KeepsBodies (change : Store → Store) : Prop :=
  ∀ (store : Store) (function : FunctionId),
    ((change store).function? function).map Function.body =
      (store.function? function).map Function.body

/-- What a function is named, and what it does when it is called. -/
def Store.core? (store : Store) (function : FunctionId) : Option (Option String × Body) :=
  (store.function? function).map fun found => (found.name, found.body)

/-- A change of the store that leaves the names and the bodies of functions alone. -/
def Store.KeepsCores (change : Store → Store) : Prop :=
  ∀ (store : Store) (function : FunctionId),
    (change store).core? function = store.core? function

namespace Store

theorem KeepsCores.keepsBodies {change : Store → Store} (keeps : KeepsCores change) :
    KeepsBodies change := by
  intro store function
  have kept := congrArg (Option.map Prod.snd) (keeps store function)
  rwa [core?, core?, Option.map_map, Option.map_map] at kept

theorem keepsCores_modifyLayer (layer : LayerId) (change : Dict Variable → Dict Variable) :
    KeepsCores fun store => store.modifyLayer layer change :=
  fun _ _ => rfl

theorem keepsCores_modifyItems (array : ArrayId) (change : Array Value → Array Value) :
    KeepsCores fun store => store.modifyItems array change :=
  fun _ _ => rfl

theorem keepsCores_setEntry (object : ObjectId) (name : String) (value : Value) :
    KeepsCores fun store => store.setEntry object name value :=
  fun _ _ => rfl

theorem keepsCores_newArray (items : Array Value) :
    KeepsCores fun store => (store.newArray items).1 :=
  fun _ _ => rfl

theorem keepsCores_newObject (entries : Dict Value) :
    KeepsCores fun store => (store.newObject entries).1 :=
  fun _ _ => rfl

theorem keepsCores_newLayer (bindings : Dict Variable) :
    KeepsCores fun store => (store.newLayer bindings).1 :=
  fun _ _ => rfl

theorem keepsCores_describe (layer : LayerId) (name : String) (attributes : List Attribute) :
    KeepsCores fun store => store.describe layer name attributes := by
  intro store function
  dsimp only [describe]
  split <;> rfl

/-- Changing a function in everything but one part of it. -/
theorem map_modify_of_keeps {α : Type} {part : Function → α} (functions : Array Function)
    (place index : Nat) {change : Function → Function}
    (keeps : ∀ found, part (change found) = part found) :
    ((functions.modify place change)[index]?).map part = (functions[index]?).map part := by
  rw [Array.getElem?_modify]
  split
  · rw [Option.map_map]
    exact congrArg (functions[index]?.map ·) (funext keeps)
  · rfl

theorem keepsCores_setAttributes (value : Value) (attributes : List Attribute) :
    KeepsCores fun store => store.setAttributes value attributes := by
  intro store function
  cases value with
  | fn named => exact map_modify_of_keeps store.functions named.index function.index fun _ => rfl
  | _ => rfl

theorem keepsBodies_nameFunction (named : FunctionId) (name : String) :
    KeepsBodies fun store => store.nameFunction named name :=
  fun store function =>
    map_modify_of_keeps store.functions named.index function.index fun _ => rfl

/-- A store in which every function of another one is left, with the body that it has there. -/
def Extends (store before : Store) : Prop :=
  ∀ (function : FunctionId) (found : Function), before.function? function = some found →
    ∃ known, store.function? function = some known ∧ known.body = found.body

theorem Extends.refl (store : Store) : store.Extends store :=
  fun _ found present => ⟨found, present, rfl⟩

theorem Extends.trans {store between before : Store}
    (later : store.Extends between) (earlier : between.Extends before) :
    store.Extends before := by
  intro function found present
  rcases earlier function found present with ⟨known, knownPresent, sameBody⟩
  rcases later function known knownPresent with ⟨last, lastPresent, stillSame⟩
  exact ⟨last, lastPresent, stillSame.trans sameBody⟩

theorem KeepsBodies.extends {change : Store → Store} (keeps : KeepsBodies change)
    (store : Store) :
    (change store).Extends store := by
  intro function found present
  have kept := keeps store function
  rw [present] at kept
  rcases Option.map_eq_some_iff.mp kept with ⟨known, knownPresent, sameBody⟩
  exact ⟨known, knownPresent, sameBody⟩

theorem extends_newFunction (store : Store) (name : Option String) (body : Body) :
    (store.newFunction name body).1.Extends store := by
  intro function found present
  refine ⟨found, ?_, rfl⟩
  have inside : function.index < store.functions.size :=
    (Array.getElem?_eq_some_iff.mp present).1
  rw [function?, newFunction, Array.getElem?_push, if_neg (Nat.ne_of_lt inside)]
  exact present

end Store

/-- What is put together from parts succeeds if all of its parts do. -/
theorem Except.bind_eq_ok_iff {ε α β : Type} {result : Except ε α} {next : α → Except ε β}
    {value : β} :
    result >>= next = .ok value ↔ ∃ given, result = .ok given ∧ next given = .ok value := by
  cases result with
  | error error => simp [bind, Except.bind]
  | ok given => simp [bind, Except.bind]

/-- The names under which edits tell the host what happens to a variable. -/
def variableEvents : List String :=
  ["var:read", "var:add", "var:write"]

/-- A relation of worlds, seen under two sets of options, that edits keep. -/
structure EditRelation (options options' : Options) (related : World → World → Prop) : Prop where
  store : ∀ {world other}, related world other → world.store = other.store
  change : ∀ {world other} {change : Store → Store}, Store.KeepsCores change →
    related world other → related (world.mapStore change) (other.mapStore change)
  log : ∀ {world other} (name : String) (scope bound : Option String) (value : Option Value),
    name ∈ variableEvents → related world other →
      related (world.log options name scope bound value) (other.log options' name scope bound value)

namespace Edit

variable {α β : Type}

/-- Edits that give equal results, and related worlds, in related worlds. -/
def Agree (related : World → World → Prop) (first second : Edit α) : Prop :=
  ∀ world other, related world other →
    (first.run.run world).1 = (second.run.run other).1 ∧
      related (first.run.run world).2 (second.run.run other).2

theorem run_bind (edit : Edit α) (continuation : α → Edit β) (world : World) :
    (edit >>= continuation).run.run world =
      match edit.run.run world with
      | (.ok result, reached) => (continuation result).run.run reached
      | (.error error, reached) => (.error error, reached) := by
  show StateT.run (ExceptT.run edit >>= ExceptT.bindCont continuation) world = _
  rw [StateT.run_bind]
  rcases StateT.run (ExceptT.run edit) world with ⟨error | result, reached⟩ <;> rfl

/-- What reading a name comes to. -/
theorem run_readName (options : Options) (scope : Scope) (name : String) (world : World) :
    (readName options scope name).run.run world =
      match world.store.lookup? scope name with
      | some found => (.ok found.value, world.log options "var:read" (some scope.name) (some name)
          (some found.value))
      | none => (.error (.of (.unknownIdentifier name scope.name)), world) := by
  have ran : (readName options scope name).run.run world =
      ((match world.store.lookup? scope name with
        | some found => do
            log options "var:read" scope name found.value
            return found.value
        | none => throw (.of (.unknownIdentifier name scope.name)) : Edit Value)).run.run world :=
    rfl
  rw [ran]
  cases world.store.lookup? scope name with
  | none => rfl
  | some found => rfl

/-- One registration: it is told, and refused if the name is bound. -/
theorem run_register_cons (options : Options) (bound : Variable) (scope : Scope) (name : String)
    (rest : List (Scope × String)) (world : World) :
    let logged := world.log options "var:add" (some scope.name) (some name) (some bound.value)
    (register options bound ((scope, name) :: rest)).run.run world =
      if (logged.store.bindings scope.layer).contains name then
        (.error (.of (.alreadyDefined name scope.name)), logged)
      else
        (register options bound rest).run.run (logged.mapStore fun store =>
          store.modifyLayer scope.layer fun bindings => bindings.insert name bound) := by
  intro logged
  rw [register, run_bind]
  show ((do
    if (logged.store.bindings scope.layer).contains name then
      throw (.of (.alreadyDefined name scope.name))
    modify fun world =>
      world.mapStore fun store =>
        store.modifyLayer scope.layer fun bindings => bindings.insert name bound
    register options bound rest : Edit Unit)).run.run logged = _
  split <;> rfl

section Closure

variable {related : World → World → Prop}

theorem agree_pure (result : α) :
    Agree related (pure result) (pure result) :=
  fun _ _ alike => ⟨rfl, alike⟩

theorem agree_throw (error : Error) :
    Agree related (throw error : Edit α) (throw error) :=
  fun _ _ alike => ⟨rfl, alike⟩

theorem agree_ofExcept (result : Except Error α) :
    Agree related (liftM result : Edit α) (liftM result) := by
  cases result with
  | ok value => exact agree_pure value
  | error error => exact agree_throw error

theorem Agree.bind {first second : Edit α} (agree : Agree related first second)
    {continuation other : α → Edit β}
    (goesOn : ∀ result, Agree related (continuation result) (other result)) :
    Agree related (first >>= continuation) (second >>= other) := by
  intro world world' alike
  have agreed := agree world world' alike
  rw [run_bind, run_bind]
  generalize first.run.run world = ran at agreed ⊢
  generalize second.run.run world' = ran' at agreed ⊢
  rcases ran with ⟨error | result, reached⟩ <;> rcases ran' with ⟨error' | result', reached'⟩
  · exact ⟨congrArg Except.error (Except.error.inj agreed.1), agreed.2⟩
  · cases agreed.1
  · cases agreed.1
  · rcases Except.ok.inj agreed.1 with rfl
    exact goesOn result reached reached' agreed.2

end Closure

section Operations

variable {options options' : Options} {related : World → World → Prop}
variable (relation : EditRelation options options' related)

include relation

theorem agree_store : Agree related store store :=
  fun _ _ alike => ⟨congrArg Except.ok (relation.store alike), alike⟩

theorem agree_change {change : Store → Store} (keeps : Store.KeepsCores change) :
    Agree related (modify fun world => world.mapStore change)
      (modify fun world => world.mapStore change) :=
  fun _ _ alike => ⟨rfl, relation.change keeps alike⟩

theorem agree_log {name : String} (ofVariable : name ∈ variableEvents) (scope : Scope)
    (bound : String) (value : Value) :
    Agree related (log options name scope bound value) (log options' name scope bound value) :=
  fun _ _ alike =>
    ⟨rfl, relation.log name (some scope.name) (some bound) (some value) ofVariable alike⟩

theorem agree_newArray (items : Array Value) :
    Agree related (newArray items) (newArray items) := by
  intro world other alike
  refine ⟨?_, relation.change (Store.keepsCores_newArray items) alike⟩
  show Except.ok (Value.arr (world.store.newArray items).2) =
    Except.ok (Value.arr (other.store.newArray items).2)
  rw [relation.store alike]

theorem agree_newObject (entries : List (String × Value)) :
    Agree related (newObject entries) (newObject entries) := by
  intro world other alike
  refine ⟨?_, relation.change (Store.keepsCores_newObject (Dict.ofList entries)) alike⟩
  show Except.ok (Value.obj (world.store.newObject (Dict.ofList entries)).2) =
    Except.ok (Value.obj (other.store.newObject (Dict.ofList entries)).2)
  rw [relation.store alike]

/-! ## Names -/

theorem agree_readName (scope : Scope) (name : String) :
    Agree related (readName options scope name) (readName options' scope name) := by
  refine (agree_store relation).bind ?_
  intro store
  split
  · have told : "var:read" ∈ variableEvents := by decide
    exact (agree_log relation told scope name _).bind fun _ => agree_pure _
  · exact agree_throw _

theorem agree_register (bound : Variable) (registrations : List (Scope × String)) :
    Agree related (register options bound registrations)
      (register options' bound registrations) := by
  induction registrations with
  | nil => exact agree_pure ()
  | cons registration rest inductive_step =>
      have told : "var:add" ∈ variableEvents := by decide
      refine (agree_log relation told registration.1 registration.2 bound.value).bind ?_
      intro _
      refine (agree_store relation).bind ?_
      intro store
      split
      · exact agree_throw _
      · exact (agree_change relation (Store.keepsCores_modifyLayer _ _)).bind fun _ =>
          inductive_step

theorem agree_assign (scope : Scope) (name : String) (value : Value) :
    Agree related (assign options scope name value) (assign options' scope name value) := by
  have told : "var:write" ∈ variableEvents := by decide
  refine (agree_log relation told scope name value).bind ?_
  intro _
  refine (agree_store relation).bind ?_
  intro store
  split
  · split
    · exact agree_change relation (Store.keepsCores_modifyLayer _ _)
    · exact agree_throw _
  · exact agree_throw _

end Operations

/-! ## Patterns and locations -/

section Recursion

variable {options options' : Options} {related : World → World → Prop}

mutual

theorem agree_define (relation : EditRelation options options' related) (scope : Scope)
    (isMutable : Bool) :
    ∀ pattern value, Agree related (define options scope isMutable pattern value)
      (define options' scope isMutable pattern value)
  | .mk shape span, value => by
      cases shape with
      | identifier name => exact agree_register relation _ _
      | arr patterns =>
          refine (agree_ofExcept value.asArr).bind ?_
          intro array
          exact (agree_store relation).bind fun store =>
            agree_defineItems relation scope isMutable patterns _
      | obj patterns =>
          refine (agree_ofExcept value.asObj).bind ?_
          intro object
          exact (agree_store relation).bind fun store =>
            agree_defineEntries relation scope isMutable patterns _
      | _ => exact agree_throw _

theorem agree_defineItems (relation : EditRelation options options' related) (scope : Scope)
    (isMutable : Bool) :
    ∀ patterns values, Agree related (defineItems options scope isMutable patterns values)
      (defineItems options' scope isMutable patterns values)
  | [], _ => agree_pure ()
  | pattern :: rest, _ =>
      (agree_define relation scope isMutable pattern _).bind fun _ =>
        agree_defineItems relation scope isMutable rest _

theorem agree_defineEntries (relation : EditRelation options options' related) (scope : Scope)
    (isMutable : Bool) :
    ∀ patterns values, Agree related (defineEntries options scope isMutable patterns values)
      (defineEntries options' scope isMutable patterns values)
  | [], _ => agree_pure ()
  | (_, pattern) :: rest, values =>
      (agree_define relation scope isMutable pattern _).bind fun _ =>
        agree_defineEntries relation scope isMutable rest values

end

theorem agree_decorate (relation : EditRelation options options' related) (scope : Scope)
    (target : Node) (value : Value) (attributes : List Attribute) :
    Agree related (decorate scope target value attributes)
      (decorate scope target value attributes) := by
  unfold decorate
  split
  · exact agree_pure ()
  · refine (agree_change relation (Store.keepsCores_setAttributes value attributes)).bind ?_
    intro _
    split
    · exact agree_change relation (Store.keepsCores_describe _ _ _)
    · exact agree_pure ()

mutual

theorem agree_read (relation : EditRelation options options' related) :
    ∀ location, Agree related (read options location) (read options' location)
  | .name scope name => agree_readName relation scope name
  | .element array index => by
      refine (agree_store relation).bind ?_
      intro store
      dsimp only
      split
      · exact agree_pure _
      · exact agree_throw _
  | .entry object name => (agree_store relation).bind fun store => agree_pure _
  | .items locations =>
      (agree_readItems relation locations).bind fun values => agree_newArray relation _
  | .entries locations =>
      (agree_readEntries relation locations).bind fun entries => agree_newObject relation _

theorem agree_readItems (relation : EditRelation options options' related) :
    ∀ locations, Agree related (readItems options locations) (readItems options' locations)
  | [] => agree_pure _
  | location :: rest =>
      (agree_read relation location).bind fun _ =>
        (agree_readItems relation rest).bind fun _ => agree_pure _

theorem agree_readEntries (relation : EditRelation options options' related) :
    ∀ locations, Agree related (readEntries options locations) (readEntries options' locations)
  | [] => agree_pure _
  | (_, location) :: rest =>
      (agree_read relation location).bind fun _ =>
        (agree_readEntries relation rest).bind fun _ => agree_pure _

end

mutual

theorem agree_write (relation : EditRelation options options' related) :
    ∀ location value, Agree related (write options location value) (write options' location value)
  | .name scope name, value => agree_assign relation scope name value
  | .element array index, value => by
      refine (agree_store relation).bind ?_
      intro store
      dsimp only
      split
      · exact agree_change relation (Store.keepsCores_modifyItems _ _)
      · exact agree_throw _
  | .entry object name, value =>
    agree_change relation (Store.keepsCores_setEntry object name value)
  | .items locations, value =>
      (agree_ofExcept value.asArr).bind fun array =>
        (agree_store relation).bind fun store => agree_writeItems relation locations _
  | .entries locations, value =>
      (agree_ofExcept value.asObj).bind fun object =>
        (agree_store relation).bind fun store => agree_writeEntries relation locations _

theorem agree_writeItems (relation : EditRelation options options' related) :
    ∀ locations values, Agree related (writeItems options locations values)
      (writeItems options' locations values)
  | [], _ => agree_pure ()
  | location :: rest, _ =>
      (agree_write relation location _).bind fun _ => agree_writeItems relation rest _

theorem agree_writeEntries (relation : EditRelation options options' related) :
    ∀ locations values, Agree related (writeEntries options locations values)
      (writeEntries options' locations values)
  | [], _ => agree_pure ()
  | (_, location) :: rest, values =>
      (agree_write relation location _).bind fun _ => agree_writeEntries relation rest values

end

end Recursion

end Edit

end TreeScript
