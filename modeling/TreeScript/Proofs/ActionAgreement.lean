import TreeScript.Proofs.EditAgreement
import TreeScript.Proofs.Hostless

/-!
# What actions depend on

Nothing that a script does depends on the record of events.  Two worlds that
differ only in the yields they have recorded give equal replies to every
action, and still differ in nothing else afterwards.

A hostless action keeps the lifecycle as it is and brings no function of the
host into the store, and only a tick counts as a step.
-/

namespace TreeScript

/-! ## Relations of worlds -/

/-- Whether an event tells of a yield. -/
def Event.isYield {α : Type} : Event α → Bool
  | .yielded _ => true
  | _ => false

/-- A relation of worlds, seen under two sets of options, that quiet actions and ticks keep. -/
structure ActionRelation (options options' : Options) (related : World → World → Prop) : Prop
    extends EditRelation options options' related where
  tell : ∀ {world other} (name : String) (scope : Option String) (value : Option Value),
    related world other →
      related (world.log options name scope none value) (other.log options' name scope none value)
  isStopped : ∀ {world other}, related world other →
    world.lifecycle.isStopped = other.lifecycle.isStopped
  tick : ∀ {world other}, related world other →
    (world.tick options).1 = (other.tick options').1 ∧
      related (world.tick options).2 (other.tick options').2
  newFunction : ∀ {world other} (name : Option String) {body : Body}, body.Hostless →
    related world other →
      related (world.mapStore fun store => (store.newFunction name body).1)
        (other.mapStore fun store => (store.newFunction name body).1)
  nameFunction : ∀ {world other} (function : FunctionId) (name : String),
    related world other →
      related (world.mapStore fun store => store.nameFunction function name)
        (other.mapStore fun store => store.nameFunction function name)
  record : ∀ {world other} {event : Event Snapshot}, event.isYield = false →
    related world other → related (world.record event) (other.record event)
  inputs : ∀ {world other}, related world other → world.inputs = other.inputs
  withInputs : ∀ {world other} (inputs : List String), related world other →
    related { world with inputs := inputs } { other with inputs := inputs }
  reportsOutput : options'.reportsOutput = options.reportsOutput
  detail : options'.detail = options.detail
  hasInput : options'.hasInput = options.hasInput

/-- Related worlds give equal replies to quiet actions and ticks, and stay related. -/
theorem ActionRelation.perform {options options' : Options} {related : World → World → Prop}
    (relation : ActionRelation options options' related) {world other : World}
    (alike : related world other) (action : Action)
    (quiet : action.IsQuiet ∨ action = .tick) :
    (world.perform options action).1 = (other.perform options' action).1 ∧
      related (world.perform options action).2 (other.perform options' action).2 := by
  have edits := relation.toEditRelation
  have sameStore := relation.store alike
  cases action with
  | store => exact ⟨sameStore, alike⟩
  | isStopped => exact ⟨relation.isStopped alike, alike⟩
  | tick => exact relation.tick alike
  | readName scope name => exact Edit.agree_readName edits scope name world other alike
  | define scope isMutable pattern value =>
      exact Edit.agree_define edits scope isMutable pattern value world other alike
  | decorate scope target value attributes =>
      exact Edit.agree_decorate edits scope target value attributes world other alike
  | read location => exact Edit.agree_read edits location world other alike
  | write location value => exact Edit.agree_write edits location value world other alike
  | newLayer bindings =>
      refine ⟨congrArg (fun store => (store.newLayer bindings).2) sameStore, ?_⟩
      exact relation.change (Store.keepsCores_newLayer bindings) alike
  | newArray items =>
      refine ⟨congrArg (fun store => (store.newArray items).2) sameStore, ?_⟩
      exact relation.change (Store.keepsCores_newArray items) alike
  | newObject entries =>
      refine ⟨congrArg (fun store => (store.newObject (Dict.ofList entries)).2) sameStore, ?_⟩
      exact relation.change (Store.keepsCores_newObject (Dict.ofList entries)) alike
  | newFunction name body =>
      refine ⟨congrArg (fun store => (store.newFunction name body).2) sameStore, ?_⟩
      exact relation.newFunction name (quiet.resolve_right nofun) alike
  | nameFunction function name => exact ⟨rfl, relation.nameFunction function name alike⟩
  | push array value =>
      exact ⟨rfl, relation.change (Store.keepsCores_modifyItems array _) alike⟩
  | pop array =>
      refine ⟨congrArg (fun store => ((store.items array).back?.getD .null)) sameStore, ?_⟩
      exact relation.change (Store.keepsCores_modifyItems array Array.pop) alike
  | log name scope value => exact ⟨rfl, relation.tell name scope value alike⟩
  | print value =>
      refine ⟨rfl, ?_⟩
      dsimp only [World.perform]
      rw [sameStore, relation.reportsOutput, relation.detail]
      split
      · exact relation.record rfl alike
      · exact alike
  | note value =>
      refine ⟨rfl, ?_⟩
      dsimp only [World.perform]
      rw [sameStore, relation.detail]
      exact relation.record rfl alike
  | ask prompt =>
      have asked : related (world.record (.prompt prompt)) (other.record (.prompt prompt)) :=
        relation.record rfl alike
      have sameInputs := relation.inputs alike
      dsimp only [World.perform, World.ask]
      rw [relation.hasInput]
      split
      · refine ⟨congrArg (fun inputs => some (inputs.headD "")) sameInputs, ?_⟩
        rw [← sameInputs]
        exact relation.withInputs _ asked
      · exact ⟨rfl, alike⟩
  | pause | steps | yielded => exact (quiet.elim id nofun).elim
  | deliver error => exact (quiet.elim id nofun).elim
  | transition transition => exact (quiet.elim id nofun).elim
  | mention tag => exact (quiet.elim id nofun).elim
  | subscribe transition tag => exact (quiet.elim id nofun).elim
  | unsubscribe transition tag => exact (quiet.elim id nofun).elim

/-! ## Worlds up to yields -/

namespace World

/-- A world without the yields in its record. -/
def quiet (world : World) : World :=
  { world with events := world.events.filter fun event => !event.isYield }

theorem quiet_record (world : World) {event : Event Snapshot}
    (kept : event.isYield = false) :
    (world.record event).quiet = world.quiet.record event := by
  simp [quiet, record, kept]

@[simp]
theorem quiet_record_yielded (world : World) (steps : Nat) :
    (world.record (.yielded steps)).quiet = world.quiet := by
  simp [quiet, record, Event.isYield]

/-- Worlds without functions of the host that differ only in the yields they have recorded. -/
structure Alike (world other : World) : Prop where
  quiet : world.quiet = other.quiet
  hostless : world.store.Hostless

end World

namespace Store

theorem Hostless.of_keepsBodies {change : Store → Store}
    (keeps : KeepsBodies change) {store : Store}
    (hostless : store.Hostless) :
    (change store).Hostless := by
  intro function found present
  have kept := keeps store function
  rw [present, Option.map_some] at kept
  rcases Option.map_eq_some_iff.mp kept.symm with ⟨known, knownPresent, sameBody⟩
  rw [← sameBody]
  exact hostless function known knownPresent

theorem Hostless.newFunction {store : Store}
    (hostless : store.Hostless)
    (name : Option String) {body : Body}
    (bodyHostless : body.Hostless) :
    (store.newFunction name body).1.Hostless := by
  intro function found present
  rw [function?, Store.newFunction, Array.getElem?_push] at present
  split at present
  · cases present
    exact bodyHostless
  · exact hostless function found present

end Store

namespace World.Alike

variable {world other : World}

theorem store (alike : world.Alike other) :
    world.store = other.store :=
  show world.quiet.store = other.quiet.store from congrArg World.store alike.quiet

theorem steps (alike : world.Alike other) :
    world.steps = other.steps :=
  show world.quiet.steps = other.quiet.steps from congrArg World.steps alike.quiet

theorem lifecycle (alike : world.Alike other) :
    world.lifecycle = other.lifecycle :=
  show world.quiet.lifecycle = other.quiet.lifecycle from congrArg World.lifecycle alike.quiet

theorem inputs (alike : world.Alike other) :
    world.inputs = other.inputs :=
  show world.quiet.inputs = other.quiet.inputs from congrArg World.inputs alike.quiet

theorem mapStore (alike : world.Alike other) (change : Store → Store)
    (keepsHostless : (change world.store).Hostless) :
    (world.mapStore change).Alike (other.mapStore change) where
  quiet := congrArg (World.mapStore · change) alike.quiet
  hostless := keepsHostless

theorem record (alike : world.Alike other) (event : Event Snapshot)
    (kept : event.isYield = false) :
    (world.record event).Alike (other.record event) where
  quiet := by
    rw [quiet_record world kept, quiet_record other kept, alike.quiet]
  hostless := alike.hostless

theorem log (alike : world.Alike other) (options : Options) (name : String)
    (scope bound : Option String) (value : Option Value) :
    (world.log options name scope bound value).Alike
      (other.log options name scope bound value) := by
  unfold World.log
  rw [alike.store]
  split
  · exact alike.record (.log name scope bound _) rfl
  · exact alike

/-- One world may record a yield that the other does not. -/
theorem record_yielded (alike : world.Alike other) (steps : Nat) :
    world.Alike (other.record (.yielded steps)) where
  quiet := alike.quiet.trans (quiet_record_yielded other steps).symm
  hostless := alike.hostless

theorem actionRelation (options : Options) :
    ActionRelation options options World.Alike where
  store := store
  change keeps alike := alike.mapStore _ (alike.hostless.of_keepsBodies keeps.keepsBodies)
  log name scope bound value _ alike := alike.log options name scope bound value
  tell name scope value alike := alike.log options name scope none value
  isStopped alike := congrArg Lifecycle.isStopped alike.lifecycle
  tick {world _} alike := by
    refine ⟨congrArg (fun steps => (tick options { world with steps := steps }).1) alike.steps,
      ?_, alike.hostless⟩
    exact congrArg (fun quiet : World => { quiet with steps := quiet.steps + 1 }) alike.quiet
  newFunction name _ hostless alike :=
    alike.mapStore _ (alike.hostless.newFunction name hostless)
  nameFunction function name alike :=
    alike.mapStore _ (alike.hostless.of_keepsBodies (Store.keepsBodies_nameFunction function name))
  record kept alike := alike.record _ kept
  inputs := inputs
  withInputs inputs alike :=
    ⟨congrArg (fun quiet : World => { quiet with inputs := inputs }) alike.quiet, alike.hostless⟩
  reportsOutput := rfl
  detail := rfl
  hasInput := rfl

end World.Alike

/-! ## Actions -/

namespace World

variable {world other : World} (options : Options)

/-- Hostless actions are answered alike in worlds that differ only in recorded yields. -/
theorem Alike.perform (alike : world.Alike other) (action : Action)
    (hostless : action.Hostless) :
    (world.perform options action).1 = (other.perform options action).1 ∧
      (world.perform options action).2.Alike (other.perform options action).2 := by
  have relation := Alike.actionRelation options
  cases action with
  | pause => exact ⟨congrArg Lifecycle.pause alike.lifecycle, alike⟩
  | steps => exact ⟨alike.steps, alike⟩
  | yielded =>
      refine ⟨rfl, ?_, alike.hostless⟩
      exact (quiet_record_yielded world world.steps).trans
        (alike.quiet.trans (quiet_record_yielded other other.steps).symm)
  | tick => exact relation.perform alike .tick (.inr rfl)
  | _ => exact relation.perform alike _ (.inl hostless)

/-- A hostless action brings no function of the host into the store. -/
theorem hostless_perform (action : Action) (hostless : action.Hostless)
    (storeHostless : world.store.Hostless) :
    (world.perform options action).2.store.Hostless :=
  (Alike.perform options ⟨rfl, storeHostless⟩ action hostless).2.hostless

/-- What a world without functions of the host replies is what is expected of it. -/
theorem expected_perform (action : Action) (storeHostless : world.store.Hostless) :
    action.Expected (world.perform options action).1 := by
  cases action with
  | store => exact storeHostless
  | _ => trivial

/-- One world that has come from another one without taking a step. -/
def ComesFrom (before world other : World) : Prop :=
  world = other ∧ world.steps = before.steps ∧ world.lifecycle = before.lifecycle ∧
    world.store.Extends before.store

/-- Edits take no steps, leave the lifecycle alone, and keep the bodies of functions. -/
theorem editRelation_comesFrom (before : World) :
    EditRelation options options (ComesFrom before) where
  store related := congrArg World.store related.1
  change := by
    rintro world _ change keeps ⟨rfl, steps, lifecycle, grown⟩
    exact ⟨rfl, steps, lifecycle, (keeps.keepsBodies.extends world.store).trans grown⟩
  log := by
    rintro world _ name scope bound value - ⟨rfl, kept⟩
    refine ⟨rfl, ?_⟩
    unfold World.log
    split
    · exact kept
    · exact kept

/--
Of the hostless actions only a tick is a step, none touches the lifecycle, and
all keep the bodies of functions.
-/
theorem perform_keeps (action : Action) (hostless : action.Hostless) :
    (action ≠ .tick → (world.perform options action).2.steps = world.steps) ∧
      (world.perform options action).2.lifecycle = world.lifecycle ∧
      (world.perform options action).2.store.Extends world.store := by
  have relation := editRelation_comesFrom options world
  have same : world.store.Extends world.store := .refl world.store
  have edited {α : Type} {edit : Edit α}
      (agree : Edit.Agree (ComesFrom world) edit edit) :
      (action ≠ .tick → (edit.run.run world).2.steps = world.steps) ∧
        (edit.run.run world).2.lifecycle = world.lifecycle ∧
        (edit.run.run world).2.store.Extends world.store :=
    (agree world world ⟨rfl, rfl, rfl, same⟩).2.2.imp_left fun kept _ => kept
  cases action with
  | tick => exact ⟨fun noTick => (noTick rfl).elim, rfl, same⟩
  | readName scope name => exact edited (Edit.agree_readName relation scope name)
  | define scope isMutable pattern value =>
      exact edited (Edit.agree_define relation scope isMutable pattern value)
  | decorate scope target value attributes =>
      exact edited (Edit.agree_decorate relation scope target value attributes)
  | read location => exact edited (Edit.agree_read relation location)
  | write location value => exact edited (Edit.agree_write relation location value)
  | newFunction name body =>
      exact ⟨fun _ => rfl, rfl, world.store.extends_newFunction name body⟩
  | nameFunction function name =>
      have keeps := Store.keepsBodies_nameFunction function name
      exact ⟨fun _ => rfl, rfl, keeps.extends world.store⟩
  | log name scope value =>
      dsimp only [World.perform, World.log]
      split
      · exact ⟨fun _ => rfl, rfl, same⟩
      · exact ⟨fun _ => rfl, rfl, same⟩
  | print value =>
      dsimp only [World.perform]
      split
      · exact ⟨fun _ => rfl, rfl, same⟩
      · exact ⟨fun _ => rfl, rfl, same⟩
  | ask prompt =>
      dsimp only [World.perform, World.ask]
      split
      · exact ⟨fun _ => rfl, rfl, same⟩
      · exact ⟨fun _ => rfl, rfl, same⟩
  | deliver error => exact hostless.elim
  | transition transition => exact hostless.elim
  | mention tag => exact hostless.elim
  | subscribe transition tag => exact hostless.elim
  | unsubscribe transition tag => exact hostless.elim
  | _ => exact ⟨fun _ => rfl, rfl, same⟩

end World

end TreeScript
