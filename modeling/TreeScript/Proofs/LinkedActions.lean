import TreeScript.Machine.Action
import TreeScript.Proofs.LinkedEdits

/-!
# Actions of linked runs

What a script does in asynchronous evaluation, with functions of the library
only, is done alike by runs that are linked.  Linked actions advance linked
worlds together, and are answered with what is linked again.  The answers stay
so however the link is extended later, so a run may be compared under a link
that knows all handles to come.

Nothing limits the steps here: a limit counts the steps of all runs together.
-/

namespace TreeScript

namespace Action

/-- Actions of scripts that keep to some names, up to linked handles. -/
inductive Linked (names : String → Bool) (link : Link) : Action → Action → Prop where
  | store : Linked names link .store .store
  | isStopped : Linked names link .isStopped .isStopped
  | pause : Linked names link .pause .pause
  | tick : Linked names link .tick .tick
  | readName {scope scope' : Scope} {name : String}
      (scopes : scope.Linked link scope') (named : names name) :
      Linked names link (.readName scope name) (.readName scope' name)
  | define {scope scope' : Scope} (isMutable : Bool) {pattern : Node} {value value' : Value}
      (scopes : scope.Linked link scope') (keeps : pattern.keepsTo names)
      (values : value.Linked link value') :
      Linked names link (.define scope isMutable pattern value)
        (.define scope' isMutable pattern value')
  | decorate (scope scope' : Scope) (target : Node) (value value' : Value) :
      Linked names link (.decorate scope target value []) (.decorate scope' target value' [])
  | read {location location' : Location} (locations : location.Linked names link location') :
      Linked names link (.read location) (.read location')
  | write {location location' : Location} {value value' : Value}
      (locations : location.Linked names link location') (values : value.Linked link value') :
      Linked names link (.write location value) (.write location' value')
  | newLayer {bindings bindings' : Dict Variable}
      (each : Bindings.Linked names link bindings bindings') :
      Linked names link (.newLayer bindings) (.newLayer bindings')
  | newArray {items items' : Array Value}
      (each : List.Forall₂ (Value.Linked link) items.toList items'.toList) :
      Linked names link (.newArray items) (.newArray items')
  | newObject {entries entries' : List (String × Value)}
      (each : List.Forall₂ (Named (Value.Linked link)) entries entries') :
      Linked names link (.newObject entries) (.newObject entries')
  | newFunction (name : Option String) {body body' : Body}
      (bodies : body.Linked names link body') :
      Linked names link (.newFunction name body) (.newFunction name body')
  | nameFunction {function function' : FunctionId}
      (handles : link .function function.index function'.index) (name : String) :
      Linked names link (.nameFunction function name) (.nameFunction function' name)
  | push {array array' : ArrayId} {value value' : Value}
      (handles : link .array array.index array'.index) (values : value.Linked link value') :
      Linked names link (.push array value) (.push array' value')
  | pop {array array' : ArrayId} (handles : link .array array.index array'.index) :
      Linked names link (.pop array) (.pop array')
  | log (name : String) (scope scope' : Option String) (value value' : Option Value) :
      Linked names link (.log name scope value) (.log name scope' value')
  | print (value value' : Value) : Linked names link (.print value) (.print value')
  | ask (prompt : String) (named : names LibraryFunction.readline.name) :
      Linked names link (.ask prompt) (.ask prompt)

/-- Runs that are linked bring no function of the host into their stores. -/
theorem Linked.hostless {names : String → Bool} {link : Link} {action other : Action}
    (linked : action.Linked names link other) : action.Hostless := by
  cases linked with
  | newFunction name bodies => cases bodies <;> trivial
  | _ => trivial

/-- Answers to linked actions that differ in linked handles only. -/
def RepliesLinked (names : String → Bool) (link : Link) :
    (action other : Action) → action.Reply → other.Reply → Prop
  | .store, .store, seen, seen' => seen.Linked names link seen'
  | .isStopped, .isStopped, stopped, stopped' => stopped = stopped'
  | .pause, .pause, given, given' => given = none ∧ given' = none
  | .tick, .tick, within, within' => within = true ∧ within' = true
  | .readName _ _, .readName _ _, result, result' =>
      Except.Linked Eq (Value.Linked link) result result'
  | .define _ _ _ _, .define _ _ _ _, result, result' =>
      Except.Linked Eq (fun _ _ => True) result result'
  | .decorate _ _ _ _, .decorate _ _ _ _, result, result' =>
      Except.Linked Eq (fun _ _ => True) result result'
  | .read _, .read _, result, result' => Except.Linked Eq (Value.Linked link) result result'
  | .write _ _, .write _ _, result, result' => Except.Linked Eq (fun _ _ => True) result result'
  | .newLayer _, .newLayer _, layer, layer' => link .layer layer.index layer'.index
  | .newArray _, .newArray _, array, array' => link .array array.index array'.index
  | .newObject _, .newObject _, object, object' => link .object object.index object'.index
  | .newFunction _ _, .newFunction _ _, function, function' =>
      link .function function.index function'.index
  | .pop _, .pop _, value, value' => value.Linked link value'
  | .ask _, .ask _, line, line' => line = line'
  | _, _, _, _ => True

end Action

namespace World

variable {options : Options} {names : String → Bool} {link : Link} {world world' : World}

/-- An edit whose results are linked under any link that extends the one it ends with. -/
theorem advance_edit {α β : Type} {same : Link → α → β → Prop} {edit : Edit α} {other : Edit β}
    (linked : Edit.Linked options names link same edit other)
    (worlds : World.Linked options names link world world')
    (mono : ∀ {wider widest : Link}, wider ≤ widest → ∀ result result',
      same wider result result' → same widest result result') :
    ∃ wider,
      Advance options names link world world' wider (edit.run.run world).2
        (other.run.run world').2 ∧
        ∀ widest, wider.Extends (edit.run.run world).2.store (other.run.run world').2.store widest →
          Except.Linked Eq (same widest) (edit.run.run world).1 (other.run.run world').1 := by
  obtain ⟨wider, advance, results⟩ := linked world world' worlds
  exact ⟨wider, advance, fun _ extension =>
    results.imp (fun _ _ same => same) (mono extension.within)⟩

/-- Linked actions advance linked worlds together, if what they name has no name yet. -/
theorem linked_perform (unlimited : options.stepLimit = 0)
    (worlds : World.Linked options names link world world')
    {action action' : Action} (actions : action.Linked names link action')
    (unnamed : ∀ function name, action = .nameFunction function name →
      ∀ cell ∈ world.store.function? function, cell.name = none) :
    ∃ wider,
      Advance options names link world world' wider (world.perform options action).2
        (world'.perform options action').2 ∧
        ∀ widest,
          wider.Extends (world.perform options action).2.store
            (world'.perform options action').2.store widest →
          action.RepliesLinked names widest action' (world.perform options action).1
            (world'.perform options action').1 := by
  cases actions with
  | store => exact ⟨link, worlds.advance_refl, fun _ extension => extension.linked worlds.store⟩
  | isStopped =>
      exact ⟨link, worlds.advance_refl,
        fun _ _ => congrArg Lifecycle.isStopped worlds.lifecycle⟩
  | pause =>
      have same : world.lifecycle.pause = world'.lifecycle.pause :=
        congrArg Lifecycle.pause worlds.lifecycle
      exact ⟨link, worlds.advance_refl, fun _ _ => ⟨same.trans worlds.unpaused, worlds.unpaused⟩⟩
  | tick =>
      have within (world : World) : (world.tick options).1 = true := by simp [tick, unlimited]
      exact ⟨link, worlds.advance_of_unmoved ⟨rfl, rfl, rfl⟩ ⟨rfl, rfl, rfl⟩,
        fun _ _ => ⟨within world, within world'⟩⟩
  | readName scopes named =>
      exact advance_edit (Edit.linked_readName scopes named) worlds
        fun within _ _ values => values.mono within
  | define isMutable scopes keeps values =>
      exact advance_edit (Edit.linked_define isMutable _ keeps scopes values) worlds
        fun _ _ _ _ => trivial
  | decorate scope scope' target value value' =>
      exact ⟨link, worlds.advance_refl, fun _ _ => .ok trivial⟩
  | read locations =>
      exact advance_edit (Edit.linked_read _ locations) worlds
        fun within _ _ values => values.mono within
  | write locations values =>
      exact advance_edit (Edit.linked_write _ locations values) worlds fun _ _ _ _ => trivial
  | newLayer each =>
      have advance := worlds.advance_give (Store.gives_newLayer _ _) (Store.gives_newLayer _ _)
        (fun _ within stores handles => stores.newLayer handles (each.mono within))
        (Store.leaves_newLayer _)
      exact ⟨_, advance, fun _ extension => extension.within _ _ _ (.inr ⟨rfl, rfl, rfl⟩)⟩
  | newArray each =>
      have advance := worlds.advance_give (Store.gives_newArray _ _) (Store.gives_newArray _ _)
        (fun _ within stores handles =>
          stores.newArray handles (each.imp fun _ _ given => given.mono within))
        (Store.leaves_newArray _)
      exact ⟨_, advance, fun _ extension => extension.within _ _ _ (.inr ⟨rfl, rfl, rfl⟩)⟩
  | newObject each =>
      have advance := worlds.advance_give (Store.gives_newObject _ _) (Store.gives_newObject _ _)
        (fun _ within stores handles => stores.newObject handles <| optionRel_ofList <|
          each.imp fun _ _ given => given.imp fun _ _ given => given.mono within)
        (Store.leaves_newObject _)
      exact ⟨_, advance, fun _ extension => extension.within _ _ _ (.inr ⟨rfl, rfl, rfl⟩)⟩
  | newFunction name bodies =>
      have advance := worlds.advance_give (Store.gives_newFunction _ _ _)
        (Store.gives_newFunction _ _ _)
        (fun _ within stores handles => stores.newFunction handles name (bodies.mono within))
        (Store.leaves_newFunction _ _)
      exact ⟨_, advance, fun _ extension => extension.within _ _ _ (.inr ⟨rfl, rfl, rfl⟩)⟩
  | nameFunction handles name =>
      have advance := worlds.advance_change (worlds.store.nameFunction handles name)
        (Store.size_nameFunction _ _ _) (Store.leaves_nameFunction handles name
          (worlds.store.unnamed handles (unnamed _ _ rfl)))
      exact ⟨link, advance, fun _ _ => trivial⟩
  | push handles values =>
      have advance := worlds.advance_change (worlds.store.push handles values)
        (Store.size_modifyItems _ _ _) (Store.leaves_modifyItems handles _)
      exact ⟨link, advance, fun _ _ => trivial⟩
  | pop handles =>
      have advance := worlds.advance_change (worlds.store.pop handles)
        (Store.size_modifyItems _ _ _) (Store.leaves_modifyItems handles _)
      exact ⟨link, advance, fun _ extension =>
        (optionRel_getD .null (worlds.store.lastItem handles)).mono extension.within⟩
  | log name scope scope' value value' =>
      exact ⟨link, worlds.advance_of_unmoved (unmoved_log ..) (unmoved_log ..),
        fun _ _ => trivial⟩
  | print value value' =>
      have unmoved (world : World) (value : Value) :
          world.Unmoved (world.perform options (.print value)).2 := by
        unfold perform
        dsimp only
        split <;> exact ⟨rfl, rfl, rfl⟩
      exact ⟨link, worlds.advance_of_unmoved (unmoved world value) (unmoved world' value'),
        fun _ _ => trivial⟩
  | ask prompt named =>
      by_cases answers : options.hasInput
      · have asks : options.Asks names := ⟨answers, named⟩
        have asked (world : World) : world.ask options prompt =
            (some (world.inputs.headD ""),
              { world.record (.prompt prompt) with inputs := world.inputs.tail }) := by
          rw [ask, if_pos answers]
        unfold perform
        dsimp only
        rw [asked, asked]
        refine ⟨link, ⟨Link.extends_refl worlds.store.matching _ _, fun _ => Nat.le_refl _,
          ⟨worlds.store, worlds.inside, worlds.lifecycle, worlds.unpaused, fun _ => ?_⟩,
          ⟨Store.leaves_refl _ _ _, rfl, .inr asks⟩⟩, fun _ _ => ?_⟩
        · exact congrArg List.tail (worlds.inputs asks)
        · exact congrArg (some <| ·.headD "") (worlds.inputs asks)
      · have asked (world : World) : world.ask options prompt = (none, world) := by
          rw [ask, if_neg answers]
        unfold perform
        dsimp only
        rw [asked, asked]
        exact ⟨link, worlds.advance_refl, fun _ _ => rfl⟩

end World

end TreeScript
