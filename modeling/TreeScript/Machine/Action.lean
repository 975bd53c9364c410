import TreeScript.Control
import TreeScript.Machine.Edit

/-!
# Actions

Scripts reach the world only through actions.  An action is indivisible, its
effect is a function of the world, and its reply has a type of its own.
Whatever holds of every action holds of every run, however it is suspended and
resumed.
-/

namespace TreeScript

/-- An indivisible request to the world. -/
inductive Action where
  /-- Look at the store. -/
  | store
  /-- Whether evaluation has been stopped. -/
  | isStopped
  /-- The pause in effect. -/
  | pause
  /-- The number of steps taken. -/
  | steps
  /-- Take a step; the reply says whether it is within the limit. -/
  | tick
  | readName (scope : Scope) (name : String)
  | define (scope : Scope) (isMutable : Bool) (pattern : Node) (value : Value)
  | decorate (scope : Scope) (target : Node) (value : Value) (attributes : List Attribute)
  | read (location : Location)
  | write (location : Location) (value : Value)
  | newLayer (bindings : Dict Variable)
  | newArray (items : Array Value)
  | newObject (entries : List (String × Value))
  | newFunction (name : Option String) (body : Body)
  | nameFunction (function : FunctionId) (name : String)
  | push (array : ArrayId) (value : Value)
  | pop (array : ArrayId)
  | log (name : String) (scope : Option String) (value : Option Value)
  | print (value : Value)
  | note (value : Value)
  | yielded
  | ask (prompt : String)
  /-- Hand the error of a top-level run to the host; the reply is an error to return instead. -/
  | deliver (error : Error)
  | transition (transition : Transition)
  | mention (tag : String)
  | subscribe (transition : Transition) (tag : String)
  | unsubscribe (transition : Transition) (tag : String)

namespace Action

/-- What an action is answered with. -/
@[reducible]
def Reply : Action → Type
  | .store => Store
  | .isStopped => Bool
  | .pause => Option Nat
  | .steps => Nat
  | .tick => Bool
  | .readName _ _ => Except Error Value
  | .define _ _ _ _ => Except Error Unit
  | .decorate _ _ _ _ => Except Error Unit
  | .read _ => Except Error Value
  | .write _ _ => Except Error Unit
  | .newLayer _ => LayerId
  | .newArray _ => ArrayId
  | .newObject _ => ObjectId
  | .newFunction _ _ => FunctionId
  | .nameFunction _ _ => Unit
  | .push _ _ => Unit
  | .pop _ => Value
  | .log _ _ _ => Unit
  | .print _ => Unit
  | .note _ => Unit
  | .yielded => Unit
  | .ask _ => Option String
  | .deliver _ => Option Error
  | .transition _ => Unit
  | .mention _ => Unit
  | .subscribe _ _ => Unit
  | .unsubscribe _ _ => Unit

end Action

namespace World

/-- Carry an action out. -/
def perform (options : Options) (world : World) : (action : Action) → action.Reply × World
  | .store => (world.store, world)
  | .isStopped => (world.lifecycle.isStopped, world)
  | .pause => (world.lifecycle.pause, world)
  | .steps => (world.steps, world)
  | .tick => world.tick options
  | .readName scope name => (Edit.readName options scope name).run.run world
  | .define scope isMutable pattern value =>
      (Edit.define options scope isMutable pattern value).run.run world
  | .decorate scope target value attributes =>
      (Edit.decorate scope target value attributes).run.run world
  | .read location => (Edit.read options location).run.run world
  | .write location value => (Edit.write options location value).run.run world
  | .newLayer bindings =>
      let (store, layer) := world.store.newLayer bindings
      (layer, { world with store := store })
  | .newArray items =>
      let (store, array) := world.store.newArray items
      (array, { world with store := store })
  | .newObject entries =>
      let (store, object) := world.store.newObject (Dict.ofList entries)
      (object, { world with store := store })
  | .newFunction name body =>
      let (store, function) := world.store.newFunction name body
      (function, { world with store := store })
  | .nameFunction function name =>
      ((), world.mapStore fun store => store.nameFunction function name)
  | .push array value =>
      ((), world.mapStore fun store => store.modifyItems array fun items => items.push value)
  | .pop array =>
      ((world.store.items array).back?.getD .null,
        world.mapStore fun store => store.modifyItems array Array.pop)
  | .log name scope value => ((), world.log options name scope none value)
  | .print value =>
      ((), if options.reportsOutput then
          world.record (.print (world.store.snapshot options.detail value))
        else world)
  | .note value => ((), world.record (.note (world.store.snapshot options.detail value)))
  | .yielded => ((), world.record (.yielded world.steps))
  | .ask prompt => world.ask options prompt
  | .deliver error => world.deliver options error
  | .transition transition => ((), world.transition transition)
  | .mention tag => ((), world.mention tag)
  | .subscribe transition tag => ((), world.subscribe transition tag .nothing)
  | .unsubscribe transition tag => ((), world.unsubscribe transition tag .nothing)

end World

end TreeScript
