import TreeScript.Irq
import TreeScript.Lifecycle
import TreeScript.Store.Binding
import TreeScript.Store.Equality
import TreeScript.Store.Snapshot

/-!
# The world of an interpreter

The world is everything that a running script can change: the store, the
number of steps taken, the lifecycle, the lines of input that are left, and the
record of what the host was told.  What is recorded depends on the options, and
nothing that a script does depends on the record.
-/

namespace TreeScript

/-- What the host is told while scripts run; values are of type `α`. -/
inductive Event (α : Type) where
  | log (name : String) (scope bound : Option String) (value : Option α)
  | print (value : α)
  | note (value : α)
  | prompt (text : String)
  | failure (error : Error)
  | yielded (steps : Nat)
  | handler (tag : String)

/-- The limits of an interpreter and what its host wants to be told. -/
structure Options where
  /-- The greatest number of evaluation steps; zero means no limit. -/
  stepLimit : Nat
  /-- The greatest nesting of function calls; zero means no limit. -/
  depthLimit : Nat
  abortOnError : Bool
  /-- Whether failures of top-level runs are handed to the host instead of being returned. -/
  reportsErrors : Bool
  reportsLog : Bool
  reportsOutput : Bool
  /-- Whether the host answers prompts. -/
  hasInput : Bool
  /-- How much of a value the host is shown. -/
  detail : Detail
  irq : Irq

/-- The nesting of function calls that is allowed when nothing is said about it. -/
def Options.defaultDepthLimit : Nat :=
  2048

/-- The state of an interpreter. -/
structure World where
  store : Store
  steps : Nat
  lifecycle : Lifecycle
  /-- Every handler that was ever mentioned, by its tag, with the response fixed then. -/
  roster : Dict Response
  inputs : List String
  events : Array (Event Snapshot)

instance : Inhabited World :=
  ⟨⟨default, 0, default, .empty, [], #[]⟩⟩

namespace World

/-- Add an event to the record. -/
def record (world : World) (event : Event Snapshot) : World :=
  { world with events := world.events.push event }

/-- Change the store. -/
def mapStore (world : World) (change : Store → Store) : World :=
  { world with store := change world.store }

/-- Add a log event, if the host wants to be told. -/
def log (options : Options) (name : String) (scope bound : Option String) (value : Option Value)
    (world : World) : World :=
  if options.reportsLog then
    world.record (.log name scope bound (value.map (world.store.snapshot options.detail)))
  else world

/-- Make a transition and record the handlers that fired. -/
def transition (transition : Transition) (world : World) : World :=
  let (lifecycle, tags) := world.lifecycle.transition transition
  { world with
    lifecycle := lifecycle
    events := world.events ++ (tags.map Event.handler).toArray }

/-- The handler with a tag; one that was never mentioned is created with the given response. -/
def handler (tag : String) (response : Response) (world : World) : Handler × World :=
  match world.roster.find? tag with
  | some known => (⟨tag, known⟩, world)
  | none => (⟨tag, response⟩, { world with roster := world.roster.insert tag response })

/-- Mention a handler: from then on there is one with this tag. -/
def mention (tag : String) (world : World) : World :=
  (world.handler tag .nothing).2

/-- Let a handler wait for a transition. -/
def subscribe (transition : Transition) (tag : String) (response : Response) (world : World) :
    World :=
  let (handler, world) := world.handler tag response
  { world with lifecycle := world.lifecycle.register transition handler }

/-- Remove every registration of a handler for a transition. -/
def unsubscribe (transition : Transition) (tag : String) (response : Response)
    (world : World) : World :=
  let (handler, world) := world.handler tag response
  { world with lifecycle := world.lifecycle.unregister transition handler.tag }

/--
Hand the error of a top-level run to the host, if the host wants it; otherwise
the error is returned.  When errors abort, the first one does so before the
host hears of it, and the host does not hear of any later one.
-/
def deliver (options : Options) (error : Error) (world : World) : Option Error × World :=
  if options.reportsErrors then
    if options.abortOnError then
      if world.lifecycle.isStopped then (none, world)
      else (none, (world.transition .abort).record (.failure error))
    else (none, world.record (.failure error))
  else (some error, world)

/-- Take an evaluation step; the result says whether it is within the limit. -/
def tick (options : Options) (world : World) : Bool × World :=
  let steps := world.steps + 1
  (options.stepLimit == 0 || steps ≤ options.stepLimit, { world with steps := steps })

/-- Ask the host for a line.  Without input there is no answer; used-up input answers nothing. -/
def ask (options : Options) (prompt : String) (world : World) : Option String × World :=
  if options.hasInput then
    let asked := world.record (.prompt prompt)
    (some (world.inputs.headD ""), { asked with inputs := world.inputs.tail })
  else (none, world)

end World

end TreeScript
