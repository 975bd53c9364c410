import TreeScript.Interpreter.Basic

/-!
# Sessions

A session is one interpreter with any number of runs that are polled in any
order, and the values that were kept.  Requests come one after the other; each
is answered, and what was recorded meanwhile can be taken.
-/

namespace TreeScript

/-- How a datum refers to a value of the session. -/
inductive SessionReference where
  /-- The value of a name in the root scope, which is read like any other name. -/
  | bound (name : String)
  /-- A value that was kept. -/
  | saved (name : String)
  /-- No value at all. -/
  | unreadable

/-- A datum with references into a session. -/
abbrev SessionDatum := Datum SessionReference

/-- What a session can be asked to do. -/
inductive Request where
  | execute (mode : Mode) (script : Option (List Node)) (save : Option String)
  | call (style : CallStyle) (callee : SessionDatum) (arguments : List SessionDatum)
      (save : Option String)
  | start (id : String) (script : Option (List Node))
  | startCall (id : String) (callee : SessionDatum) (arguments : List SessionDatum)
  | poll (id : String) (save : Option String)
  | drop (id : String)
  | transition (transition : Transition)
  | state
  | subscribe (transition : Transition) (tag : String) (response : Response)
  | unsubscribe (transition : Transition) (tag : String) (response : Response)
  | get (name : String) (save : Option String)
  | existence (name : String)
  | attributes (name : String)
  | assign (name : String) (value : SessionDatum)
  | add (name : String) (value : SessionDatum) (isMutable : Bool)
  | bindings

/-- Why a request is refused. -/
inductive Refusal where
  | unreadableScript
  | unreadableInput
  | unknownTask
  deriving DecidableEq, Repr

/-- How a request is answered.  Values are shown as they are at that moment. -/
inductive Answer where
  | verdict (verdict : Except Error (Option Snapshot))
  | pending
  | silent
  | dropped (wasKnown : Bool)
  | state (isStopped isPaused : Bool)
  | existence (isBound : Bool)
  | attributes (attributes : Option (List (String × Snapshot)))
  | bindings (bindings : List (String × Snapshot))
  | refused (refusal : Refusal)

/-- An interpreter, the runs that have been started, and the values that were kept. -/
structure Session where
  interpreter : Interpreter
  runs : List (String × Run)
  saved : List (String × Value)

namespace Session

/-- A session at its beginning. -/
def start (interpreter : Interpreter) : Session :=
  ⟨interpreter, [], []⟩

/-- The world of a session. -/
def world (session : Session) : World :=
  session.interpreter.world

/-- A session with another world. -/
def withWorld (session : Session) (world : World) : Session :=
  { session with interpreter := { session.interpreter with world := world } }

/-- The record of a session, and the session with an empty one. -/
def takeEvents (session : Session) : Array (Event Snapshot) × Session :=
  (session.world.events, session.withWorld { session.world with events := #[] })

/-- Look a reference up. -/
def find (options : Options) (root : Scope) (saved : List (String × Value)) :
    SessionReference → OptionT (StateM World) Value
  | .bound name =>
      OptionT.mk do
        match ← (Edit.readName options root name).run with
        | .ok value => return some value
        | .error _ => return none
  | .saved name => OptionT.mk (return saved.lookup name)
  | .unreadable => OptionT.mk (return none)

/-- Build a value. -/
def buildOne (session : Session) (datum : SessionDatum) : Option Value × Session :=
  let interpreter := session.interpreter
  let find := find interpreter.options interpreter.root session.saved
  match (datum.resolve find).run.run interpreter.world with
  | (some datum, world) =>
      let (value, store) := world.store.build datum
      (some value, session.withWorld { world with store := store })
  | (none, world) => (none, session.withWorld world)

/-- Build values in order. -/
def buildAll (session : Session) : List SessionDatum → Option (List Value) × Session
  | [] => (some [], session)
  | datum :: rest =>
      match session.buildOne datum with
      | (some value, session) =>
          match session.buildAll rest with
          | (some values, session) => (some (value :: values), session)
          | (none, session) => (none, session)
      | (none, session) => (none, session)

/-- Keep a value under a name, replacing what was kept under it before. -/
def keep (session : Session) (name : String) (value : Value) : Session :=
  { session with saved := (name, value) :: session.saved.filter fun entry => entry.1 != name }

/-- Show a value in the detail that the host is shown values in. -/
def picture (session : Session) (value : Value) : Snapshot :=
  session.world.store.snapshot session.interpreter.options.detail value

/-- Show named values. -/
def pictures (session : Session) (values : List (String × Value)) : List (String × Snapshot) :=
  values.map fun entry => (entry.1, session.picture entry.2)

/-- Answer with a verdict, and keep the value if there is one and it is wanted. -/
def answerVerdict (session : Session) (save : Option String) (verdict : Verdict) :
    Answer × Session :=
  match verdict with
  | .error error => (.verdict (.error error), session)
  | .ok none => (.verdict (.ok none), session)
  | .ok (some value) =>
      let kept :=
        match save with
        | some name => session.keep name value
        | none => session
      (.verdict (.ok (some (session.picture value))), kept)

/-- Run to the end and answer with the verdict. -/
def complete (fuel : Nat) (session : Session) (save : Option String) (run : Run) :
    Option (Answer × Session) :=
  match Interpreter.complete fuel fuel session.interpreter run with
  | some (verdict, interpreter) =>
      some ({ session with interpreter := interpreter }.answerVerdict save verdict)
  | none => none

/-- Forget a run. -/
def forget (session : Session) (id : String) : Session :=
  { session with runs := session.runs.filter fun entry => entry.1 != id }

/-- Remember a run under an identifier. -/
def remember (session : Session) (id : String) (run : Run) : Session :=
  { session with runs := (id, run) :: (session.forget id).runs }

/-- Do an edit and answer with how it ends. -/
def edit {α : Type} (session : Session) (edit : Edit α) : Except Error α × Session :=
  let (result, world) := edit.run.run session.world
  (result, session.withWorld world)

/-- The verdict on an edit without a result. -/
def silentVerdict : Except Error Unit → Verdict
  | .ok () => .ok none
  | .error error => .error error

/-- Whether a name belongs to neither the library nor the host. -/
def isOwn (name : String) : Bool :=
  !(["print", "readline"].contains name
    || ["Core:", "Error:", "Host:"].any fun space => name.startsWith space)

/-- Answer a request.  There is no answer when the fuel does not suffice. -/
def answer (fuel : Nat) (session : Session) : Request → Option (Answer × Session)
  | .execute _ none _ => some (.refused .unreadableScript, session)
  | .execute .synchronous (some script) save =>
      session.complete fuel save (session.interpreter.startAtOnce script)
  | .execute .asynchronous (some script) save =>
      session.complete fuel save (session.interpreter.start script)
  | .call style callee arguments save =>
      match session.buildAll (callee :: arguments) with
      | (some (callee :: arguments), session) =>
          session.complete fuel save (Interpreter.startCall callee arguments style)
      | (_, session) => some (.refused .unreadableInput, session)
  | .start _ none => some (.refused .unreadableScript, session)
  | .start id (some script) =>
      some (.silent, session.remember id (session.interpreter.start script))
  | .startCall id callee arguments =>
      match session.buildAll (callee :: arguments) with
      | (some (callee :: arguments), session) =>
          some (.silent,
            session.remember id (Interpreter.startCall callee arguments .asynchronous))
      | (_, session) => some (.refused .unreadableInput, session)
  | .poll id save =>
      match session.runs.lookup id with
      | none => some (.refused .unknownTask, session)
      | some run =>
          match session.interpreter.poll fuel run with
          | some (.pending run, interpreter) =>
              some (.pending, { session with interpreter := interpreter }.remember id run)
          | some (.ended verdict, interpreter) =>
              some (({ session with interpreter := interpreter }.forget id).answerVerdict
                save verdict)
          | none => none
  | .drop id => some (.dropped (session.runs.lookup id).isSome, session.forget id)
  | .transition transition =>
      some (.silent, session.withWorld (session.world.transition transition))
  | .state =>
      some (.state session.world.lifecycle.isStopped session.world.lifecycle.isPaused, session)
  | .subscribe transition tag response =>
      some (.silent, session.withWorld (session.world.subscribe transition tag response))
  | .unsubscribe transition tag response =>
      some (.silent, session.withWorld (session.world.unsubscribe transition tag response))
  | .get name save =>
      let (result, session) :=
        session.edit (Edit.readName session.interpreter.options session.interpreter.root name)
      some (session.answerVerdict save (result.map some))
  | .existence name =>
      some (.existence (session.world.store.isBound session.interpreter.root name), session)
  | .attributes name =>
      let found := session.world.store.binding? session.interpreter.root name
      some (.attributes (found.map fun bound =>
        session.pictures (bound.attributes.map fun held => (held.name, held.value))), session)
  | .assign name value =>
      match session.buildOne value with
      | (some value, session) =>
          let (result, session) :=
            session.edit
              (Edit.assign session.interpreter.options session.interpreter.root name value)
          some (session.answerVerdict none (silentVerdict result))
      | (none, session) => some (.refused .unreadableInput, session)
  | .add name value isMutable =>
      match session.buildOne value with
      | (some value, session) =>
          let (result, session) :=
            session.edit
              (Edit.declare session.interpreter.options session.interpreter.root name
                (.plain isMutable value))
          some (session.answerVerdict none (silentVerdict result))
      | (none, session) => some (.refused .unreadableInput, session)
  | .bindings =>
      let visible := session.world.store.visible session.interpreter.root
      some (.bindings (session.pictures (visible.filter fun entry => isOwn entry.1)), session)

end Session

end TreeScript
