import TreeScript.Datum
import TreeScript.Evaluation.Namespace
import TreeScript.Machine.Task

/-!
# Interpreters

An interpreter has a root scope, in which constants and the library are bound,
and a world that its runs share.  A run is started, polled until it ends, and
concluded with a verdict: a value, nothing, or an error.

An empty script ends without a value.  So does a script whose error was handed
to the host.
-/

namespace TreeScript

/-- How a run ends: with a value, without one, or with an error. -/
abbrev Verdict := Except Error (Option Value)

/-- A root scope, a world, and what stays the same for all runs. -/
structure Interpreter where
  options : Options
  host : Host
  root : Scope
  world : World

/-- How a function is called from outside. -/
inductive CallStyle where
  /-- As an entry point that may be suspended. -/
  | asynchronous
  /-- As an entry point that must not wait. -/
  | synchronous
  /-- As a plain call, whose errors are always returned. -/
  | simple
  deriving DecidableEq, Repr

/-- A run that has not ended. -/
structure Run where
  /-- The evaluation; an empty script has none. -/
  task : Option Task
  /-- What the task waits for, once it has been polled. -/
  reason : Option Wait
  /-- Whether an error at the end is handed to the host. -/
  delivers : Bool

/-- What polling a run gives. -/
inductive Polled where
  | pending (run : Run)
  | ended (verdict : Verdict)

namespace Run

/-- A run that has not been polled. -/
def start (task : Task) (delivers : Bool) : Run :=
  ⟨some task, none, delivers⟩

/-- A run that ends without a value. -/
def nothing : Run :=
  ⟨none, none, false⟩

/-- Whether polling a run lets it go on. -/
def isReady (run : Run) (lifecycle : Lifecycle) : Bool :=
  match run.reason with
  | none => true
  | some reason => reason.isOver lifecycle

end Run

namespace Interpreter

/-- Bind a native function under its name. -/
def bindNative (store : Store) (bindings : Dict Variable) (native : Native) :
    Dict Variable × Store :=
  let (store, function) := store.newFunction (some native.name) (.native native)
  (bindings.insert native.name (.constant (.fn function)), store)

/-- Bind native functions under their names. -/
def bindNatives (store : Store) (bindings : Dict Variable) : List Native → Dict Variable × Store
  | [] => (bindings, store)
  | native :: rest =>
      let (bindings, store) := bindNative store bindings native
      bindNatives store bindings rest

/-- Bind constants. -/
def bindConstants (store : Store) (bindings : Dict Variable) :
    List (String × Datum Value) → Dict Variable × Store
  | [] => (bindings, store)
  | (name, datum) :: rest =>
      let (value, store) := store.build datum
      bindConstants store (bindings.insert name (.constant value)) rest

/--
A new interpreter.  Constants hide functions of the host with the same name,
and the library hides both.
-/
def create (options : Options) (host : Host) (hostNames : List String)
    (constants : List (String × Datum Value)) (inputs : List String) : Interpreter :=
  let (bindings, store) := bindNatives .empty .empty (hostNames.map Native.host)
  let (bindings, store) := bindConstants store bindings constants
  let (bindings, store) :=
    bindNatives store bindings (LibraryFunction.all.map Native.library)
  let (store, layer) := store.newLayer bindings
  { options := options
    host := host
    root := .root layer
    world := { (default : World) with store := store, inputs := inputs } }

/-- Start a script that may be suspended. -/
def start (interpreter : Interpreter) (script : List Node) : Run :=
  if script.isEmpty then .nothing
  else
    .start (.ofRule (Evaluation.runScript interpreter.root script .asynchronous)) true

/-- Start a script that must not wait; its error is always returned. -/
def startAtOnce (interpreter : Interpreter) (script : List Node) : Run :=
  if script.isEmpty then .nothing
  else
    .start (.ofRuleAtOnce (Evaluation.runScript interpreter.root script .synchronous)) false

/-- Start a call of a function. -/
def startCall (callee : Value) (arguments : List Value) : CallStyle → Run
  | .asynchronous => .start (.ofRule (Evaluation.enter callee arguments .asynchronous)) false
  | .synchronous => .start (.ofRuleAtOnce (Evaluation.enter callee arguments .synchronous)) false
  | .simple => .start (.ofRule (Evaluation.applyValue callee arguments .asynchronous)) false

/-- The verdict on a run whose evaluation has ended. -/
def conclude (options : Options) (delivers : Bool) (outcome : Outcome) (world : World) :
    Verdict × World :=
  match outcome.expectValue with
  | .ok value => (.ok (some value), world)
  | .error error =>
      if delivers then
        match world.deliver options error with
        | (some error, world) => (.error error, world)
        | (none, world) => (.ok none, world)
      else (.error error, world)

/--
Poll a run once: it goes on, if what it waits for has happened, until it ends
or has to wait again.  There is no result when the fuel does not suffice.
-/
def poll (interpreter : Interpreter) (fuel : Nat) (run : Run) :
    Option (Polled × Interpreter) :=
  match run.task with
  | none => some (.ended (.ok none), interpreter)
  | some task =>
      if run.isReady interpreter.world.lifecycle then
        match Task.run interpreter.options interpreter.host fuel interpreter.world task with
        | some (.finished world outcome) =>
            let (verdict, world) := conclude interpreter.options run.delivers outcome world
            some (.ended verdict, { interpreter with world := world })
        | some (.waiting world reason task) =>
            some (.pending ⟨some task, some reason, run.delivers⟩,
              { interpreter with world := world })
        | _ => none
      else some (.pending run, interpreter)

/-- Poll a run until it ends, at most `polls` times. -/
def complete (fuel : Nat) : Nat → Interpreter → Run → Option (Verdict × Interpreter)
  | 0, _, _ => none
  | polls + 1, interpreter, run =>
      match interpreter.poll fuel run with
      | some (.ended verdict, interpreter) => some (verdict, interpreter)
      | some (.pending run, interpreter) =>
          if run.isReady interpreter.world.lifecycle then complete fuel polls interpreter run
          else none
      | none => none

end Interpreter

end TreeScript
