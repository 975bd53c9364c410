/-!
# Abort, pause and resume

An interpreter can be stopped for good, and it can be paused and resumed.
Handlers wait for one of these transitions.  A transition takes all handlers
that wait for it and fires them in the order they were registered; a handler
that fires may cause further transitions or register itself again.

Firing always ends: every handler that fires was taken from the waiting ones,
and a handler that registers itself does nothing else.  `Lifecycle.settle` is
total by that measure.
-/

namespace TreeScript

/-- What can happen to an interpreter from outside. -/
inductive Transition where
  | abort
  | pause
  | unpause
  deriving DecidableEq, Repr

/-- The name of a transition. -/
def Transition.name : Transition → String
  | .abort => "abort"
  | .pause => "pause"
  | .unpause => "unpause"

/-- The transition with a name. -/
def Transition.ofName? (name : String) : Option Transition :=
  [Transition.abort, .pause, .unpause].find? fun transition => transition.name == name

/-- What a handler does when it fires. -/
inductive Response where
  | nothing
  | cause (transition : Transition)
  | register (transition : Transition)
  deriving DecidableEq, Repr

/-- A handler, which is known by its tag. -/
structure Handler where
  tag : String
  response : Response
  deriving DecidableEq, Repr

/-- Whether evaluation is stopped or paused, and the handlers that wait, the latest one first. -/
structure Lifecycle where
  isStopped : Bool
  /-- The pause in effect.  Each pause has a number of its own. -/
  pause : Option Nat
  /-- The number of pauses so far. -/
  pauses : Nat
  onAbort : List Handler
  onPause : List Handler
  onUnpause : List Handler
  deriving DecidableEq, Repr

namespace Lifecycle

/-- Running, with no handlers. -/
def initial : Lifecycle :=
  ⟨false, none, 0, [], [], []⟩

instance : Inhabited Lifecycle :=
  ⟨initial⟩

/-- Whether a pause is in effect. -/
def isPaused (lifecycle : Lifecycle) : Bool :=
  lifecycle.pause.isSome

/-- The handlers that wait for a transition, the latest registration first. -/
def waiting (lifecycle : Lifecycle) : Transition → List Handler
  | .abort => lifecycle.onAbort
  | .pause => lifecycle.onPause
  | .unpause => lifecycle.onUnpause

/-- Let other handlers wait for a transition. -/
def withWaiting (lifecycle : Lifecycle) (handlers : List Handler) : Transition → Lifecycle
  | .abort => { lifecycle with onAbort := handlers }
  | .pause => { lifecycle with onPause := handlers }
  | .unpause => { lifecycle with onUnpause := handlers }

/-- The number of registrations that have not fired. -/
def registrations (lifecycle : Lifecycle) : Nat :=
  lifecycle.onAbort.length + lifecycle.onPause.length + lifecycle.onUnpause.length

/-- Let a handler wait for a transition. -/
def register (lifecycle : Lifecycle) (transition : Transition) (handler : Handler) : Lifecycle :=
  lifecycle.withWaiting (handler :: lifecycle.waiting transition) transition

/-- Remove every registration of a handler for a transition. -/
def unregister (lifecycle : Lifecycle) (transition : Transition) (tag : String) : Lifecycle :=
  lifecycle.withWaiting
    ((lifecycle.waiting transition).filter fun handler => handler.tag != tag) transition

/--
Make a transition that has an effect, and take the handlers that waited for it,
in the order of their registration.
-/
def take (lifecycle : Lifecycle) (transition : Transition) : Lifecycle × List Handler :=
  (lifecycle.withWaiting [] transition, (lifecycle.waiting transition).reverse)

/--
Make a transition.  An abort counts only once, a pause only while none is in
effect, and resuming only during a pause.
-/
def enter (lifecycle : Lifecycle) : Transition → Lifecycle × List Handler
  | .abort =>
      if lifecycle.isStopped then (lifecycle, [])
      else take { lifecycle with isStopped := true } .abort
  | .pause =>
      if lifecycle.isPaused then (lifecycle, [])
      else
        take { lifecycle with pause := some lifecycle.pauses, pauses := lifecycle.pauses + 1 }
          .pause
  | .unpause =>
      if lifecycle.isPaused then take { lifecycle with pause := none } .unpause
      else (lifecycle, [])

theorem registrations_register
    (lifecycle : Lifecycle) (transition : Transition) (handler : Handler) :
    (lifecycle.register transition handler).registrations = lifecycle.registrations + 1 := by
  cases transition <;> simp [register, withWaiting, waiting, registrations] <;> omega

theorem registrations_enter
    (lifecycle : Lifecycle) (transition : Transition) :
    (lifecycle.enter transition).1.registrations + (lifecycle.enter transition).2.length =
      lifecycle.registrations := by
  cases transition with
  | abort =>
    by_cases stopped : lifecycle.isStopped <;>
      simp [enter, stopped, take, withWaiting, waiting, registrations]
    omega
  | pause =>
    by_cases paused : lifecycle.isPaused <;>
      simp [enter, paused, take, withWaiting, waiting, registrations]
    omega
  | unpause =>
    by_cases paused : lifecycle.isPaused <;>
      simp [enter, paused, take, withWaiting, waiting, registrations]

/--
Fire handlers in order and return the tags of all that fired.  The handlers
taken by a transition that a handler causes fire before the remaining ones.
-/
def settle (lifecycle : Lifecycle) : List Handler → Lifecycle × List String
  | [] => (lifecycle, [])
  | handler :: rest =>
      match handler.response with
      | .nothing =>
          let (settled, tags) := settle lifecycle rest
          (settled, handler.tag :: tags)
      | .cause transition =>
          let (settled, tags) :=
            settle (lifecycle.enter transition).1 ((lifecycle.enter transition).2 ++ rest)
          (settled, handler.tag :: tags)
      | .register transition =>
          let (settled, tags) := settle (lifecycle.register transition handler) rest
          (settled, handler.tag :: tags)
termination_by pending => (lifecycle.registrations + pending.length, pending.length)
decreasing_by
  · exact Prod.Lex.left _ _ (by simp only [List.length_cons]; omega)
  · have kept := registrations_enter lifecycle transition
    exact Prod.Lex.left _ _ (by simp only [List.length_append, List.length_cons]; omega)
  · have grown := registrations_register lifecycle transition handler
    have same :
        (lifecycle.register transition handler).registrations + rest.length =
          lifecycle.registrations + (handler :: rest).length := by
      simp only [List.length_cons]
      omega
    rw [same]
    exact Prod.Lex.right _ (by simp)

/-- Make a transition and fire its handlers. -/
def transition (lifecycle : Lifecycle) (transition : Transition) : Lifecycle × List String :=
  (lifecycle.enter transition).1.settle (lifecycle.enter transition).2

end Lifecycle

end TreeScript
