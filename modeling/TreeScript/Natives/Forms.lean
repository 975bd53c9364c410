import TreeScript.Machine.Process

/-!
# Forms of native functions

A native function has a general form, which either gives its result or
promises it for later, and it may have an immediate form as well.  Asynchronous
evaluation always takes the general form.  Synchronous evaluation takes the
immediate form if there is one, and refuses a general form that only promises.
-/

namespace TreeScript

/-- What the general form of a native function hands back. -/
inductive Promise where
  | ready (value : Value)
  | pending (later : Rule Value)

/-- The forms of a native function. -/
structure NativeForms where
  general : List Value → Context → Rule Promise
  immediate : Option (List Value → Context → Rule Value)

/-- The native functions that a host supplies, by name. -/
abbrev Host := String → Option NativeForms

/-- A host that supplies nothing. -/
def Host.none : Host :=
  fun _ => .none

namespace NativeForms

/-- A function that always answers immediately. -/
def plain (answer : List Value → Context → Rule Value) : NativeForms where
  general arguments context := do
    return .ready (← answer arguments context)
  immediate := none

/-- A function that answers later. -/
def later (answer : List Value → Context → Rule Value) : NativeForms where
  general arguments context := pure (.pending (answer arguments context))
  immediate := none

/-- A function with a general form only. -/
def ofGeneral (answer : List Value → Context → Rule Promise) : NativeForms where
  general := answer
  immediate := none

/-- Add an immediate form. -/
def orImmediately (forms : NativeForms) (answer : List Value → Context → Rule Value) :
    NativeForms :=
  { forms with immediate := some answer }

/-- Take the result of the general form. -/
def applyGeneral (forms : NativeForms) (arguments : List Value) (context : Context)
    (mode : Mode) : Rule Value := do
  match ← forms.general arguments { context with mode := .asynchronous } with
  | .ready value => return value
  | .pending promised =>
      match mode with
      | .synchronous =>
          Rule.fail (.of (.hostSide
            "Native function must not return a pending result in sync mode."))
      | .asynchronous => promised

/--
Call a native function from a context.  The call is entered into the context
that the function sees, and the general form always sees the asynchronous mode.
-/
def apply (forms : NativeForms) (arguments : List Value) (context : Context)
    (site : Option Position) : Rule Value :=
  let inner := context.enter "<native>" site
  match context.mode, forms.immediate with
  | .synchronous, some answer => answer arguments inner
  | mode, _ => forms.applyGeneral arguments inner mode

end NativeForms

/-- An argument that has to be given. -/
def argument (arguments : List Value) (place : Nat) : Except Error Value :=
  match arguments[place]? with
  | some value => .ok value
  | none => .error (.of .expectedAny)

/-- Call a function value from inside a native function. -/
def callBack (callee : Value) (arguments : List Value) (context : Context) : Rule Value := do
  let function ← callee.asFn
  Rule.call (.apply function arguments context none)

/-- Call a function value from inside a native function, to its end and without waiting. -/
def callBackAtOnce (callee : Value) (arguments : List Value) (context : Context) :
    Rule Value := do
  let function ← callee.asFn
  Rule.drive (.apply function arguments { context with mode := .synchronous } none)

end TreeScript
