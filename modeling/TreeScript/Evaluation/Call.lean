import TreeScript.Evaluation.Statement
import TreeScript.Natives.Library
import TreeScript.Natives.Property

/-!
# The rules of calls

A closure binds its parameters in a new scope inside the one it was written in
and runs its statements there.  It takes the value of a `return`; any other
signal that reaches it has nothing left to leave.  Calls of closures may only
nest to a limit.
-/

namespace TreeScript.Evaluation

open TreeScript

/-- The name of a function that has none in traces. -/
def anonymous : String :=
  "<anonymous>"

/-- The forms of a native function. -/
def nativeForms (host : Host) : Native → NativeForms
  | .library function => Library.forms function
  | .method property => property.forms
  | .host name =>
      (host name).getD (.plain fun _ _ =>
        Rule.fail (.of (.hostSide ("No native function " ++ name))))

/-- Bind parameters to arguments; a missing argument needs a fallback. -/
def bindParameters (scope : Scope) :
    List Parameter → List (Option Value) → List Value → Rule Unit
  | [], _, _ => return ()
  | parameter :: rest, fallbacks, arguments => do
      match arguments.head?.or (fallbacks.head?.join) with
      | some value =>
          Rule.attempt (Rule.perform (.define scope true parameter.target value))
          bindParameters scope rest fallbacks.tail arguments.tail
      | none => Rule.fail (.of .expectedAny)

/-- How a function ends, given how its statements end. -/
def endOfBody (outcome : Outcome) : Outcome :=
  match outcome with
  | .error (.signal (.returning value)) => .ok value
  | .error (.signal signal) =>
      .error (.error (.of (.internal (signal.name ++ " escaped a function body"))))
  | _ => outcome

/-- Call a closure. -/
def applyClosure (options : Options) (name : Option String) (parameters : List Parameter)
    (fallbacks : List (Option Value)) (statements : List Node) (scope : Scope)
    (arguments : List Value) (context : Context) (site : Option Position) : Rule Value := do
  if options.depthLimit != 0 && options.depthLimit ≤ context.depth then
    Rule.fail (.of (.callDepth options.depthLimit))
  let inner ← openScope scope .empty
  bindParameters inner parameters fallbacks arguments
  let outcome ←
    (runAll inner (context.enter (name.getD anonymous) site) statements).outcome
  ExceptT.mk (.done (endOfBody outcome))

/-- Call a function. -/
def apply (options : Options) (host : Host) (function : FunctionId) (arguments : List Value)
    (context : Context) (site : Option Position) : Rule Value := do
  match ← Rule.look fun store => store.function? function with
  | some ⟨name, _, .closure parameters fallbacks statements scope⟩ =>
      applyClosure options name parameters fallbacks statements scope arguments context site
  | some ⟨_, _, .native native⟩ =>
      (nativeForms host native).apply arguments context site
  | none => Rule.fail (.of (.internal "no such function"))

/-- Call a value from outside of all calls. -/
def applyValue (callee : Value) (arguments : List Value) (mode : Mode) : Rule Value := do
  let function ← callee.asFn
  Rule.call (.apply function arguments (.top mode) none)

/-- The value of an entry point whose error was handed to the host. -/
def failedValue : Value :=
  .error "func_failed"

/-- Call a value as an entry point: an error goes to the host, if the host wants it. -/
def enter (callee : Value) (arguments : List Value) (mode : Mode) : Rule Value := do
  let outcome ← (applyValue callee arguments mode).outcome
  match Outcome.expectValue outcome with
  | .ok value => return value
  | .error error =>
      match ← Rule.perform (.deliver error) with
      | some error => Rule.fail error
      | none => return failedValue

end TreeScript.Evaluation
