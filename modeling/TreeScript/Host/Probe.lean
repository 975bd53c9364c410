import TreeScript.Natives.Forms

/-!
# A probing host

Native functions with which a script looks at the interpreter it runs in: which
forms of natives are taken, what calls back into the interpreter do, how the
lifecycle behaves.  They are bound under `Host:`.
-/

namespace TreeScript.Probe

open TreeScript

/-- The first argument; a missing one counts as `null`. -/
def first (arguments : List Value) : Value :=
  arguments.headD .null

/-- The second argument; a missing one counts as `null`. -/
def second (arguments : List Value) : Value :=
  arguments.tail.headD .null

/-- Be pending when polled first. -/
def suspend : Rule Unit :=
  Rule.wait .nextPoll

/-- Fail with a text that the script gives. -/
def failWith (cause : String → Cause) (arguments : List Value) : Rule Value := do
  let message ← (first arguments).asStr
  Rule.fail (.of (cause message))

/-- Cause a transition of the lifecycle. -/
def causing (transition : Transition) : NativeForms :=
  .plain fun _ _ => do
    Rule.perform (.transition transition)
    return .null

/-- The transition that a script names. -/
def event (arguments : List Value) : Except Error Transition := do
  let name ← (first arguments).asStr
  match Transition.ofName? name with
  | some transition => .ok transition
  | none => .error (.of (.native ("no event " ++ name)))

/--
The transition and the tag of the handler that a script names.  The handler is
mentioned before the transition is looked at, so a name that no transition has
leaves a handler behind.
-/
def subscription (arguments : List Value) : Rule (Transition × String) := do
  let tag ← (second arguments).asStr
  Rule.perform (.mention tag)
  return (← event arguments, tag)

/-- An attribute as an array of its name and its value. -/
def attributePair (held : Attribute) : Rule Value := do
  return .arr (← Rule.perform (.newArray #[.str held.name, held.value]))

/-- The function that the first argument has to be. -/
def firstFunction (arguments : List Value) : Rule (Option Function) := do
  let function ← (first arguments).asFn
  Rule.look fun store => store.function? function

/-- The names of the functions, without the part that is common to all. -/
def names : List String :=
  ["mode", "which", "later", "ready", "maybe", "fail", "fail_later", "fatal", "apply",
    "apply_sync", "top", "top_sync", "attrs", "name", "is_native", "note", "steps", "abort",
    "pause", "unpause", "on", "off"]

/-- What the functions do. -/
def forms? : String → Option NativeForms
  | "mode" => some (.plain fun _ context =>
      return .str (match context.mode with
        | .asynchronous => "async"
        | .synchronous => "sync"))
  | "which" => some ((NativeForms.later fun _ _ => return .str "async").orImmediately
      fun _ _ => return .str "sync")
  | "later" => some (.later fun arguments _ => do
      suspend
      return first arguments)
  | "ready" => some (.ofGeneral fun arguments _ => return .ready (first arguments))
  | "maybe" => some (.ofGeneral fun arguments _ => do
      if ← (first arguments).asBool then return .ready (.str "ready")
      else return .pending do
        suspend
        return .str "pending")
  | "fail" => some (.plain fun arguments _ => failWith .native arguments)
  | "fail_later" => some (.later fun arguments _ => do
      suspend
      failWith .native arguments)
  | "fatal" => some (.plain fun arguments _ => failWith .hostSide arguments)
  | "apply" => some ((NativeForms.later fun arguments context =>
        callBack (first arguments) arguments.tail context).orImmediately
      fun arguments context => callBackAtOnce (first arguments) arguments.tail context)
  | "apply_sync" => some (.plain fun arguments context =>
      callBackAtOnce (first arguments) arguments.tail context)
  | "top" => some ((NativeForms.later fun arguments _ =>
        Rule.call (.enter (first arguments) arguments.tail .asynchronous)).orImmediately
      fun arguments _ => Rule.drive (.enter (first arguments) arguments.tail .synchronous))
  | "top_sync" => some (.plain fun arguments _ =>
      Rule.drive (.enter (first arguments) arguments.tail .synchronous))
  | "attrs" => some (.plain fun arguments _ => do
      let attributes ← Rule.look fun store => store.attributes (first arguments)
      let pairs ← Rule.traverse attributePair attributes
      return .arr (← Rule.perform (.newArray pairs.toArray)))
  | "name" => some (.plain fun arguments _ => do
      match (← firstFunction arguments).bind Function.name with
      | some name => return .str name
      | none => return .null)
  | "is_native" => some (.plain fun arguments _ => do
      match (← firstFunction arguments).map Function.body with
      | some (.native _) => return .bool true
      | _ => return .bool false)
  | "note" => some (.plain fun arguments _ => do
      Rule.perform (.note (first arguments))
      return first arguments)
  | "steps" => some (.plain fun _ _ => do
      return .num (Float.ofNat (← Rule.perform .steps)))
  | "abort" => some (causing .abort)
  | "pause" => some (causing .pause)
  | "unpause" => some (causing .unpause)
  | "on" => some (.plain fun arguments _ => do
      let (transition, tag) ← subscription arguments
      Rule.perform (.subscribe transition tag)
      return .null)
  | "off" => some (.plain fun arguments _ => do
      let (transition, tag) ← subscription arguments
      Rule.perform (.unsubscribe transition tag)
      return .null)
  | _ => none

/-- The name that a function is bound to. -/
def qualified (name : String) : String :=
  "Host:" ++ name

/-- The functions under the names they are bound to. -/
def host : Host :=
  fun name => (names.find? fun known => qualified known == name).bind forms?

/-- The names that the functions are bound to. -/
def boundNames : List String :=
  names.map qualified

end TreeScript.Probe
