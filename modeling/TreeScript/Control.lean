import TreeScript.Value

/-!
# Control signals

`return`, `break` and `continue` leave the constructs around them the way
errors do, until a construct takes them.  An outcome is a value, a signal that
is still under way, or an error.

`Outcome.takeBreak` is how a labelled block or clause takes a signal,
`Iteration.ofOutcome` how a loop does, and `Outcome.expectValue` what happens
to a signal that nothing takes.
-/

namespace TreeScript

/-- A signal to leave the constructs around a node. -/
inductive Signal where
  | returning (value : Value)
  | breaking (label : Option String) (value : Option Value)
  | continuing (label : Option String)
  deriving DecidableEq

/-- The name of a signal. -/
def Signal.name : Signal → String
  | .returning _ => "return"
  | .breaking _ _ => "break"
  | .continuing _ => "continue"

/-- The value that a signal carries out of a function. -/
def Signal.carried : Signal → Option Value
  | .returning value => some value
  | _ => none

/-- Why an evaluation ended without a value. -/
inductive Interrupt where
  | signal (signal : Signal)
  | error (error : Error)
  deriving DecidableEq

/-- How the evaluation of a node ends. -/
abbrev Outcome := Except Interrupt Value

namespace Outcome

/-- A value is needed here; a signal has nothing left to leave. -/
def expectValue : Outcome → Except Error Value
  | .ok value => .ok value
  | .error (.error error) => .error error
  | .error (.signal signal) =>
      .error (.of (.internal
        ("Unexpected " ++ signal.name ++ " outside of a function or loop")))

/-- A labelled construct takes a `break` that carries its label, and gives its value. -/
def takeBreak (label : Option String) (outcome : Outcome) : Outcome :=
  match outcome with
  | .error (.signal (.breaking (some target) value)) =>
      if label = some target then .ok (value.getD .null) else outcome
  | _ => outcome

end Outcome

/-- What a loop does after its body has ended. -/
inductive Iteration where
  | next
  | leave
  | propagate (interrupt : Interrupt)
  deriving DecidableEq

namespace Iteration

/-- A signal without a label belongs to the innermost loop, others to the loop with their label. -/
def isOwn (label target : Option String) : Bool :=
  target.isNone || target == label

/-- A loop takes the signals that are its own and lets all others through. -/
def ofOutcome (label : Option String) : Outcome → Iteration
  | .ok _ => .next
  | .error (.signal (.breaking target value)) =>
      if isOwn label target then .leave else .propagate (.signal (.breaking target value))
  | .error (.signal (.continuing target)) =>
      if isOwn label target then .next else .propagate (.signal (.continuing target))
  | .error interrupt => .propagate interrupt

end Iteration

end TreeScript
