import TreeScript.Evaluation.Statement

/-!
# The rules of loops

One turn of a loop either ends the loop or asks for the rest of the loop as
another goal in its place, so that a loop takes no more room the longer it
runs.  All loops end with `null`, and end early when evaluation is stopped.
-/

namespace TreeScript.Evaluation

open TreeScript

/-- The loop is over. -/
def finished : Turn :=
  .answer (.ok .null)

/-- Run the body of a loop in a label; `rest` is what is left of the loop after that. -/
def turnAfter (label : Option String) (rest : Goal) (body : Rule Value) : Rule Turn := do
  match Iteration.ofOutcome label (← body.outcome) with
  | .next => return .again rest
  | .leave => return finished
  | .propagate interrupt => throw interrupt

/-- A turn of a loop without end. -/
def loopTurn (label : Option String) (statements : List Node) (scope : Scope)
    (context : Context) : Rule Turn := do
  if ← Rule.perform .isStopped then return finished
  let inner ← openScope scope .empty
  turnAfter label (.loop label statements scope context) (runAll inner context statements)

/-- A turn of a loop that runs a number of times. -/
def timesTurn (label : Option String) (count limit : Float) (body : Node) (scope : Scope)
    (context : Context) : Rule Turn := do
  if !(count < limit) then return finished
  if ← Rule.perform .isStopped then return finished
  turnAfter label (.times label (count + Float.ofNat 1) limit body scope context)
    (evaluateClause body scope context)

/-- A turn of a loop that counts a name upward. -/
def rangeTurn (label : Option String) (counter : String) (count limit : Float) (body : Node)
    (scope : Scope) (context : Context) : Rule Turn := do
  if !(count < limit) then return finished
  if ← Rule.perform .isStopped then return finished
  let inner ← openScope scope (Dict.empty.insert counter (.constant (.num count)))
  turnAfter label (.range label counter (count + Float.ofNat 1) limit body scope context)
    (evaluateClause body inner context)

/-- A turn of a loop over the elements of an array, which may grow meanwhile. -/
def eachTurn (label : Option String) (pattern : Node) (array : ArrayId) (place : Nat)
    (body : Node) (scope : Scope) (context : Context) : Rule Turn := do
  if ← Rule.perform .isStopped then return finished
  match ← Rule.look fun store => (store.items array)[place]? with
  | none => return finished
  | some item => do
      let inner ← openScope scope .empty
      Rule.attempt (Rule.perform (.define inner false pattern item))
      turnAfter label (.each label pattern array (place + 1) body scope context)
        (evaluate body inner context)

end TreeScript.Evaluation
