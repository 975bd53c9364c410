import TreeScript.Evaluation.Call
import TreeScript.Evaluation.Construct
import TreeScript.Evaluation.Loop

/-!
# The process of a goal

Every goal has a process of its own.  The evaluation of a node does nothing
once evaluation has been stopped; otherwise it first waits while a pause is in
effect, yields if that is due, takes a step, and then follows the rule of the
construct.  An error that has no position yet is located there.
-/

namespace TreeScript.Evaluation

open TreeScript

/--
Yield to the host.  A timed sleep counts as slept out at the next poll: time is not
modelled, and polls that come before its timer has fired are left out.
-/
def yieldNow : Sleep → Rule Unit
  | .timed _ => Rule.wait .nextPoll
  | .custom suspends => do
      Rule.perform .yielded
      if suspends then Rule.wait .nextPoll

/-- What asynchronous evaluation does before it enters a node. -/
def gate (irq : Irq) : Rule Unit := do
  if let some pause ← Rule.perform .pause then
    Rule.wait (.resumed pause)
  if irq.isDue (← Rule.perform .steps) then
    yieldNow irq.sleep

/-- Enter a node and follow its rule. -/
def enterNode (options : Options) (node : Node) (scope : Scope) (context : Context) :
    Rule Value := do
  if ← Rule.perform .isStopped then return .null
  match context.mode with
  | .asynchronous => gate options.irq
  | .synchronous => pure ()
  if ← Rule.perform .tick then
    construct scope context node.start node.shape
  else Rule.fail (.of .stepLimit)

/-- Evaluate a node and locate the errors that arise in it. -/
def evaluateNode (options : Options) (node : Node) (scope : Scope) (context : Context) :
    Rule Value :=
  (enterNode options node scope context).mapError fun error =>
    error.locate node.start context.calls

/-- A rule that ends the goal it belongs to. -/
def answering (rule : Rule Value) : Rule Turn := do
  return .answer (.ok (← rule))

/-- One turn at a goal. -/
def turn (options : Options) (host : Host) : Goal → Rule Turn
  | .evaluate node scope context => answering (evaluateNode options node scope context)
  | .loop label statements scope context => loopTurn label statements scope context
  | .times label count limit body scope context =>
      timesTurn label count limit body scope context
  | .range label counter count limit body scope context =>
      rangeTurn label counter count limit body scope context
  | .each label pattern array place body scope context =>
      eachTurn label pattern array place body scope context
  | .apply function arguments context site =>
      answering (apply options host function arguments context site)
  | .enter callee arguments mode => answering (enter callee arguments mode)

/-- A turn that was interrupted answers with the interrupt. -/
def settleTurn : Except Interrupt Turn → Turn
  | .ok turn => turn
  | .error interrupt => .answer (.error interrupt)

/-- The process of a rule that makes a turn. -/
def process (rule : Rule Turn) : Process Turn :=
  rule.run.bind fun result => .done (settleTurn result)

/-- The process of a goal. -/
def ofGoal (options : Options) (host : Host) (goal : Goal) : Process Turn :=
  process (turn options host goal)

end TreeScript.Evaluation
