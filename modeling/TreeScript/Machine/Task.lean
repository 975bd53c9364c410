import TreeScript.Evaluation.Goal

/-!
# Tasks

A task is an evaluation under way: the process it is in, and the stack of
processes that wait for the outcome of a goal.  `Task.step` takes one step;
`Task.run` steps until the task ends, has to wait, or has used up its fuel.

A process that drives a goal leaves a barrier on the stack.  When something
below the barrier wants to wait, the task is unwound to the barrier and goes on
there with an error.
-/

namespace TreeScript

/-- A process that waits for the outcome of a goal. -/
structure Frame where
  resume : Outcome → Process Turn
  /-- Whether waiting below this frame is an error. -/
  isBarrier : Bool

/-- An evaluation under way. -/
structure Task where
  process : Process Turn
  stack : List Frame

/-- What a step leads to. -/
inductive Progress where
  | running (world : World) (task : Task)
  | waiting (world : World) (reason : Wait) (task : Task)
  | finished (world : World) (outcome : Outcome)

namespace Task

/-- The task of a rule. -/
def ofRule (rule : Rule Value) : Task :=
  ⟨Evaluation.process (Evaluation.answering rule), []⟩

/-- The task of a rule that must not wait. -/
def ofRuleAtOnce (rule : Rule Value) : Task :=
  ⟨Evaluation.process (Evaluation.answering rule), [⟨fun outcome => .done (.answer outcome), true⟩]⟩

/-- The error of something that wants to wait where it must not. -/
def cannotWait : Outcome :=
  .error (.error (.of (.hostSide "Synchronous execution cannot wait for a pending operation.")))

/-- The stack from the innermost barrier on, if there is one. -/
def barrier? : List Frame → Option (Frame × List Frame)
  | [] => none
  | frame :: outer => if frame.isBarrier then some (frame, outer) else barrier? outer

/-- Take one step. -/
def step (options : Options) (host : Host) (world : World) (task : Task) : Progress :=
  match task.process, task.stack with
  | .done (.answer outcome), [] => .finished world outcome
  | .done (.answer outcome), frame :: outer => .running world ⟨frame.resume outcome, outer⟩
  | .done (.again goal), stack => .running world ⟨Evaluation.ofGoal options host goal, stack⟩
  | .act action next, stack =>
      let (reply, world) := world.perform options action
      .running world ⟨next reply, stack⟩
  | .call goal next, stack =>
      .running world ⟨Evaluation.ofGoal options host goal, ⟨next, false⟩ :: stack⟩
  | .drive goal next, stack =>
      .running world ⟨Evaluation.ofGoal options host goal, ⟨next, true⟩ :: stack⟩
  | .wait reason next, stack =>
      match barrier? stack with
      | some (frame, outer) => .running world ⟨frame.resume cannotWait, outer⟩
      | none => .waiting world reason ⟨next, stack⟩

/-- Step until the task ends or waits; without a result when the fuel is used up. -/
def run (options : Options) (host : Host) : Nat → World → Task → Option Progress
  | 0, _, _ => none
  | fuel + 1, world, task =>
      match task.step options host world with
      | .running world task => run options host fuel world task
      | progress => some progress

end Task

/-- Whether what a task waits for has happened by the time it is polled again. -/
def Wait.isOver (lifecycle : Lifecycle) : Wait → Bool
  | .nextPoll => true
  | .resumed pause => lifecycle.pause != some pause

end TreeScript
