import TreeScript.Proofs.ActionAgreement
import TreeScript.Proofs.Execution
import TreeScript.Proofs.Law

/-!
# Reached states

A task does not say which goals it is working on, since its frames are
functions.  `Task.Reached` follows a task step by step and keeps a list of the
goals under way beside it, innermost first, one for each frame that was pushed.

In every state that a script reaches the goals form a chain, in which each was
asked for under the law of the one outside it, and whatever is left of each
goal still obeys its law.  This holds however the script is suspended, and
whatever happens to the world meanwhile, as long as the functions in the store
stay what they are and none of the host comes in.
-/

namespace TreeScript

namespace Task

/-- The goals under way after a step of a task, given those before it. -/
def goalsAfter (task : Task) (goals : List Goal) : List Goal :=
  match task.process with
  | .done (.answer _) => goals.tail
  | .done (.again goal) => goal :: goals.tail
  | .act _ _ => goals
  | .wait _ _ =>
      match barrier? task.stack with
      | some (_, outer) => goals.drop (task.stack.length - outer.length)
      | none => goals
  | .call goal _ => goal :: goals
  | .drive goal _ => goal :: goals

theorem length_of_barrier? {stack outer : List Frame} {frame : Frame}
    (barrier : barrier? stack = some (frame, outer)) :
    outer.length < stack.length := by
  induction stack with
  | nil => cases barrier
  | cons first rest inductive_step =>
      rw [barrier?] at barrier
      split at barrier
      · cases barrier
        exact Nat.lt_succ_self _
      · exact Nat.lt_succ_of_lt (inductive_step barrier)

/--
The innermost barrier is the topmost frame or lies below it.  Either way so many goals
are left as there are frames below the barrier, if there was one for each frame.
-/
theorem barrier?_cons {top frame : Frame} {rest outer : List Frame} (goal : Goal)
    (goals : List Goal) (barrier : barrier? (top :: rest) = some (frame, outer)) :
    (frame = top ∧ outer = rest ∧
        (goal :: goals).drop ((top :: rest).length - outer.length) = goals) ∨
      barrier? rest = some (frame, outer) ∧
        (goal :: goals).drop ((top :: rest).length - outer.length) =
          goals.drop (rest.length - outer.length) := by
  rw [barrier?] at barrier
  split at barrier
  · cases barrier
    left
    refine ⟨rfl, rfl, ?_⟩
    rw [List.length_cons, Nat.add_sub_cancel_left, List.drop_one, List.tail_cons]
  · right
    refine ⟨barrier, ?_⟩
    have shorter := Nat.le_of_lt (length_of_barrier? barrier)
    rw [List.length_cons, Nat.succ_sub shorter, List.drop_succ_cons]

/-- The states of a task that was started in a world, with the goals under way. -/
inductive Reached (options : Options) (host : Host) (meanwhile : World → World → Prop)
    (start : World) (task : Task) : World → Task → List Goal → Prop where
  | start : Reached options host meanwhile start task start task []
  | step {world next : World} {current after : Task} {goals : List Goal}
      (reached : Reached options host meanwhile start task world current goals)
      (running : current.step options host world = .running next after) :
      Reached options host meanwhile start task next after (current.goalsAfter goals)
  | resume {world between next : World} {current after : Task} {reason : Wait}
      {goals : List Goal}
      (reached : Reached options host meanwhile start task world current goals)
      (waiting : current.step options host world = .waiting between reason after)
      (changed : meanwhile between next) :
      Reached options host meanwhile start task next after goals

/-- The state after a number of steps, as far as the task can take them. -/
def stateAfter (options : Options) (host : Host) :
    Task → Nat → World → List Goal → World × Task × List Goal
  | task, 0, world, goals => (world, task, goals)
  | task, steps + 1, world, goals =>
      match task.step options host world with
      | .running next after => stateAfter options host after steps next (task.goalsAfter goals)
      | _ => (world, task, goals)

/-- One step more is a step of the task that has been reached, unless it takes none. -/
theorem stateAfter_succ (options : Options) (host : Host) (task : Task) (steps : Nat)
    (world : World) (goals : List Goal) :
    let state := task.stateAfter options host steps world goals
    let next := task.stateAfter options host (steps + 1) world goals
    next = state ∨ state.2.1.step options host state.1 = .running next.1 next.2.1 := by
  induction steps generalizing task world goals with
  | zero =>
      simp only [stateAfter]
      split
      · exact .inr ‹_›
      · exact .inl rfl
  | succ steps inductive_step =>
      rw [stateAfter, stateAfter]
      split
      · exact inductive_step _ _ _
      · exact .inl rfl

theorem length_goalsAfter_le (task : Task) (goals : List Goal) :
    (task.goalsAfter goals).length ≤ goals.length + 1 := by
  unfold goalsAfter
  split
  · rw [List.length_tail]
    omega
  · rw [List.length_cons, List.length_tail]
    omega
  · exact Nat.le_succ _
  · split
    · rw [List.length_drop]
      omega
    · exact Nat.le_succ _
  · exact Nat.le_refl _
  · exact Nat.le_refl _

theorem Reached.stateAfter {options : Options} {host : Host} {meanwhile : World → World → Prop}
    {start world : World} {task current : Task} {goals : List Goal}
    (reached : Reached options host meanwhile start task world current goals) (steps : Nat) :
    Reached options host meanwhile start task
      (current.stateAfter options host steps world goals).1
      (current.stateAfter options host steps world goals).2.1
      (current.stateAfter options host steps world goals).2.2 := by
  induction steps generalizing world current goals with
  | zero => exact reached
  | succ steps inductive_step =>
      rw [Task.stateAfter]
      split
      · rename_i running
        exact inductive_step (reached.step running)
      · exact reached

/-- A change of the world that keeps the functions, and brings in none of the host. -/
def KeepsFunctions (world next : World) : Prop :=
  next.store.Hostless ∧ next.store.Extends world.store

/-- The task of a script in a mode. -/
def ofScript (root : Scope) (script : List Node) : Mode → Task
  | .asynchronous => ofRule (Evaluation.runScript root script .asynchronous)
  | .synchronous => ofRuleAtOnce (Evaluation.runScript root script .synchronous)

end Task

/-! ## Chains of goals -/

section Chains

variable (options : Options) (givesUp : Cause → Prop) (mode : Mode)

/-- The law of the innermost of some goals, or of the script around them. -/
def Law.of : List Goal → Law
  | [] => Evaluation.scriptLaw givesUp mode
  | goal :: _ => goal.law options givesUp mode

/-- How the process of the innermost of some goals, or of the script, may end. -/
def Turn.Ends : List Goal → Turn → Prop
  | [] => Turn.IsAnswer
  | goal :: _ => Turn.Continues goal

/-- Goals each of which was asked for under the law of the one outside it. -/
inductive Goal.Chain : List Goal → Prop where
  | nil : Chain []
  | cons {goal : Goal} {goals : List Goal}
      (asks : (Law.of options givesUp mode goals).asks goal)
      (rest : Chain goals) :
      Chain (goal :: goals)

/-- A process that keeps to the law of the innermost of some goals. -/
def Process.Keeps (goals : List Goal) : Process Turn → Prop :=
  Process.Obeys (Law.of options givesUp mode goals)
    (Turn.GaveUp (Law.of options givesUp mode goals).comparison) (Turn.Ends goals)

/-- A frame that keeps to the law of the innermost of some goals. -/
structure Frame.Keeps (goals : List Goal) (frame : Frame) : Prop where
  resumes : ∀ outcome, (frame.resume outcome).Keeps options givesUp mode goals
  propagates : Process.Propagates (Law.of options givesUp mode goals).comparison
    (Turn.GaveUp (Law.of options givesUp mode goals).comparison) frame.resume
  barrier : frame.isBarrier = true → mode = .synchronous

/-- The frames below some goals: one for each goal, above the foot of the task. -/
inductive Frame.KeepAll : List Frame → List Goal → Prop where
  | foot : KeepAll [] []
  | barrier (atOnce : mode = .synchronous) :
      KeepAll [⟨fun outcome => .done (.answer outcome), true⟩] []
  | push {frame : Frame} {outer : List Frame} {goal : Goal} {goals : List Goal}
      (keeps : frame.Keeps options givesUp mode goals)
      (rest : KeepAll outer goals) :
      KeepAll (frame :: outer) (goal :: goals)

/-- What a step of a task under a law may do: every kind of step but that from a wait. -/
inductive Task.Move (options : Options) (host : Host) (givesUp : Cause → Prop) (world : World) :
    List Goal → Task → World → Task → Prop where
  | answer {goals : List Goal} {outcome : Outcome} {frame : Frame} {outer : List Frame} :
      Move options host givesUp world goals ⟨.done (.answer outcome), frame :: outer⟩
        world ⟨frame.resume outcome, outer⟩
  | again {current goal : Goal} {outer : List Goal} {stack : List Frame}
      (continues : current.Continues goal) :
      Move options host givesUp world (current :: outer) ⟨.done (.again goal), stack⟩
        world ⟨Evaluation.ofGoal options host goal, stack⟩
  | act {goals : List Goal} {action : Action} {next : action.Reply → Process Turn}
      {stack : List Frame}
      (plain : action.Plain) :
      Move options host givesUp world goals ⟨.act action next, stack⟩
        (world.perform options action).2 ⟨next (world.perform options action).1, stack⟩
  | tick {goals : List Goal} {next : Bool → Process Turn} {stack : List Frame}
      (stops : givesUp .stepLimit → ∃ error : Error, givesUp error.cause ∧
        next false = .done (.answer (.error (.error error)))) :
      Move options host givesUp world goals ⟨.act .tick next, stack⟩
        (world.perform options .tick).2 ⟨next (world.perform options .tick).1, stack⟩
  | call {goals : List Goal} {goal : Goal} {next : Outcome → Process Turn}
      {stack : List Frame} :
      Move options host givesUp world goals ⟨.call goal next, stack⟩
        world ⟨Evaluation.ofGoal options host goal, ⟨next, false⟩ :: stack⟩
  | drive {goals : List Goal} {goal : Goal} {next : Outcome → Process Turn}
      {stack : List Frame} :
      Move options host givesUp world goals ⟨.drive goal next, stack⟩
        world ⟨Evaluation.ofGoal options host goal, ⟨next, true⟩ :: stack⟩

/-- A state in which everything under way obeys its law. -/
structure Task.Lawful (world : World) (task : Task) (goals : List Goal) : Prop where
  hostless : world.store.Hostless
  chain : Goal.Chain options givesUp mode goals
  process : task.process.Keeps options givesUp mode goals
  frames : Frame.KeepAll options givesUp mode task.stack goals

end Chains

variable {options : Options} {host : Host} {givesUp : Cause → Prop} {mode : Mode}

theorem Law.mode_of (goals : List Goal) :
    (Law.of options givesUp mode goals).mode = mode := by
  cases goals <;> rfl

theorem Law.givesUp_of (goals : List Goal) {cause : Cause} :
    (Law.of options givesUp mode goals).comparison.givesUp cause ↔ givesUp cause := by
  cases goals <;> rfl

/-- What takes the place of a goal may be asked for as well. -/
theorem Law.asks_continues {goals : List Goal} {goal next : Goal}
    (asks : (Law.of options givesUp mode goals).asks goal)
    (continues : goal.Continues next) :
    (Law.of options givesUp mode goals).asks next := by
  cases goals with
  | nil =>
      rcases asks with ⟨node, scope, rfl⟩
      cases continues
  | cons outer rest => exact Goal.Asks.continues asks continues

/-- Every goal of a chain is evaluated in some context of the mode of the script. -/
theorem Goal.Chain.inside {goal : Goal} {goals : List Goal}
    (chain : Goal.Chain options givesUp mode (goal :: goals)) :
    ∃ context : Context, context.mode = mode ∧ Goal.Alike context context goal goal := by
  induction goals generalizing goal with
  | nil =>
      cases chain with
      | cons asks _ =>
          rcases asks with ⟨node, scope, rfl⟩
          exact ⟨.top mode, rfl, .evaluate node scope⟩
  | cons outer rest inductive_step =>
      cases chain with
      | cons asks chain =>
          rcases inductive_step chain with ⟨context, sameMode, outerInside⟩
          cases asks with
          | node inside =>
              cases outerInside
              exact ⟨context, sameMode, inside⟩
          | loop node scope | times node scope | range node scope | each node scope =>
              cases outerInside
              exact ⟨context, sameMode, .evaluate node scope⟩
          | body room name node scope =>
              cases outerInside
              exact ⟨context.enter name _, sameMode, .evaluate node scope⟩
          | back callee values =>
              cases outerInside
              exact ⟨context.enter "<native>" _, sameMode, .apply callee values none⟩

/-- The process of a goal that was asked for keeps to the law of the goal. -/
theorem Goal.Chain.keeps {goal : Goal} {goals : List Goal}
    (chain : Goal.Chain options givesUp mode (goal :: goals)) :
    (Evaluation.ofGoal options host goal).Keeps options givesUp mode (goal :: goals) := by
  rcases chain.inside with ⟨context, rfl, inside⟩
  exact Evaluation.obeys_ofGoal options host givesUp inside

theorem Frame.KeepAll.barrier_none {stack : List Frame} {goals : List Goal}
    (keep : Frame.KeepAll options givesUp .asynchronous stack goals) :
    Task.barrier? stack = none := by
  induction keep with
  | foot => rfl
  | barrier atOnce => cases atOnce
  | @push frame _ _ _ keeps _ inductive_step =>
      cases isBarrier : frame.isBarrier with
      | true => cases keeps.barrier isBarrier
      | false =>
          rw [Task.barrier?, isBarrier]
          exact inductive_step

/-- An error that nothing catches ends the task, with an error of the same kind. -/
theorem Frame.KeepAll.run_of_error {stack : List Frame} {goals : List Goal}
    (keep : Frame.KeepAll options givesUp mode stack goals) (host : Host)
    (error : Error) (given : givesUp error.cause) (world : World) :
    ∃ final : Error, givesUp final.cause ∧
      ∀ fuel, Task.run options host (fuel + stack.length + 1) world
          ⟨.done (.answer (.error (.error error))), stack⟩ =
        some (.finished world (.error (.error final))) := by
  induction keep generalizing error with
  | foot => exact ⟨error, given, fun fuel => Task.run_of_finished rfl fuel⟩
  | barrier atOnce =>
      refine ⟨error, given, fun fuel => ?_⟩
      rw [Task.run_of_running (Task.step_answer world _ _ _)]
      exact Task.run_of_finished rfl fuel
  | @push frame outer goal goals keeps rest inductive_step =>
      obtain ⟨turn, gave, ends⟩ :=
        keeps.propagates error ((Law.givesUp_of goals).mpr given)
      rcases Turn.gaveUp_iff.mp gave with ⟨next, rfl, nextGiven⟩
      rcases inductive_step next ((Law.givesUp_of goals).mp nextGiven) with ⟨final, finalGiven, ran⟩
      refine ⟨final, finalGiven, fun fuel => ?_⟩
      rw [Task.run_of_running (Task.step_answer world _ _ _), ends]
      exact ran fuel

/-! ## Lawful states -/

namespace Task.Lawful

variable {world : World} {task : Task} {goals : List Goal}

/-- What is done by a hostless action keeps a state lawful. -/
theorem act (chain : Goal.Chain options givesUp mode goals) {stack : List Frame}
    (frames : Frame.KeepAll options givesUp mode stack goals)
    (hostless : world.store.Hostless)
    (action : Action) (actionHostless : action.Hostless)
    {next : action.Reply → Process Turn}
    (rest : ∀ reply, action.Expected reply → (next reply).Keeps options givesUp mode goals) :
    Lawful options givesUp mode (world.perform options action).2
      ⟨next (world.perform options action).1, stack⟩ goals where
  hostless := World.hostless_perform options action actionHostless hostless
  chain := chain
  process := rest _ (World.expected_perform options action hostless)
  frames := frames

/-- A step leads from a lawful state to another. -/
theorem step {next : World} {after : Task}
    (lawful : Lawful options givesUp mode world task goals)
    (running : task.step options host world = .running next after) :
    Lawful options givesUp mode next after (task.goalsAfter goals) := by
  rcases lawful with ⟨hostless, chain, obeys, frames⟩
  rcases task with ⟨process, stack⟩
  cases obeys with
  | @done turn ended =>
      cases turn with
      | answer outcome =>
          cases frames with
          | foot => cases running
          | barrier atOnce =>
              cases running
              exact ⟨hostless, .nil, .done (.inr trivial), .foot⟩
          | push keeps rest =>
              cases running
              cases chain with
              | cons _ outer => exact ⟨hostless, outer, keeps.resumes outcome, rest⟩
      | again goal =>
          cases running
          cases chain with
          | nil => exact (ended.elim id id).elim
          | cons asks outer =>
              have continues := ended.resolve_left id
              have chain := Goal.Chain.cons (Law.asks_continues asks continues) outer
              cases frames with
              | push keeps rest => exact ⟨hostless, chain, chain.keeps, .push keeps rest⟩
  | @act action _ plain rest =>
      cases running
      exact act chain frames hostless action plain.hostless rest
  | tick rest _ =>
      cases running
      exact act chain frames hostless .tick trivial fun within _ => rest within
  | @wait reason rest suspends _ =>
      obtain rfl : mode = .asynchronous := (Law.mode_of goals).symm.trans suspends
      rw [step_wait frames.barrier_none] at running
      cases running
  | call asks rest propagates =>
      cases running
      have chain := Goal.Chain.cons asks chain
      exact ⟨hostless, chain, chain.keeps, .push ⟨rest, propagates, nofun⟩ frames⟩
  | drive atOnce asks rest propagates =>
      cases running
      have chain := Goal.Chain.cons asks chain
      have atOnce := (Law.mode_of goals).symm.trans atOnce
      exact ⟨hostless, chain, chain.keeps, .push ⟨rest, propagates, fun _ => atOnce⟩ frames⟩

/-- A step of a lawful state is one of the moves of a task. -/
theorem move {next : World} {after : Task}
    (lawful : Lawful options givesUp mode world task goals)
    (running : task.step options host world = .running next after) :
    Move options host givesUp world goals task next after := by
  rcases lawful with ⟨-, -, obeys, frames⟩
  rcases task with ⟨process, stack⟩
  cases obeys with
  | @done turn ended =>
      cases turn with
      | answer outcome =>
          cases stack with
          | nil => cases running
          | cons frame outer =>
              cases running
              exact .answer
      | again goal =>
          cases running
          cases goals with
          | nil => exact (ended.elim id id).elim
          | cons current outer => exact .again (ended.resolve_left id)
  | act plain _ =>
      cases running
      exact .act plain
  | tick _ stops =>
      cases running
      refine .tick ?_
      intro given
      rcases stops ((Law.givesUp_of goals).mpr given) with ⟨turn, gave, ends⟩
      rcases Turn.gaveUp_iff.mp gave with ⟨error, rfl, errorGiven⟩
      exact ⟨error, (Law.givesUp_of goals).mp errorGiven, ends⟩
  | wait suspends _ =>
      obtain rfl : mode = .asynchronous := (Law.mode_of goals).symm.trans suspends
      rw [step_wait frames.barrier_none] at running
      cases running
  | call _ _ _ =>
      cases running
      exact .call
  | drive _ _ _ _ =>
      cases running
      exact .drive

/-- A lawful state that waits is asynchronous, and is lawful again when it goes on. -/
theorem wait {between : World} {after : Task} {reason : Wait}
    (lawful : Lawful options givesUp mode world task goals)
    (waiting : task.step options host world = .waiting between reason after) :
    mode = .asynchronous ∧
      ∀ next : World, next.store.Hostless → Lawful options givesUp mode next after goals := by
  rcases eq_of_waiting waiting with ⟨rfl, rest, stack, rfl, rfl⟩
  rcases lawful with ⟨-, chain, obeys, frames⟩
  cases obeys with
  | wait suspends obeys =>
      exact ⟨(Law.mode_of goals).symm.trans suspends,
        fun next hostless => ⟨hostless, chain, obeys, frames⟩⟩

end Task.Lawful

namespace Task

/-- A script starts in a lawful state. -/
theorem lawful_ofScript {start : World} (hostless : start.store.Hostless) (root : Scope)
    (script : List Node) :
    Lawful options givesUp mode start (ofScript root script mode) [] := by
  have obeys := Evaluation.obeys_script givesUp root script mode
  cases mode with
  | asynchronous => exact ⟨hostless, .nil, obeys, .foot⟩
  | synchronous => exact ⟨hostless, .nil, obeys, .barrier rfl⟩

/-- Every state that a script reaches is lawful as long as there are no functions of the host. -/
theorem Reached.lawful_of_keeps (givesUp : Cause → Prop) {meanwhile : World → World → Prop}
    {start world : World} {root : Scope} {script : List Node} {task : Task} {goals : List Goal}
    (reached : Reached options host meanwhile start (ofScript root script mode) world task goals)
    (hostless : start.store.Hostless)
    (keeps : ∀ between next : World, meanwhile between next → next.store.Hostless) :
    Lawful options givesUp mode world task goals := by
  induction reached with
  | start => exact lawful_ofScript hostless root script
  | step _ running inductive_step => exact inductive_step.step running
  | resume _ waiting changed inductive_step =>
      exact (inductive_step.wait waiting).2 _ (keeps _ _ changed)

/-- Every state that a script reaches without functions of the host is lawful. -/
theorem Reached.lawful (givesUp : Cause → Prop) {start world : World} {root : Scope}
    {script : List Node} {task : Task} {goals : List Goal}
    (reached : Reached options host KeepsFunctions start
      (ofScript root script mode) world task goals)
    (hostless : start.store.Hostless) :
    Lawful options givesUp mode world task goals :=
  reached.lawful_of_keeps givesUp hostless fun _ _ changed => changed.1

/--
What holds at the start of a synchronous script, and still does after a step
from a lawful state, holds of every state that the script reaches.
-/
theorem Reached.always (givesUp : Cause → Prop) {start world : World} {root : Scope}
    {script : List Node} {task : Task} {goals : List Goal}
    (hostless : start.store.Hostless)
    (reached : Reached options host KeepsFunctions start
      (ofScript root script .synchronous) world task goals)
    {motive : World → Task → List Goal → Prop}
    (starts : motive start (ofScript root script .synchronous) [])
    (keeps : ∀ {world next : World} {task after : Task} {goals : List Goal},
      Lawful options givesUp .synchronous world task goals →
      motive world task goals →
      task.step options host world = .running next after →
      motive next after (task.goalsAfter goals)) :
    motive world task goals := by
  induction reached with
  | start => exact starts
  | step reached running inductive_step =>
      exact keeps (reached.lawful givesUp hostless) inductive_step running
  | resume reached waiting _ _ =>
      cases ((reached.lawful givesUp hostless).wait waiting).1

end Task

end TreeScript
