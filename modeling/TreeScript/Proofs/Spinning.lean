import TreeScript.Proofs.Depth
import TreeScript.Proofs.Steps

/-!
# Loops without statements

A loop without statements takes no step in a turn, so that no limit of steps
ends it: once it is entered it goes on for ever.  This is the first of the two
ways in which a synchronous script can fail to end; the other one is that calls
nest without bound.  A run that ends has met neither.
-/

namespace TreeScript

namespace Task

variable {options : Options} {host : Host}

/-- A task that comes to its end without waiting. -/
def Halts (options : Options) (host : Host) (world : World) (task : Task) : Prop :=
  ∃ fuel reached outcome, task.run options host fuel world = some (.finished reached outcome)

theorem Halts.of_finished {world reached : World} {task : Task} {outcome : Outcome}
    (finished : task.step options host world = .finished reached outcome) :
    task.Halts options host world :=
  ⟨1, reached, outcome, run_of_finished finished 0⟩

theorem Halts.of_running {world between : World} {task next : Task}
    (running : task.step options host world = .running between next)
    (halts : next.Halts options host between) :
    task.Halts options host world := by
  rcases halts with ⟨fuel, reached, outcome, ran⟩
  refine ⟨fuel + 1, reached, outcome, ?_⟩
  rw [run_of_running running]
  exact ran

end Task

namespace Process

/-- A process that does nothing but come to the same goal again. -/
inductive Spins (goal : Goal) : Process Turn → Prop where
  | again : Spins goal (.done (.again goal))
  | act {action : Action} {next : action.Reply → Process Turn}
      (plain : action.Plain)
      (rest : ∀ reply, Spins goal (next reply)) :
      Spins goal (.act action next)

end Process

/-- A loop that is entered while evaluation is not stopped spins, if it has no statements. -/
theorem Evaluation.spins_loop (options : Options) (host : Host) (label : Option String)
    (scope : Scope) (context : Context) :
    ∃ next : Bool → Process Turn,
      ofGoal options host (.loop label [] scope context) = .act .isStopped next ∧
        (next false).Spins (.loop label [] scope context) :=
  ⟨_, rfl, .act trivial fun _ => .act trivial fun _ => .act trivial fun _ => .again⟩

namespace Goal

/-- Whether a goal is a loop without statements. -/
def IsEmptyLoop : Goal → Prop
  | .loop _ [] _ _ => True
  | _ => False

/-- A loop without statements is the only goal that has one take its place. -/
theorem Continues.isEmptyLoop {goal next : Goal} (continues : goal.Continues next)
    (isEmptyLoop : next.IsEmptyLoop) :
    goal.IsEmptyLoop := by
  cases continues with
  | loop => exact isEmptyLoop
  | times => exact isEmptyLoop.elim
  | range => exact isEmptyLoop.elim
  | each => exact isEmptyLoop.elim

end Goal

namespace Task

variable {options : Options} {host : Host} {world next start : World} {task after : Task}
variable {goals : List Goal}

/-- A task that is in a loop without statements while evaluation is not stopped. -/
def Stuck (options : Options) (host : Host) (world : World) (task : Task) (goals : List Goal) :
    Prop :=
  ∃ goal outer, goals = goal :: outer ∧ goal.IsEmptyLoop ∧
    world.lifecycle.isStopped = false ∧
    (task.process = Evaluation.ofGoal options host goal ∨ task.process.Spins goal)

/-- A task that is stuck stays so. -/
theorem Stuck.step (stuck : Stuck options host world task goals) :
    ∃ next after, task.step options host world = .running next after ∧
      Stuck options host next after (task.goalsAfter goals) := by
  rcases stuck with ⟨goal, outer, rfl, isEmptyLoop, unstopped, doing⟩
  rcases task with ⟨process, stack⟩
  rcases doing with rfl | spins
  · cases goal with
    | loop label statements scope context =>
        cases statements with
        | cons => exact isEmptyLoop.elim
        | nil =>
            obtain ⟨next, shape, spins⟩ :=
              Evaluation.spins_loop options host label scope context
            rw [shape]
            refine ⟨_, _, step_act world .isStopped next stack, _, outer, rfl, trivial, unstopped,
              .inr ?_⟩
            rw [show (world.perform options .isStopped).1 = false from unstopped]
            exact spins
    | _ => exact isEmptyLoop.elim
  · cases spins with
    | again => exact ⟨_, _, rfl, goal, outer, rfl, isEmptyLoop, unstopped, .inl rfl⟩
    | @act action next plain rest =>
        refine ⟨_, _, step_act world action next stack, goal, outer, rfl, isEmptyLoop, ?_,
          .inr (rest _)⟩
        rw [(World.perform_keeps options action plain.hostless).2.1]
        exact unstopped

/-- A task that is stuck never ends. -/
theorem Stuck.run_eq_none (stuck : Stuck options host world task goals) (fuel : Nat) :
    task.run options host fuel world = none := by
  induction fuel generalizing world task goals with
  | zero => rfl
  | succ fuel inductive_step =>
      rcases stuck.step with ⟨next, after, running, stuck⟩
      rw [run_of_running running]
      exact inductive_step stuck

/-- A step of a synchronous script leaves the lifecycle as it is. -/
theorem Lawful.lifecycle {givesUp : Cause → Prop} {mode : Mode}
    (lawful : Lawful options givesUp mode world task goals)
    (running : task.step options host world = .running next after) :
    next.lifecycle = world.lifecycle := by
  cases lawful.move running with
  | @act _ action _ _ plain => exact (World.perform_keeps options action plain.hostless).2.1
  | answer | again | tick | call | drive => rfl

/-- Either no loop without statements is under way, or the task is stuck in one. -/
theorem Lawful.spares {givesUp : Cause → Prop} {mode : Mode}
    (lawful : Lawful options givesUp mode world task goals)
    (unstopped : world.lifecycle.isStopped = false)
    (spares : (∀ goal ∈ goals, ¬ goal.IsEmptyLoop) ∨ Stuck options host world task goals)
    (running : task.step options host world = .running next after) :
    (∀ goal ∈ task.goalsAfter goals, ¬ goal.IsEmptyLoop) ∨
      Stuck options host next after (task.goalsAfter goals) := by
  rcases spares with spared | stuck
  · have asked {goal : Goal} {stack : List Frame} :
        (∀ other ∈ goal :: goals, ¬ other.IsEmptyLoop) ∨
          Stuck options host world ⟨Evaluation.ofGoal options host goal, stack⟩
            (goal :: goals) := by
      by_cases isEmptyLoop : goal.IsEmptyLoop
      · exact .inr ⟨goal, goals, rfl, isEmptyLoop, unstopped, .inl rfl⟩
      · exact .inl (List.forall_mem_cons.mpr ⟨isEmptyLoop, spared⟩)
    cases lawful.move running with
    | answer => exact .inl fun goal mem => spared goal (List.mem_of_mem_tail mem)
    | again continues =>
        rcases List.forall_mem_cons.mp spared with ⟨notCurrent, notOuter⟩
        refine .inl (List.forall_mem_cons.mpr ⟨fun isEmptyLoop => ?_, notOuter⟩)
        exact notCurrent (continues.isEmptyLoop isEmptyLoop)
    | act | tick => exact .inl spared
    | call | drive => exact asked
  · rcases stuck.step with ⟨next', after', running', stuck⟩
    cases running'.symm.trans running
    exact .inr stuck

variable {root : Scope} {script : List Node}

/--
What a run with some fuel has come to is reached within the fuel, and goes on
to the same end.
-/
theorem Reached.of_run (hostless : start.store.Hostless)
    (reached : Reached options host KeepsFunctions start
      (ofScript root script .synchronous) world task goals)
    {fuel : Nat} {progress : Progress}
    (ran : (ofScript root script .synchronous).run options host fuel start = some progress) :
    ∃ rest, goals.length + rest ≤ fuel ∧ task.run options host rest world = some progress := by
  induction reached with
  | start => exact ⟨fuel, Nat.le_of_eq (Nat.zero_add fuel), ran⟩
  | @step world next current after goals reached running inductive_step =>
      rcases inductive_step with ⟨rest, within, ran⟩
      cases rest with
      | zero => cases ran
      | succ rest =>
          rw [run_of_running running] at ran
          refine ⟨rest, ?_, ran⟩
          have grows := length_goalsAfter_le current goals
          omega
  | resume reached waiting _ _ =>
      cases ((reached.lawful Cause.IsStepLimit hostless).wait waiting).1

theorem Reached.lifecycle (hostless : start.store.Hostless)
    (reached : Reached options host KeepsFunctions start
      (ofScript root script .synchronous) world task goals) :
    world.lifecycle = start.lifecycle := by
  refine reached.always Cause.IsStepLimit hostless
    (motive := fun world _ _ => world.lifecycle = start.lifecycle) rfl ?_
  exact fun lawful same running => (lawful.lifecycle running).trans same

/-- A script that comes to a loop without statements never ends, unless evaluation is stopped. -/
theorem Reached.not_halts (hostless : start.store.Hostless)
    {goal : Goal} {outer : List Goal}
    (reached : Reached options host KeepsFunctions start
      (ofScript root script .synchronous) world task (goal :: outer))
    (isEmptyLoop : goal.IsEmptyLoop)
    (unstopped : world.lifecycle.isStopped = false) :
    ¬ (ofScript root script .synchronous).Halts options host start := by
  rw [reached.lifecycle hostless] at unstopped
  have spares : ∀ {world task goals},
      Reached options host KeepsFunctions start
        (ofScript root script .synchronous) world task goals →
      (∀ goal ∈ goals, ¬ goal.IsEmptyLoop) ∨ Stuck options host world task goals := by
    intro world task goals reached
    have both := reached.always Cause.IsStepLimit hostless (motive := fun world task goals =>
      world.lifecycle = start.lifecycle ∧
        ((∀ goal ∈ goals, ¬ goal.IsEmptyLoop) ∨ Stuck options host world task goals))
      ⟨rfl, .inl nofun⟩ fun lawful before running =>
        ⟨(lawful.lifecycle running).trans before.1,
          lawful.spares (before.1.symm ▸ unstopped) before.2 running⟩
    exact both.2
  rintro ⟨fuel, final, outcome, ran⟩
  rcases reached.of_run hostless ran with ⟨rest, -, ran⟩
  rcases spares reached with spared | stuck
  · exact spared goal List.mem_cons_self isEmptyLoop
  · rw [stuck.run_eq_none] at ran
    cases ran

end Task

end TreeScript
