import TreeScript.Proofs.Permanence
import TreeScript.Proofs.Transitions
import Mathlib.Logic.Relation

/-!
# The history of a lifecycle

A lifecycle changes in three ways only: a transition is entered, a handler is
registered, or one is unregistered.  Whatever runs do, whatever a host asks, and
whatever handlers cause while others still fire, comes down to these moves
(`Lifecycle.Evolves`).  So what the moves keep holds through every session.

Each pause has a number of its own, and a pause that has ended does not come
back.  The pauses that have ended can be counted, and a certain pause is over if
and only if one has ended since it began (`Lifecycle.Evolves.isOver_iff`).
-/

namespace TreeScript

namespace Lifecycle

/-! ## Moves -/

/-- What can happen to a lifecycle at once. -/
inductive Moves : Lifecycle → Lifecycle → Prop where
  | enter (lifecycle : Lifecycle) (transition : Transition) :
      Moves lifecycle (lifecycle.enter transition).1
  | register (lifecycle : Lifecycle) (transition : Transition) (handler : Handler) :
      Moves lifecycle (lifecycle.register transition handler)
  | unregister (lifecycle : Lifecycle) (transition : Transition) (tag : String) :
      Moves lifecycle (lifecycle.unregister transition tag)

/-- A lifecycle comes to another one by moves. -/
abbrev Evolves : Lifecycle → Lifecycle → Prop :=
  Relation.ReflTransGen Moves

theorem Evolves.of_eq {before after : Lifecycle} (same : after = before) :
    before.Evolves after :=
  same ▸ .refl

theorem evolves_settle (lifecycle : Lifecycle) (handlers : List Handler) :
    lifecycle.Evolves (lifecycle.settle handlers).1 := by
  fun_induction settle lifecycle handlers with
  | case1 lifecycle => exact .refl
  | case2 lifecycle handler rest response settled tags same inductive_step =>
      rw [same] at inductive_step
      exact inductive_step
  | case3 lifecycle handler rest transition response settled tags same inductive_step =>
      rw [same] at inductive_step
      exact inductive_step.head (.enter lifecycle transition)
  | case4 lifecycle handler rest transition response settled tags same inductive_step =>
      rw [same] at inductive_step
      exact inductive_step.head (.register lifecycle transition handler)

/-- A transition with all that its handlers cause is made of moves. -/
theorem evolves_transition (lifecycle : Lifecycle) (transition : Transition) :
    lifecycle.Evolves (lifecycle.transition transition).1 :=
  (evolves_settle _ _).head (.enter lifecycle transition)

theorem Moves.isStopped {before after : Lifecycle} (moves : before.Moves after)
    (stopped : before.isStopped = true) :
    after.isStopped = true := by
  cases moves with
  | enter transition => exact isStopped_enter stopped transition
  | register transition handler => exact isStopped_register stopped transition handler
  | unregister transition tag => cases transition <;> exact stopped

/-- Evaluation that has been stopped stays so. -/
theorem Evolves.isStopped {before after : Lifecycle} (evolves : before.Evolves after)
    (stopped : before.isStopped = true) :
    after.isStopped = true := by
  induction evolves with
  | refl => exact stopped
  | tail _ moves inductive_step => exact moves.isStopped inductive_step

/-! ## Numbers of pauses -/

/-- The pause in effect is the latest one. -/
def IsNumbered (lifecycle : Lifecycle) : Prop :=
  ∀ pause ∈ lifecycle.pause, lifecycle.pauses = pause + 1

/-- The number of pauses that have ended: all those before the one in effect, if there is one. -/
def ended (lifecycle : Lifecycle) : Nat :=
  lifecycle.pause.getD lifecycle.pauses

theorem isNumbered_initial : initial.IsNumbered := nofun

theorem isNumbered_of_pause {before after : Lifecycle} (numbered : before.IsNumbered)
    (pause : after.pause = before.pause) (pauses : after.pauses = before.pauses) :
    after.IsNumbered := by
  rw [IsNumbered, pause, pauses]
  exact numbered

theorem pause_register (lifecycle : Lifecycle) (transition : Transition) (handler : Handler) :
    (lifecycle.register transition handler).pause = lifecycle.pause ∧
      (lifecycle.register transition handler).pauses = lifecycle.pauses := by
  cases transition <;> exact ⟨rfl, rfl⟩

theorem pause_unregister (lifecycle : Lifecycle) (transition : Transition) (tag : String) :
    (lifecycle.unregister transition tag).pause = lifecycle.pause ∧
      (lifecycle.unregister transition tag).pauses = lifecycle.pauses := by
  cases transition <;> exact ⟨rfl, rfl⟩

theorem pause_enter_abort (lifecycle : Lifecycle) :
    (lifecycle.enter .abort).1.pause = lifecycle.pause ∧
      (lifecycle.enter .abort).1.pauses = lifecycle.pauses := by
  rw [enter]
  split <;> exact ⟨rfl, rfl⟩

/-- A pause takes the next number, if none is in effect. -/
theorem pause_enter_pause (lifecycle : Lifecycle) :
    (lifecycle.enter .pause).1.pause = some (lifecycle.pause.getD lifecycle.pauses) ∧
      (lifecycle.enter .pause).1.pauses =
        lifecycle.pauses + if lifecycle.isPaused then 0 else 1 := by
  rw [enter, isPaused]
  cases found : lifecycle.pause with
  | none => exact ⟨rfl, rfl⟩
  | some pause => exact ⟨found, rfl⟩

theorem pause_enter_unpause (lifecycle : Lifecycle) :
    (lifecycle.enter .unpause).1.pause = none ∧
      (lifecycle.enter .unpause).1.pauses = lifecycle.pauses := by
  rw [enter, isPaused]
  cases found : lifecycle.pause with
  | none => exact ⟨found, rfl⟩
  | some pause => exact ⟨rfl, rfl⟩

theorem isNumbered_enter {lifecycle : Lifecycle} (numbered : lifecycle.IsNumbered)
    (transition : Transition) :
    (lifecycle.enter transition).1.IsNumbered := by
  cases transition with
  | abort =>
      obtain ⟨pause, pauses⟩ := pause_enter_abort lifecycle
      exact isNumbered_of_pause numbered pause pauses
  | pause =>
      obtain ⟨pause, pauses⟩ := pause_enter_pause lifecycle
      rw [IsNumbered, pause, pauses]
      rintro _ ⟨⟩
      cases found : lifecycle.pause with
      | none => simp [isPaused, found]
      | some latest => simpa [isPaused, found] using numbered latest found
  | unpause =>
      rw [IsNumbered, (pause_enter_unpause lifecycle).1]
      nofun

/--
Resuming ends the pause in effect, if there is one.  No other transition ends a
pause.
-/
theorem ended_enter {lifecycle : Lifecycle} (numbered : lifecycle.IsNumbered)
    (transition : Transition) :
    (lifecycle.enter transition).1.ended =
      lifecycle.ended + if transition = .unpause ∧ lifecycle.isPaused then 1 else 0 := by
  rw [ended, ended]
  cases transition with
  | abort =>
      obtain ⟨pause, pauses⟩ := pause_enter_abort lifecycle
      simp [pause, pauses]
  | pause => simp [(pause_enter_pause lifecycle).1]
  | unpause =>
      obtain ⟨pause, pauses⟩ := pause_enter_unpause lifecycle
      rw [pause, pauses, isPaused]
      cases found : lifecycle.pause with
      | none => simp
      | some latest => simpa using numbered latest found

/-- What a move does to the numbers of pauses. -/
theorem Moves.ended_le {before after : Lifecycle} (moves : before.Moves after)
    (numbered : before.IsNumbered) :
    after.IsNumbered ∧ before.pauses ≤ after.pauses ∧ before.ended ≤ after.ended := by
  have unchanged {after : Lifecycle} (same : after.pause = before.pause ∧
      after.pauses = before.pauses) :
      after.IsNumbered ∧ before.pauses ≤ after.pauses ∧ before.ended ≤ after.ended := by
    refine ⟨isNumbered_of_pause numbered same.1 same.2, Nat.le_of_eq same.2.symm, ?_⟩
    exact Nat.le_of_eq (by rw [ended, ended, same.1, same.2])
  cases moves with
  | enter transition =>
      refine ⟨isNumbered_enter numbered transition, ?_, ?_⟩
      · cases transition with
        | abort => exact Nat.le_of_eq (pause_enter_abort before).2.symm
        | pause => exact (pause_enter_pause before).2 ▸ Nat.le_add_right _ _
        | unpause => exact Nat.le_of_eq (pause_enter_unpause before).2.symm
      · exact ended_enter numbered transition ▸ Nat.le_add_right _ _
  | register transition handler => exact unchanged (pause_register before transition handler)
  | unregister transition tag => exact unchanged (pause_unregister before transition tag)

/-- Pauses that have ended stay ended. -/
theorem Evolves.ended_le {before after : Lifecycle} (evolves : before.Evolves after)
    (numbered : before.IsNumbered) :
    after.IsNumbered ∧ before.pauses ≤ after.pauses ∧ before.ended ≤ after.ended := by
  induction evolves with
  | refl => exact ⟨numbered, Nat.le_refl _, Nat.le_refl _⟩
  | tail _ moves inductive_step =>
      obtain ⟨numbered, pauses, ended⟩ := inductive_step
      obtain ⟨kept, more, further⟩ := moves.ended_le numbered
      exact ⟨kept, Nat.le_trans pauses more, Nat.le_trans ended further⟩

/-- A pause is over if and only if a pause has ended since it was in effect. -/
theorem Evolves.isOver_iff {before after : Lifecycle} (evolves : before.Evolves after)
    (numbered : before.IsNumbered) {pause : Nat} (inEffect : before.pause = some pause) :
    (Wait.resumed pause).isOver after = true ↔ before.ended < after.ended := by
  obtain ⟨kept, pauses, -⟩ := evolves.ended_le numbered
  have ended : before.ended = pause := by rw [Lifecycle.ended, inEffect, Option.getD_some]
  have counted := numbered pause inEffect
  rw [Wait.isOver, bne_iff_ne, ended, Lifecycle.ended]
  cases found : after.pause with
  | none => simp only [Option.getD_none, ne_eq, reduceCtorEq, not_false_eq_true, true_iff]; omega
  | some latest =>
      have latestCounted := kept latest found
      simp only [Option.getD_some, ne_eq, Option.some.injEq]
      omega

end Lifecycle

/-! ## Worlds -/

namespace World

theorem lifecycle_handler (world : World) (tag : String) (response : Response) :
    (world.handler tag response).2.lifecycle = world.lifecycle := by
  unfold handler
  split <;> rfl

theorem evolves_subscribe (world : World) (transition : Transition) (tag : String)
    (response : Response) :
    world.lifecycle.Evolves (world.subscribe transition tag response).lifecycle := by
  have registered := Lifecycle.Moves.register (world.handler tag response).2.lifecycle transition
    (world.handler tag response).1
  rw [lifecycle_handler] at registered
  exact (Relation.ReflTransGen.single registered).trans
    (Lifecycle.Evolves.of_eq
      (congrArg (Lifecycle.register · transition _) (lifecycle_handler world tag response)))

theorem evolves_unsubscribe (world : World) (transition : Transition) (tag : String)
    (response : Response) :
    world.lifecycle.Evolves (world.unsubscribe transition tag response).lifecycle := by
  have unregistered := Lifecycle.Moves.unregister (world.handler tag response).2.lifecycle
    transition (world.handler tag response).1.tag
  rw [lifecycle_handler] at unregistered
  exact (Relation.ReflTransGen.single unregistered).trans
    (Lifecycle.Evolves.of_eq
      (congrArg (Lifecycle.unregister · transition _) (lifecycle_handler world tag response)))

theorem evolves_deliver (world : World) (options : Options) (error : Error) :
    world.lifecycle.Evolves (world.deliver options error).2.lifecycle := by
  unfold deliver
  split
  · split
    · split
      · exact .refl
      · exact world.lifecycle.evolves_transition .abort
    · exact .refl
  · exact .refl

/-- Whatever is done to a world, its lifecycle moves at most. -/
theorem evolves_perform (options : Options) (world : World) (action : Action) :
    world.lifecycle.Evolves (world.perform options action).2.lifecycle := by
  have kept (hostless : action.Hostless) :
      world.lifecycle.Evolves (world.perform options action).2.lifecycle :=
    .of_eq (world.perform_keeps options action hostless).2.1
  cases action with
  | newFunction name body => exact .refl
  | deliver error => exact world.evolves_deliver options error
  | transition transition => exact world.lifecycle.evolves_transition transition
  | mention tag => exact .of_eq (world.lifecycle_handler tag .nothing)
  | subscribe transition tag => exact world.evolves_subscribe transition tag .nothing
  | unsubscribe transition tag => exact world.evolves_unsubscribe transition tag .nothing
  | _ => exact kept trivial

end World

/-! ## Tasks -/

namespace Task

variable {options : Options} {host : Host}

theorem evolves_step (options : Options) (host : Host) (world : World) (task : Task) :
    world.lifecycle.Evolves (task.step options host world).world.lifecycle := by
  rcases task with ⟨process, stack⟩
  cases process with
  | done turn =>
      cases turn with
      | answer outcome => cases stack <;> exact .refl
      | again goal => exact .refl
  | act action next => exact world.evolves_perform options action
  | wait reason next =>
      unfold step
      dsimp only
      split <;> exact .refl
  | call goal next | drive goal next => exact .refl

theorem evolves_run {fuel : Nat} {world : World} {task : Task} {progress : Progress}
    (ran : task.run options host fuel world = some progress) :
    world.lifecycle.Evolves progress.world.lifecycle := by
  have comes := exists_last_of_run
    (fun between _ => world.lifecycle.Evolves between.lifecycle) ran .refl
    fun {between next last after} evolves running => by
      have stepped := last.evolves_step options host between
      rw [running] at stepped
      exact evolves.trans stepped
  rcases comes with ⟨between, last, evolves, rfl⟩
  exact evolves.trans (last.evolves_step options host between)

end Task

/-! ## Interpreters and sessions -/

namespace Interpreter

theorem evolves_conclude (options : Options) (delivers : Bool) (outcome : Outcome)
    (world : World) :
    world.lifecycle.Evolves (conclude options delivers outcome world).2.lifecycle := by
  unfold conclude
  split
  · exact .refl
  · rename_i error _
    have delivered := world.evolves_deliver options error
    split
    · split
      · rename_i handed
        rw [handed] at delivered
        exact delivered
      · rename_i handed
        rw [handed] at delivered
        exact delivered
    · exact .refl

theorem evolves_poll {interpreter after : Interpreter} {fuel : Nat} {run : Run}
    {polled : Polled}
    (answered : interpreter.poll fuel run = some (polled, after)) :
    interpreter.world.lifecycle.Evolves after.world.lifecycle := by
  unfold poll at answered
  split at answered
  · cases answered
    exact .refl
  · split at answered
    · split at answered
      · rename_i world outcome ran
        cases answered
        exact (Task.evolves_run ran).trans (evolves_conclude _ _ outcome world)
      · rename_i ran
        cases answered
        exact Task.evolves_run ran
      · cases answered
    · cases answered
      exact .refl

theorem evolves_complete {interpreter after : Interpreter} {fuel polls : Nat} {run : Run}
    {verdict : Verdict}
    (answered : interpreter.complete fuel polls run = some (verdict, after)) :
    interpreter.world.lifecycle.Evolves after.world.lifecycle := by
  induction polls generalizing interpreter run with
  | zero => cases answered
  | succ polls inductive_step =>
      rw [complete] at answered
      split at answered
      · rename_i polled
        cases answered
        exact evolves_poll polled
      · rename_i polled
        split at answered
        · exact (evolves_poll polled).trans (inductive_step answered)
        · cases answered
      · cases answered

end Interpreter

/-- Looking after a session moves its lifecycle at most. -/
theorem World.upkeep_evolves :
    World.Upkeep fun before after => before.lifecycle.Evolves after.lifecycle where
  refl _ := .refl
  trans first second := first.trans second
  readName options scope name world := world.evolves_perform options (.readName scope name)
  assign options scope name value world :=
    world.evolves_perform options (.write (.name scope name) value)
  declare options scope name bound world := by
    have agree := Edit.agree_register (World.editRelation_comesFrom options world) bound
      (scope.registrations name) world world ⟨rfl, rfl, rfl, .refl _⟩
    exact .of_eq agree.2.2.2.1
  build _ _ := .refl
  transition world transition := world.lifecycle.evolves_transition transition
  subscribe world transition tag response := world.evolves_subscribe transition tag response
  unsubscribe world transition tag response := world.evolves_unsubscribe transition tag response

/-- Whatever a session is asked, its lifecycle moves at most. -/
theorem Session.evolves_answer {session after : Session} {fuel : Nat} {request : Request}
    {answer : Answer}
    (answered : session.answer fuel request = some (answer, after)) :
    session.world.lifecycle.Evolves after.world.lifecycle := by
  have kept {interpreter : Interpreter} (same : after.world = interpreter.world) :
      interpreter.world.lifecycle.Evolves after.world.lifecycle :=
    .of_eq (congrArg World.lifecycle same)
  cases course_of_answer World.upkeep_evolves answered with
  | tended _ tended => exact tended.world
  | launched _ tended _ remembered => exact remembered ▸ tended.world
  | dropped | unknown => exact .refl
  | completed _ tended _ completed world _ =>
      exact (tended.world.trans (Interpreter.evolves_complete completed)).trans (kept world)
  | suspended _ polled => exact Interpreter.evolves_poll polled
  | ended _ polled world _ => exact (Interpreter.evolves_poll polled).trans (kept world)

theorem Session.Reaches.evolves {session after : Session} (reached : session.Reaches after) :
    session.world.lifecycle.Evolves after.world.lifecycle := by
  induction reached with
  | start => exact .refl
  | answer _ answered inductive_step => exact inductive_step.trans (evolves_answer answered)
  | takeEvents _ inductive_step => exact inductive_step

end TreeScript
