import TreeScript.Proofs.Execution

/-!
# Runs during which the world changes

While a task waits, the host and other tasks may change the world.  Which changes
are to be expected is a relation here, `meanwhile`; it is true of what the task
waits for and of the worlds in which it stops and in which it goes on.

`Task.EndsAmid` says how a task may end then.  `Task.Ensures` says that it comes to
an end whatever happens meanwhile, and always ends as demanded.  Both are
compositional: the end of a goal and what the frame below does with it make up the
end of the whole, unless there is a barrier that keeps the goal from waiting.
-/

namespace TreeScript

/-- The progress of a task above a frame, which goes on when the task is finished. -/
def Progress.above (frame : Frame) (below : List Frame) : Progress → Progress
  | .running world task => .running world ⟨task.process, task.stack ++ frame :: below⟩
  | .waiting world reason task =>
      .waiting world reason ⟨task.process, task.stack ++ frame :: below⟩
  | .finished world outcome => .running world ⟨frame.resume outcome, below⟩

/-- The world and the outcome that a task is finished with, if it is. -/
def Progress.end? : Progress → Option (World × Outcome)
  | .finished world outcome => some (world, outcome)
  | _ => none

namespace Task

variable {options : Options} {host : Host} {meanwhile : Wait → World → World → Prop}
variable {world between next reached : World} {task after last : Task} {outcome : Outcome}
variable {size : Nat}

/-! ## How tasks may end -/

/-- A task comes to another one in some steps, without waiting. -/
inductive ComesTo (options : Options) (host : Host) : World → Task → World → Task → Prop where
  | refl (world : World) (task : Task) : ComesTo options host world task world task
  | head {world between next : World} {task middle after : Task}
      (running : task.step options host world = .running between middle)
      (rest : ComesTo options host between middle next after) :
      ComesTo options host world task next after

theorem ComesTo.act {action : Action} {rest : action.Reply → Process Turn} {stack : List Frame}
    (comes : ComesTo options host (world.perform options action).2
      ⟨rest (world.perform options action).1, stack⟩ next after) :
    ComesTo options host world ⟨.act action rest, stack⟩ next after :=
  .head (step_act world action rest stack) comes

/--
How a task may end in some steps and waits, when the world changes meanwhile only as
it is expected to.
-/
inductive EndsIn (options : Options) (host : Host) (meanwhile : Wait → World → World → Prop) :
    Nat → World → Task → World → Outcome → Prop where
  | finish {world reached : World} {task : Task} {outcome : Outcome}
      (finished : task.step options host world = .finished reached outcome) :
      EndsIn options host meanwhile 0 world task reached outcome
  | step {size : Nat} {world next reached : World} {task after : Task} {outcome : Outcome}
      (running : task.step options host world = .running next after)
      (rest : EndsIn options host meanwhile size next after reached outcome) :
      EndsIn options host meanwhile (size + 1) world task reached outcome
  | resume {size : Nat} {world between next reached : World} {task after : Task} {reason : Wait}
      {outcome : Outcome}
      (waiting : task.step options host world = .waiting between reason after)
      (changed : meanwhile reason between next)
      (rest : EndsIn options host meanwhile size next after reached outcome) :
      EndsIn options host meanwhile (size + 1) world task reached outcome

/-- How a task may end when the world changes meanwhile only as it is expected to. -/
def EndsAmid (options : Options) (host : Host) (meanwhile : Wait → World → World → Prop)
    (world : World) (task : Task) (reached : World) (outcome : Outcome) : Prop :=
  ∃ size, EndsIn options host meanwhile size world task reached outcome

theorem EndsIn.of_running (ends : EndsIn options host meanwhile size world task reached outcome)
    (running : task.step options host world = .running next after) :
    ∃ less, size = less + 1 ∧ EndsIn options host meanwhile less next after reached outcome := by
  cases ends with
  | finish finished => cases running.symm.trans finished
  | @step less _ _ _ _ _ _ running' rest =>
      cases running.symm.trans running'
      exact ⟨less, rfl, rest⟩
  | resume waiting => cases running.symm.trans waiting

theorem EndsIn.of_comesTo (comes : ComesTo options host world task next after)
    (ends : EndsIn options host meanwhile size world task reached outcome) :
    ∃ less ≤ size, EndsIn options host meanwhile less next after reached outcome := by
  induction comes generalizing size with
  | refl => exact ⟨size, Nat.le_refl size, ends⟩
  | head running _ inductive_step =>
      obtain ⟨less, rfl, rest⟩ := ends.of_running running
      obtain ⟨least, isLess, restLater⟩ := inductive_step rest
      exact ⟨least, Nat.le_succ_of_le isLess, restLater⟩

/-- What a task comes to has the same ends. -/
theorem endsAmid_of_comesTo (comes : ComesTo options host world task next after) :
    EndsAmid options host meanwhile world task reached outcome ↔
      EndsAmid options host meanwhile next after reached outcome := by
  constructor
  · rintro ⟨size, ends⟩
    obtain ⟨less, -, rest⟩ := ends.of_comesTo comes
    exact ⟨less, rest⟩
  · induction comes with
    | refl => exact id
    | head running _ inductive_step =>
        intro ends
        obtain ⟨size, rest⟩ := inductive_step ends
        exact ⟨size + 1, .step running rest⟩

theorem endsAmid_answer_iff {given : Outcome} :
    EndsAmid options host meanwhile world ⟨.done (.answer given), []⟩ reached outcome ↔
      reached = world ∧ outcome = given := by
  constructor
  · rintro ⟨size, ends⟩
    cases ends with
    | finish finished =>
        cases finished
        exact ⟨rfl, rfl⟩
    | step running => cases running
    | resume waiting => cases waiting
  · rintro ⟨rfl, rfl⟩
    exact ⟨0, .finish rfl⟩

/-! ## Tasks above other frames -/

theorem barrier?_above {above below : List Frame} (noBarrier : barrier? below = none) :
    barrier? (above ++ below) =
      (barrier? above).map fun found => (found.1, found.2 ++ below) := by
  induction above with
  | nil => exact noBarrier
  | cons frame outer inductive_step =>
      rw [List.cons_append, barrier?, barrier?]
      split
      · rfl
      · exact inductive_step

section Above

variable {frame : Frame} {below : List Frame}

/-- Above frames without a barrier a task does what it does on its own. -/
theorem step_above (noBarrier : barrier? (frame :: below) = none) (world : World) (task : Task) :
    step options host world ⟨task.process, task.stack ++ frame :: below⟩ =
      (task.step options host world).above frame below := by
  rcases task with ⟨process, above⟩
  cases process with
  | done turn =>
      cases turn with
      | answer outcome => cases above <;> rfl
      | again goal => rfl
  | act action next => rfl
  | call goal next => rfl
  | drive goal next => rfl
  | wait reason next =>
      simp only [step, barrier?_above noBarrier]
      cases barrier? above <;> rfl

/-- A task above a frame comes to its end, and then the frame does. -/
theorem EndsIn.split (noBarrier : barrier? (frame :: below) = none)
    (ends : EndsIn options host meanwhile size world
      ⟨task.process, task.stack ++ frame :: below⟩ reached outcome) :
    ∃ first second between given,
      EndsIn options host meanwhile first world task between given ∧
      EndsIn options host meanwhile second between ⟨frame.resume given, below⟩ reached outcome ∧
      first + second < size := by
  generalize whole : Task.mk task.process (task.stack ++ frame :: below) = above at ends
  induction ends generalizing task with
  | finish finished =>
      rw [← whole, step_above noBarrier] at finished
      cases stepped : task.step options host _ <;> rw [stepped] at finished <;> cases finished
  | step running rest inductive_step =>
      rw [← whole, step_above noBarrier] at running
      cases stepped : task.step options host _ <;> rw [stepped] at running <;> cases running
      case running.refl =>
        obtain ⟨first, second, between, given, ends, goesOn, less⟩ := inductive_step rfl
        exact ⟨first + 1, second, between, given, .step stepped ends, goesOn, by omega⟩
      case finished.refl => exact ⟨0, _, _, _, .finish stepped, rest, by omega⟩
  | resume waiting changed rest inductive_step =>
      rw [← whole, step_above noBarrier] at waiting
      cases stepped : task.step options host _ <;> rw [stepped] at waiting <;> cases waiting
      obtain ⟨first, second, between, given, ends, goesOn, less⟩ := inductive_step rfl
      exact ⟨first + 1, second, between, given, .resume stepped changed ends, goesOn, by omega⟩

theorem EndsIn.join {given : Outcome} (noBarrier : barrier? (frame :: below) = none)
    (ends : EndsIn options host meanwhile size world task between given)
    (goesOn : EndsAmid options host meanwhile between ⟨frame.resume given, below⟩ reached outcome) :
    EndsAmid options host meanwhile world ⟨task.process, task.stack ++ frame :: below⟩ reached
      outcome := by
  induction ends with
  | finish finished =>
      obtain ⟨size, rest⟩ := goesOn
      exact ⟨size + 1, .step (by rw [step_above noBarrier, finished]; rfl) rest⟩
  | step running _ inductive_step =>
      obtain ⟨size, rest⟩ := inductive_step goesOn
      exact ⟨size + 1, .step (by rw [step_above noBarrier, running]; rfl) rest⟩
  | resume waiting changed _ inductive_step =>
      obtain ⟨size, rest⟩ := inductive_step goesOn
      exact ⟨size + 1, .resume (by rw [step_above noBarrier, waiting]; rfl) changed rest⟩

/-- The ends of a task above a frame are those that the frame comes to after an end of the task. -/
theorem endsAmid_above_iff (noBarrier : barrier? (frame :: below) = none) :
    EndsAmid options host meanwhile world ⟨task.process, task.stack ++ frame :: below⟩ reached
        outcome ↔
      ∃ between given, EndsAmid options host meanwhile world task between given ∧
        EndsAmid options host meanwhile between ⟨frame.resume given, below⟩ reached outcome := by
  constructor
  · rintro ⟨size, ends⟩
    obtain ⟨first, second, between, given, ends, goesOn, -⟩ := ends.split noBarrier
    exact ⟨between, given, ⟨first, ends⟩, ⟨second, goesOn⟩⟩
  · rintro ⟨between, given, ⟨size, ends⟩, goesOn⟩
    exact ends.join noBarrier goesOn

end Above

/-! ## How tasks have to end -/

/--
A task comes to an end whatever happens meanwhile, and whenever it has ended
something holds of the world and of the outcome.  It does not wait for something
that cannot happen.
-/
inductive Ensures (options : Options) (host : Host) (meanwhile : Wait → World → World → Prop)
    (holds : World → Outcome → Prop) : World → Task → Prop where
  | finish {world reached : World} {task : Task} {outcome : Outcome}
      (finished : task.step options host world = .finished reached outcome)
      (fits : holds reached outcome) :
      Ensures options host meanwhile holds world task
  | step {world next : World} {task after : Task}
      (running : task.step options host world = .running next after)
      (rest : Ensures options host meanwhile holds next after) :
      Ensures options host meanwhile holds world task
  | resume {world between : World} {task after : Task} {reason : Wait}
      (waiting : task.step options host world = .waiting between reason after)
      (possible : ∃ next, meanwhile reason between next)
      (rest : ∀ next, meanwhile reason between next →
        Ensures options host meanwhile holds next after) :
      Ensures options host meanwhile holds world task

namespace Ensures

variable {holds holds' : World → Outcome → Prop}

/-- What is ensured holds at every end. -/
theorem holds_of_endsAmid (ensures : Ensures options host meanwhile holds world task)
    (ends : EndsAmid options host meanwhile world task reached outcome) :
    holds reached outcome := by
  obtain ⟨size, ends⟩ := ends
  induction ensures generalizing size with
  | finish finished fits =>
      cases ends with
      | finish finished' =>
          cases finished.symm.trans finished'
          exact fits
      | step running => cases finished.symm.trans running
      | resume waiting => cases finished.symm.trans waiting
  | step running _ inductive_step =>
      obtain ⟨less, -, rest⟩ := ends.of_running running
      exact inductive_step less rest
  | resume waiting _ _ inductive_step =>
      cases ends with
      | finish finished => cases waiting.symm.trans finished
      | step running => cases waiting.symm.trans running
      | resume waiting' changed rest =>
          cases waiting.symm.trans waiting'
          exact inductive_step _ changed _ rest

/-- Something is ensured if the task comes to an end and it holds at every end. -/
theorem strengthen (ensures : Ensures options host meanwhile holds world task)
    (implies : ∀ reached outcome, EndsAmid options host meanwhile world task reached outcome →
      holds reached outcome → holds' reached outcome) :
    Ensures options host meanwhile holds' world task := by
  induction ensures with
  | finish finished fits => exact .finish finished (implies _ _ ⟨0, .finish finished⟩ fits)
  | step running _ inductive_step =>
      refine .step running (inductive_step fun reached outcome ends => ?_)
      obtain ⟨size, rest⟩ := ends
      exact implies reached outcome ⟨size + 1, .step running rest⟩
  | resume waiting possible _ inductive_step =>
      refine .resume waiting possible fun next changed => ?_
      refine inductive_step next changed fun reached outcome ends => ?_
      obtain ⟨size, rest⟩ := ends
      exact implies reached outcome ⟨size + 1, .resume waiting changed rest⟩

theorem of_running (ensures : Ensures options host meanwhile holds world task)
    (running : task.step options host world = .running next after) :
    Ensures options host meanwhile holds next after := by
  cases ensures with
  | finish finished => cases running.symm.trans finished
  | step running' rest =>
      cases running.symm.trans running'
      exact rest
  | resume waiting => cases running.symm.trans waiting

/-- What a run without waiting leads to is ensured. -/
theorem of_run (fuel : Nat)
    (ran : task.run options host fuel world = some (.finished reached outcome))
    (fits : holds reached outcome) :
    Ensures options host meanwhile holds world task := by
  induction fuel generalizing world task with
  | zero => cases ran
  | succ fuel inductive_step =>
      cases stepped : task.step options host world with
      | running next after =>
          rw [run_of_running stepped] at ran
          exact .step stepped (inductive_step ran)
      | waiting between reason after =>
          rw [run_of_waiting stepped] at ran
          cases ran
      | finished between given =>
          rw [run_of_finished stepped] at ran
          cases ran
          exact .finish stepped fits

end Ensures

variable {holds : World → Outcome → Prop}

/-- What a task comes to ensures the same. -/
theorem ensures_of_comesTo (comes : ComesTo options host world task next after) :
    Ensures options host meanwhile holds world task ↔
      Ensures options host meanwhile holds next after := by
  induction comes with
  | refl => exact Iff.rfl
  | head running _ inductive_step =>
      exact ⟨fun ensures => inductive_step.mp (ensures.of_running running),
        fun ensures => .step running (inductive_step.mpr ensures)⟩

theorem ensures_answer_iff {given : Outcome} :
    Ensures options host meanwhile holds world ⟨.done (.answer given), []⟩ ↔
      holds world given := by
  constructor
  · intro ensures
    exact ensures.holds_of_endsAmid (endsAmid_answer_iff.mpr ⟨rfl, rfl⟩)
  · intro fits
    exact .finish rfl fits

/-- A task and the frame below it ensure what the task ensures that the frame ensures. -/
theorem ensures_above_iff {frame : Frame} {below : List Frame}
    (noBarrier : barrier? (frame :: below) = none) :
    Ensures options host meanwhile holds world ⟨task.process, task.stack ++ frame :: below⟩ ↔
      Ensures options host meanwhile
        (fun between given =>
          Ensures options host meanwhile holds between ⟨frame.resume given, below⟩)
        world task := by
  constructor
  · intro ensures
    generalize whole : Task.mk task.process (task.stack ++ frame :: below) = above at ensures
    induction ensures generalizing task with
    | finish finished =>
        rw [← whole, step_above noBarrier] at finished
        cases stepped : task.step options host _ <;> rw [stepped] at finished <;> cases finished
    | step running rest inductive_step =>
        rw [← whole, step_above noBarrier] at running
        cases stepped : task.step options host _ <;> rw [stepped] at running <;> cases running
        case running.refl => exact .step stepped (inductive_step rfl)
        case finished.refl => exact .finish stepped rest
    | resume waiting possible rest inductive_step =>
        rw [← whole, step_above noBarrier] at waiting
        cases stepped : task.step options host _ <;> rw [stepped] at waiting <;> cases waiting
        exact .resume stepped possible fun next changed => inductive_step next changed rfl
  · intro ensures
    induction ensures with
    | finish finished goesOn =>
        exact .step (by rw [step_above noBarrier, finished]; rfl) goesOn
    | step running _ inductive_step =>
        exact .step (by rw [step_above noBarrier, running]; rfl) inductive_step
    | resume waiting possible _ inductive_step =>
        exact .resume (by rw [step_above noBarrier, waiting]; rfl) possible inductive_step

/-- A run without waiting leads to an end. -/
theorem endsAmid_of_run (fuel : Nat)
    (ran : task.run options host fuel world = some (.finished reached outcome)) :
    EndsAmid options host meanwhile world task reached outcome := by
  induction fuel generalizing world task with
  | zero => cases ran
  | succ fuel inductive_step =>
      cases stepped : task.step options host world with
      | running next after =>
          rw [run_of_running stepped] at ran
          obtain ⟨size, rest⟩ := inductive_step ran
          exact ⟨size + 1, .step stepped rest⟩
      | waiting between reason after =>
          rw [run_of_waiting stepped] at ran
          cases ran
      | finished between given =>
          rw [run_of_finished stepped] at ran
          cases ran
          exact ⟨0, .finish stepped⟩

/-- What is computed about the end of a run is so of an end that there is. -/
theorem exists_finished_of_check {fuel : Nat} {check : World × Outcome → Bool}
    (checked : ((task.run options host fuel world).bind Progress.end?).any check = true) :
    ∃ reached outcome, task.run options host fuel world = some (.finished reached outcome) ∧
      check (reached, outcome) = true := by
  cases ran : task.run options host fuel world with
  | none =>
      rw [ran] at checked
      cases checked
  | some progress =>
      rw [ran] at checked
      cases progress with
      | finished reached outcome => exact ⟨reached, outcome, rfl, checked⟩
      | running | waiting => cases checked

/-! ## Goals -/

section Goals

variable {goal : Goal} {continuation : Outcome → Process Turn}

/-- The task of a goal. -/
def forGoal (options : Options) (host : Host) (goal : Goal) : Task :=
  ⟨Evaluation.ofGoal options host goal, []⟩

/-- A call ends as what goes on after an end of its goal. -/
theorem EndsIn.of_call
    (ends : EndsIn options host meanwhile size world ⟨.call goal continuation, []⟩ reached
      outcome) :
    ∃ first second between given,
      EndsIn options host meanwhile first world (forGoal options host goal) between given ∧
      EndsIn options host meanwhile second between ⟨continuation given, []⟩ reached outcome ∧
      first + second < size := by
  obtain ⟨less, rfl, rest⟩ := ends.of_running (step_call world goal continuation [])
  obtain ⟨first, second, between, given, ends, goesOn, shorter⟩ :=
    @EndsIn.split _ _ _ _ _ (forGoal options host goal) _ _ ⟨continuation, false⟩ [] rfl rest
  exact ⟨first, second, between, given, ends, goesOn, Nat.lt_succ_of_lt shorter⟩

theorem endsAmid_call_iff :
    EndsAmid options host meanwhile world ⟨.call goal continuation, []⟩ reached outcome ↔
      ∃ between given,
        EndsAmid options host meanwhile world (forGoal options host goal) between given ∧
        EndsAmid options host meanwhile between ⟨continuation given, []⟩ reached outcome := by
  have entered := @step_call options host world goal continuation []
  rw [endsAmid_of_comesTo (.head entered (.refl _ _))]
  exact @endsAmid_above_iff _ _ _ _ _ (forGoal options host goal) _ ⟨continuation, false⟩ [] rfl

theorem ensures_call_iff :
    Ensures options host meanwhile holds world ⟨.call goal continuation, []⟩ ↔
      Ensures options host meanwhile
        (fun between given =>
          Ensures options host meanwhile holds between ⟨continuation given, []⟩)
        world (forGoal options host goal) := by
  have entered := @step_call options host world goal continuation []
  rw [ensures_of_comesTo (.head entered (.refl _ _))]
  exact @ensures_above_iff _ _ _ _ (forGoal options host goal) _ ⟨continuation, false⟩ [] rfl

end Goals

end Task

end TreeScript
