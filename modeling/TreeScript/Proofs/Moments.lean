import TreeScript.Proofs.GoalAccord

/-!
# Moments of a run

A moment is a state of a run, together with what is under way: for every goal
its context, and the call that it makes, named as the function was named when
it was called.

Two runs that are the same but for labels go through corresponding moments.
`Moment.Mirrors` says what holds of them: whatever is left of the goals under
way is in accord, and so is every frame with the process that waits below it.
One step leads from such moments to such moments (`Moment.Mirrors.progress`).
Applied to one run and itself, this is what holds of all moments of a run
(`Moment.Reached.mirrors_self`).
-/

namespace TreeScript

/-! ## What is under way -/

/-- A goal under way, and the call that it makes, if it is one. -/
structure Undertaking where
  goal : Goal
  call : Option Call

/-- A goal that is taken up in a store, which says what the function is named. -/
def Store.undertake (store : Store) (goal : Goal) : Undertaking :=
  ⟨goal, store.callOf? goal⟩

namespace Undertaking

/-- The calls around what is asked for by the innermost of some goals, or by the script. -/
def callsWithin : List Undertaking → List Call
  | [] => []
  | undertaking :: _ => undertaking.call.toList ++ undertaking.goal.context.calls

/-- The calls around the innermost of some goals. -/
def callsAround : List Undertaking → List Call
  | [] => []
  | undertaking :: _ => undertaking.goal.context.calls

/-- What the innermost of some goals makes of an error; the script lets it through. -/
def failed : List Undertaking → Error → Error
  | [] => id
  | undertaking :: _ => undertaking.goal.failed

section

variable (fails : Error → Prop)

/-- The errors that arise in the innermost of some goals, or in the script. -/
def Fails : List Undertaking → Error → Prop
  | [] => fails
  | undertaking :: _ => undertaking.goal.Fails

/-- The terms of the innermost of some goals, or of the script. -/
def terms : List Undertaking → Terms
  | [] => ⟨fun asked => asked = [], fails, fun _ => False⟩
  | undertaking :: outer => undertaking.goal.terms (callsWithin (undertaking :: outer))

variable {fails}

theorem asks_terms {underway : List Undertaking} {calls : List Call}
    (asked : (terms fails underway).asks calls) :
    calls = callsWithin underway := by
  cases underway <;> exact asked

end

end Undertaking

/-- A state of a run, with the goals under way, innermost first. -/
structure Moment where
  world : World
  task : Task
  underway : List Undertaking

namespace Moment

/-- What is under way after a step. -/
def underwayAfter (moment : Moment) : List Undertaking :=
  match moment.task.process with
  | .done (.answer _) => moment.underway.tail
  | .done (.again goal) => moment.world.store.undertake goal :: moment.underway.tail
  | .act _ _ => moment.underway
  | .wait _ _ =>
      match Task.barrier? moment.task.stack with
      | some (_, outer) => moment.underway.drop (moment.task.stack.length - outer.length)
      | none => moment.underway
  | .call goal _ => moment.world.store.undertake goal :: moment.underway
  | .drive goal _ => moment.world.store.undertake goal :: moment.underway

/-- The goals under way. -/
def goals (moment : Moment) : List Goal :=
  moment.underway.map Undertaking.goal

theorem goals_underwayAfter (moment : Moment) :
    moment.underwayAfter.map Undertaking.goal = moment.task.goalsAfter moment.goals := by
  unfold underwayAfter Task.goalsAfter goals
  cases moment.task.process with
  | done turn => cases turn <;> simp [Store.undertake]
  | act action next => rfl
  | wait reason next =>
      cases Task.barrier? moment.task.stack with
      | none => rfl
      | some barrier => exact List.map_drop
  | call goal next => simp [Store.undertake]
  | drive goal next => simp [Store.undertake]

section

variable (options : Options) (host : Host)

/-- One moment comes right after another. -/
inductive Goes (meanwhile : World → World → Prop) : Moment → Moment → Prop where
  | step {moment : Moment} {next : World} {after : Task}
      (running : moment.task.step options host moment.world = .running next after) :
      Goes meanwhile moment ⟨next, after, moment.underwayAfter⟩
  | resume {moment : Moment} {between next : World} {after : Task} {reason : Wait}
      (waiting : moment.task.step options host moment.world = .waiting between reason after)
      (changed : meanwhile between next) :
      Goes meanwhile moment ⟨next, after, moment.underway⟩

/-- The moments of a task that was started in a world. -/
inductive Reached (meanwhile : World → World → Prop) (start : World) (task : Task) :
    Moment → Prop where
  | start : Reached meanwhile start task ⟨start, task, []⟩
  | go {moment after : Moment} (reached : Reached meanwhile start task moment)
      (goes : Goes options host meanwhile moment after) :
      Reached meanwhile start task after

/-- The moment after a number of steps, as far as the task can take them. -/
def advance : Nat → Moment → Moment
  | 0, moment => moment
  | steps + 1, moment =>
      match moment.task.step options host moment.world with
      | .running next after => advance steps ⟨next, after, moment.underwayAfter⟩
      | _ => moment

end

variable {options : Options} {host : Host} {meanwhile : World → World → Prop}
variable {start : World} {task : Task} {moment : Moment}

/-- The goals of a moment are those that the task is working on. -/
theorem Reached.ofTask (reached : Reached options host meanwhile start task moment) :
    Task.Reached options host meanwhile start task moment.world moment.task moment.goals := by
  induction reached with
  | start => exact .start
  | go reached goes inductive_step =>
      cases goes with
      | step running =>
          unfold goals
          rw [goals_underwayAfter]
          exact inductive_step.step running
      | resume waiting changed => exact inductive_step.resume waiting changed

theorem Reached.advance (reached : Reached options host meanwhile start task moment)
    (steps : Nat) :
    Reached options host meanwhile start task (moment.advance options host steps) := by
  induction steps generalizing moment with
  | zero => exact reached
  | succ steps inductive_step =>
      rw [Moment.advance]
      split
      · rename_i running
        exact inductive_step (reached.go (.step running))
      · exact reached

/-- The error that a moment is about to hand to the frames below. -/
def error? (moment : Moment) : Option Error :=
  match moment.task.process with
  | .done (.answer (.error (.error error))) => some error
  | _ => none

end Moment

/-! ## Corresponding moments -/

section

variable (numbers : Float → Prop) (fails : Error → Prop)

/-- What is left of the innermost goal, or of the script, is in accord. -/
def Process.Works (within : Option (List Binder)) (underway : List Undertaking)
    (process other : Process Turn) : Prop :=
  Process.Accords numbers (Undertaking.terms fails underway)
    (Turn.passing (Undertaking.failed underway)) (Turn.passing (Undertaking.failed underway))
    (Turn.Resembles numbers (Undertaking.Fails fails underway)
      (Undertaking.callsAround underway) within) process other

/-- The processes of corresponding moments, of which some relay the error of another goal. -/
inductive Process.Mirrors (relays : Prop) (options : Options) (host : Host) (store : Store) :
    Option (List Binder) → List Undertaking → Process Turn → Process Turn → Prop where
  /-- A call that has not looked for its function yet. -/
  | called {function : FunctionId} {arguments : List Value} {context : Context}
      {site : Option Position} {outer : List Undertaking}
      (carry : ∀ argument ∈ arguments, argument.Carries numbers) :
      Mirrors relays options host store none
        (store.undertake (.apply function arguments context site) :: outer)
        (Evaluation.ofGoal options host (.apply function arguments context site))
        (Evaluation.ofGoal options host (.apply function arguments context site))
  | works {within : Option (List Binder)} {underway : List Undertaking}
      {process other : Process Turn} (accords : process.Works numbers fails within underway other) :
      Mirrors relays options host store within underway process other
  /-- An error on its way out. -/
  | failing {within : Option (List Binder)} {underway : List Undertaking} (relayed : relays)
      (error : Error) :
      Mirrors relays options host store within underway (.done (.answer (.error (.error error))))
        (.done (.answer (.error (.error error))))

/-- Frames that go on in accord, one for each goal, above the foot of the task. -/
inductive Frame.Mirror : Option (List Binder) → List Frame → List Frame → List Undertaking → Prop
    where
  | foot : Mirror none [] [] []
  | barrier : Mirror none [⟨fun outcome => .done (.answer outcome), true⟩]
      [⟨fun outcome => .done (.answer outcome), true⟩] []
  | push {within inner : Option (List Binder)} {frame frame' : Frame}
      {outer outer' : List Frame} {undertaking : Undertaking} {underway : List Undertaking}
      (rest : ∀ outcome outcome', Outcome.Resembles numbers inner outcome outcome' →
        (frame.resume outcome).Works numbers fails within underway (frame'.resume outcome'))
      (passes : ∀ error : Error,
        frame.resume (.error (.error error)) =
          .done (Turn.passing (Undertaking.failed underway) error) ∧
        frame'.resume (.error (.error error)) =
          .done (Turn.passing (Undertaking.failed underway) error))
      (barriers : frame'.isBarrier = frame.isBarrier)
      (inside : undertaking.goal.context.calls = Undertaking.callsWithin underway)
      (below : Mirror within outer outer' underway) :
      Mirror inner (frame :: outer) (frame' :: outer') (undertaking :: underway)

/-- Moments of two runs that are the same but for labels. -/
structure Moment.Mirrors (relays : Prop) (options : Options) (host : Host) (moment : Moment)
    (world : World) (task : Task) : Prop where
  worlds : moment.world.Resembles numbers world
  tasks : ∃ within,
    moment.task.process.Mirrors numbers fails relays options host moment.world.store within
      moment.underway task.process ∧
    Frame.Mirror numbers fails within moment.task.stack task.stack moment.underway

/-- Progress of two runs from corresponding moments. -/
inductive Progress.Mirrors (relays : Prop) (options : Options) (host : Host)
    (underway after : List Undertaking) : Progress → Progress → Prop where
  | running {world world' : World} {task task' : Task}
      (mirrors : Moment.Mirrors numbers fails relays options host ⟨world, task, after⟩ world'
        task') :
      Mirrors relays options host underway after (.running world task) (.running world' task')
  | waiting {world world' : World} {task task' : Task} {reason : Wait}
      (worlds : world.Resembles numbers world')
      (mirrors : ∀ next next' : World, next.Resembles numbers next' →
        Moment.Mirrors numbers fails False options host ⟨next, task, underway⟩ next' task') :
      Mirrors relays options host underway after (.waiting world reason task)
        (.waiting world' reason task')
  | finished {world world' : World} {outcome outcome' : Outcome}
      (worlds : world.Resembles numbers world')
      (ended : EndsAlike numbers (fun _ => True) none (Shared (Value.Carries numbers))
        outcome outcome') :
      Mirrors relays options host underway after (.finished world outcome)
        (.finished world' outcome')

end

variable {numbers : Float → Prop} {fails : Error → Prop}
variable {options : Options} {host : Host}

/-! ## Steps -/

theorem Process.Mirrors.weaken {relays later : Prop} (weaker : relays → later) {store : Store}
    {within : Option (List Binder)} {underway : List Undertaking} {process other : Process Turn}
    (mirrors : Process.Mirrors numbers fails relays options host store within underway process
      other) :
    Process.Mirrors numbers fails later options host store within underway process other := by
  cases mirrors with
  | called carry => exact .called carry
  | works accords => exact .works accords
  | failing relayed error => exact .failing (weaker relayed) error

theorem Moment.Mirrors.weaken {relays later : Prop} (weaker : relays → later) {moment : Moment}
    {world : World} {task : Task}
    (mirrors : moment.Mirrors numbers fails relays options host world task) :
    moment.Mirrors numbers fails later options host world task := by
  obtain ⟨worlds, within, processes, frames⟩ := mirrors
  exact ⟨worlds, within, processes.weaken weaker, frames⟩

/-- What a moment does is of the kind where nothing checks it: where a native function gives its
result as it is, and where a compound assignment writes what it computed. -/
structure Moment.IsSpared (options : Options) (host : Host) (numbers : Float → Prop)
    (moment : Moment) : Prop where
  applies : ∀ function arguments context site outer found native,
    moment.underway =
      moment.world.store.undertake (.apply function arguments context site) :: outer →
    moment.task.process =
      Evaluation.ofGoal options host (.apply function arguments context site) →
    moment.world.store.function? function = some found → found.body = .native native →
    native.Spares numbers arguments
  writes : ∀ undertaking outer location number next,
    moment.underway = undertaking :: outer → undertaking.goal.IsCompound →
    moment.task.process = .act (.write location (.num number)) next →
    (moment.world.perform options (.write location (.num number))).1 = .ok () → numbers number

/-- The kind of all numbers spares every moment. -/
theorem Moment.isSpared_of_all (moment : Moment) :
    moment.IsSpared options host fun _ => True :=
  ⟨fun _ _ _ _ _ _ _ _ _ _ _ value _ => value.carries_all, fun _ _ _ _ _ _ _ _ _ => trivial⟩

/-- A goal that is no call is taken up without one. -/
theorem Goal.Resembles.callOf?_eq_none {goal other : Goal} {binders : List Binder}
    (goals : goal.Resembles numbers (some binders) other) (store : Store) :
    store.callOf? goal = none := by
  cases goals <;> rfl

/-- Goals that are taken up are mirrored. -/
theorem Goal.Resembles.mirrors (kind : IsKind numbers) {within : Option (List Binder)}
    {goal other : Goal} (goals : goal.Resembles numbers within other) (store : Store)
    (outer : List Undertaking) :
    Process.Mirrors numbers fails False options host store within
      (store.undertake goal :: outer)
      (Evaluation.ofGoal options host goal) (Evaluation.ofGoal options host other) := by
  cases within with
  | none =>
      cases goals with
      | apply carry => exact .called carry
  | some binders =>
      refine .works ?_
      have accords := Evaluation.accords_ofGoal options host kind goals
      have undertaken : store.undertake goal = ⟨goal, none⟩ :=
        congrArg (Undertaking.mk goal) (goals.callOf?_eq_none store)
      rw [undertaken]
      exact accords

/-- A lawful state that is about to wait has no barrier on its stack. -/
theorem Task.Lawful.barrier_none {givesUp : Cause → Prop} {mode : Mode} {world : World}
    {reason : Wait} {rest : Process Turn} {stack : List Frame} {goals : List Goal}
    (lawful : Task.Lawful options givesUp mode world ⟨.wait reason rest, stack⟩ goals) :
    Task.barrier? stack = none := by
  cases lawful.process with
  | wait suspends obeys =>
      obtain rfl : mode = .asynchronous := (Law.mode_of goals).symm.trans suspends
      exact lawful.frames.barrier_none

/-- Mirrored stacks have barriers at the same places. -/
theorem Frame.Mirror.barrier_none {within : Option (List Binder)} {stack stack' : List Frame}
    {underway : List Undertaking}
    (frames : Frame.Mirror numbers fails within stack stack' underway)
    (unbarred : Task.barrier? stack = none) :
    Task.barrier? stack' = none := by
  induction frames with
  | foot => rfl
  | barrier => cases unbarred
  | @push _ _ frame frame' _ _ _ _ _ _ barriers _ _ inductive_step =>
      rw [Task.barrier?] at unbarred ⊢
      rw [barriers]
      cases isBarrier : frame.isBarrier with
      | true =>
          rw [isBarrier] at unbarred
          cases unbarred
      | false =>
          rw [isBarrier] at unbarred
          exact inductive_step unbarred

namespace Moment.Mirrors

variable {moment : Moment} {world world' : World} {underway : List Undertaking}
variable {within : Option (List Binder)} {stack stack' : List Frame}

/-- An answer is handed to the frames below, or it ends both runs. -/
theorem progress_answer (worlds : world.Resembles numbers world')
    (frames : Frame.Mirror numbers fails within stack stack' underway)
    {outcome outcome' : Outcome} {relays : Prop}
    (relayed : ∀ error : Error, outcome = .error (.error error) → relays)
    (ended : EndsAlike numbers (fun _ => True) within (Shared (Value.Carries numbers))
      outcome outcome') :
    Progress.Mirrors numbers fails relays options host underway underway.tail
      (Task.step options host world ⟨.done (.answer outcome), stack⟩)
      (Task.step options host world' ⟨.done (.answer outcome'), stack'⟩) := by
  cases frames with
  | foot => exact .finished worlds ended
  | barrier =>
      refine .running ⟨worlds, none, ?_, .foot⟩
      cases ended with
      | ok given => exact .works (.done (.answer (.ok given)))
      | signal signals => cases signals
      | @error error raised => exact .failing (relayed error rfl) error
  | push rest passes barriers inside below =>
      refine .running ⟨worlds, _, ?_, below⟩
      cases ended with
      | ok given => exact .works (rest _ _ (.ok given))
      | signal signals => exact .works (rest _ _ (.signal signals))
      | @error error raised =>
          dsimp only
          rw [(passes error).1, (passes error).2]
          exact .failing (relayed error rfl) _

/-- A goal that is asked for is taken up above a frame for what asks for it. -/
theorem progress_ask (kind : IsKind numbers) (worlds : world.Resembles numbers world')
    (frames : Frame.Mirror numbers fails within stack stack' underway)
    {inner : Option (List Binder)} {goal goal' : Goal}
    {next next' : Outcome → Process Turn} (isBarrier : Bool) {relays : Prop}
    (goals : goal.Resembles numbers inner goal')
    (asked : goal.context.calls = Undertaking.callsWithin underway)
    (rest : ∀ outcome outcome', Outcome.Resembles numbers inner outcome outcome' →
      (next outcome).Works numbers fails within underway (next' outcome'))
    (passes : ∀ error : Error,
      next (.error (.error error)) = .done (Turn.passing (Undertaking.failed underway) error) ∧
      next' (.error (.error error)) = .done (Turn.passing (Undertaking.failed underway) error)) :
    Progress.Mirrors numbers fails relays options host underway
      (world.store.undertake goal :: underway)
      (.running world ⟨Evaluation.ofGoal options host goal, ⟨next, isBarrier⟩ :: stack⟩)
      (.running world' ⟨Evaluation.ofGoal options host goal', ⟨next', isBarrier⟩ :: stack'⟩) :=
  .running ⟨worlds, inner, (goals.mirrors kind world.store underway).weaken False.elim,
    .push rest passes rfl asked frames⟩

/-- One step leads from corresponding moments to corresponding moments. -/
theorem progress (kind : IsKind numbers) {task : Task}
    (mirrors : moment.Mirrors numbers fails True options host world task)
    (spared : moment.IsSpared options host numbers)
    {givesUp : Cause → Prop} {mode : Mode}
    (lawful : Task.Lawful options givesUp mode moment.world moment.task moment.goals) :
    Progress.Mirrors numbers fails (moment.error?.isSome = true) options host moment.underway
      moment.underwayAfter
      (moment.task.step options host moment.world) (task.step options host world) := by
  obtain ⟨world₀, ⟨process, stack⟩, underway⟩ := moment
  obtain ⟨process', stack'⟩ := task
  obtain ⟨worlds, within, processes, frames⟩ := mirrors
  dsimp only at worlds processes frames lawful ⊢
  cases processes with
  | failing relayed error =>
      exact progress_answer worlds frames (fun _ _ => rfl) (.error trivial)
  | @called function arguments context site outer carry =>
      refine .running ⟨worlds, none, .works (Evaluation.accords_passing
        (Evaluation.accords_applyFound options host kind worlds.store carry ?_)
        fun error bare => ⟨error, bare, rfl⟩), frames⟩
      exact fun found native =>
        spared.applies function arguments context site outer found native rfl rfl
  | works accords =>
      cases accords with
      | @done turn turn' ended =>
          cases ended with
          | answer ended =>
              refine progress_answer worlds frames ?_ ?_
              · rintro error rfl
                rfl
              cases ended with
              | ok given => exact .ok given
              | signal signals => exact .signal signals
              | error raised => exact .error trivial
          | @again binders goal other goals inside =>
              cases frames with
              | push rest passes barriers around below =>
                  exact .running ⟨worlds, _, (goals.mirrors kind world₀.store _).weaken False.elim,
                    .push rest passes barriers (inside.trans around) below⟩
      | @act action action' replies next next' actions rest =>
          obtain ⟨replied, reached⟩ := World.resembles_perform_spared options worlds actions
            fun location number written summed => by
              subst written
              cases underway with
              | nil => exact summed.elim
              | cons undertaking outer =>
                  exact spared.writes undertaking outer location number next rfl summed rfl
          exact .running ⟨reached, within, .works (rest _ _ replied), frames⟩
      | wait rest =>
          have unbarred := lawful.barrier_none
          rw [Task.step_wait unbarred, Task.step_wait (frames.barrier_none unbarred)]
          exact .waiting worlds fun next next' changed => ⟨changed, _, .works rest, frames⟩
      | call goals asked rest passes =>
          exact progress_ask kind worlds frames false goals (Undertaking.asks_terms asked) rest
            passes
      | drive goals asked rest passes =>
          exact progress_ask kind worlds frames true goals (Undertaking.asks_terms asked) rest
            passes

end Moment.Mirrors

/-! ## Scripts -/

section

variable {root : Scope} {script script' : List Node} {mode : Mode}

/-- Scripts that are the same but for labels are in accord. -/
theorem Evaluation.accords_scripts (kind : IsKind numbers)
    (each : Node.Resemble numbers [] script script') :
    Rule.Accords numbers (Undertaking.terms (fun _ => True) []) none
      (Shared (Value.Carries numbers)) (runScript root script mode)
      (runScript root script' mode) :=
  accords_runScript rfl (fun _ => trivial)
    (accords_collect ⟨kind, rfl, fun _ _ => trivial⟩ (fun _ => trivial) root script script' each)
    each

/-- Scripts in accord start in corresponding moments. -/
theorem Moment.mirrors_ofScript {world world' : World}
    (worlds : world.Resembles numbers world')
    (accords : Rule.Accords numbers (Undertaking.terms fails []) none
      (Shared (Value.Carries numbers)) (Evaluation.runScript root script mode)
      (Evaluation.runScript root script' mode)) :
    Moment.Mirrors numbers fails False options host ⟨world, Task.ofScript root script mode, []⟩
      world' (Task.ofScript root script' mode) := by
  cases mode with
  | asynchronous =>
      exact ⟨worlds, none, .works (Evaluation.accords_passing accords fun _ => id), .foot⟩
  | synchronous =>
      exact ⟨worlds, none, .works (Evaluation.accords_passing accords fun _ => id), .barrier⟩

variable {meanwhile : World → World → Prop} {start : World} {moment : Moment}

/-- Every moment that a script reaches without functions of the host is lawful. -/
theorem Moment.Reached.lawful (givesUp : Cause → Prop) (hostless : start.store.Hostless)
    (keeps : ∀ between next : World, meanwhile between next → next.store.Hostless)
    (reached : Moment.Reached options host meanwhile start (Task.ofScript root script mode)
      moment) :
    Task.Lawful options givesUp mode moment.world moment.task moment.goals :=
  reached.ofTask.lawful_of_keeps givesUp hostless keeps

/-- What comes after a moment that is in accord with itself is so as well. -/
theorem Moment.Goes.mirrors_self (kind : IsKind numbers) {after : Moment}
    (goes : Moment.Goes options host meanwhile moment after)
    (keeps : ∀ between next : World, meanwhile between next → next.store.HasOnly numbers)
    (mirrors : moment.Mirrors numbers fails True options host moment.world moment.task)
    (spared : moment.IsSpared options host numbers) {givesUp : Cause → Prop}
    (lawful : Task.Lawful options givesUp mode moment.world moment.task moment.goals) :
    after.Mirrors numbers fails (moment.error?.isSome = true) options host after.world
      after.task := by
  have progress := mirrors.progress kind spared lawful
  cases goes with
  | step running =>
      rw [running] at progress
      cases progress with
      | running mirrors => exact mirrors
  | resume waiting changed =>
      rw [waiting] at progress
      cases progress with
      | waiting worlds mirrors =>
          exact (mirrors _ _ ⟨rfl, (keeps _ _ changed).resembles_self⟩).weaken False.elim

/--
Every moment that a script reaches is in accord with itself, if all numbers in
it are of the kind, and those that nothing checks are so wherever they arise.
-/
theorem Moment.Reached.mirrors_self (kind : IsKind numbers) (only : start.store.HasOnly numbers)
    (keeps : ∀ between next : World, meanwhile between next → next.store.HasOnly numbers)
    (accords : Rule.Accords numbers (Undertaking.terms fails []) none
      (Shared (Value.Carries numbers)) (Evaluation.runScript root script mode)
      (Evaluation.runScript root script mode))
    (spared : ∀ moment, Moment.Reached options host meanwhile start
      (Task.ofScript root script mode) moment → moment.IsSpared options host numbers)
    (reached : Moment.Reached options host meanwhile start (Task.ofScript root script mode)
      moment) :
    moment.Mirrors numbers fails True options host moment.world moment.task := by
  induction reached with
  | start =>
      exact (Moment.mirrors_ofScript ⟨rfl, only.resembles_self⟩ accords).weaken False.elim
  | @go moment after reached goes inductive_step =>
      have lawful := reached.lawful (fun _ => False) only.hostless fun between next changed =>
        (keeps between next changed).hostless
      exact (goes.mirrors_self kind keeps inductive_step (spared moment reached) lawful).weaken
        fun _ => trivial

end

end TreeScript
