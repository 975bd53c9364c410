import TreeScript.Proofs.Depth
import TreeScript.Proofs.LimitedRuns

/-!
# Runs under a limit of depth

Like a limit of steps, a limit of the nesting of calls takes nothing but the end
away from a run.  Only the call of a closure looks at it, once, before it does
anything else.  So two interpreters that differ only in the limit take the same
steps until a closure is refused under the stricter of them, and for as long as
that does not happen they cannot be told apart.

The refused call ends with an error that is caught nowhere.  Nothing happens to
the world any more, and the other run has still heard all of what was heard
until then.
-/

namespace TreeScript

/-- The same options under another limit of the nesting of calls. -/
def Options.withDepthLimit (options : Options) (limit : Nat) : Options :=
  { options with depthLimit := limit }

/-- Whether a limit is stricter than another one; zero means no limit. -/
def Options.IsStricter (limit other : Nat) : Prop :=
  limit ≠ 0 ∧ (other = 0 ∨ limit < other)

/-- Whether something failed since calls were nested too deeply. -/
def Cause.IsCallDepth (cause : Cause) : Prop :=
  ∃ limit, cause = .callDepth limit

variable {options : Options} {host : Host}

/-! ## What depends on the limit -/

/-- No action depends on the limit. -/
theorem World.perform_withDepthLimit (options : Options) (limit : Nat) (world : World)
    (action : Action) :
    world.perform (options.withDepthLimit limit) action = world.perform options action := by
  by_cases isTick : action = .tick
  · subst isTick
    rfl
  · exact perform_withLimits options options.stepLimit limit world action isTick

/-- The process of a goal depends on the limit only if it is a call. -/
theorem Evaluation.ofGoal_withDepthLimit (options : Options) (limit : Nat) (host : Host)
    {goal : Goal}
    (noCall : goal.isApply = false) :
    ofGoal (options.withDepthLimit limit) host goal = ofGoal options host goal := by
  cases goal with
  | apply function arguments context site => cases noCall
  | _ => rfl

section Closures

variable (options : Options) (name : Option String) (parameters : List Parameter)
  (fallbacks : List (Option Value)) (statements : List Node) (scope : Scope)
  (arguments : List Value) (context : Context) (site : Option Position)

/-- A closure that may be entered does not look at the limit again. -/
theorem Evaluation.applyClosure_of_room
    (room : options.depthLimit = 0 ∨ context.depth < options.depthLimit) :
    applyClosure options name parameters fallbacks statements scope arguments context site =
      (do
        let inner ← openScope scope .empty
        bindParameters inner parameters fallbacks arguments
        let outcome ←
          (runAll inner (context.enter (name.getD anonymous) site) statements).outcome
        ExceptT.mk (.done (endOfBody outcome))) := by
  unfold applyClosure
  rw [if_neg (by simp; omega)]

/-- Under the stricter of two limits a closure is refused, or the limits make no difference. -/
theorem Evaluation.applyClosure_withDepthLimit {limit other : Nat}
    (stricter : Options.IsStricter limit other) :
    applyClosure (options.withDepthLimit limit) name parameters fallbacks statements scope
          arguments context site =
        applyClosure (options.withDepthLimit other) name parameters fallbacks statements scope
          arguments context site ∨
      applyClosure (options.withDepthLimit limit) name parameters fallbacks statements scope
          arguments context site = Rule.fail (.of (.callDepth limit)) := by
  by_cases deep : limit ≤ context.depth
  · exact .inr (applyClosure_of_deep (options.withDepthLimit limit) name parameters
      fallbacks statements scope arguments context site (Nat.pos_of_ne_zero stricter.1) deep)
  · have room : other = 0 ∨ context.depth < other := by
      rcases stricter with ⟨-, none | less⟩ <;> omega
    left
    rw [applyClosure_of_room (options.withDepthLimit limit) name parameters fallbacks
        statements scope arguments context site (.inr (Nat.lt_of_not_le deep)),
      applyClosure_of_room (options.withDepthLimit other) name parameters fallbacks
        statements scope arguments context site room]

end Closures

namespace Task

/-- Tasks in step under two limits: the same task, or the same goal about to be started. -/
inductive InStep (options : Options) (host : Host) (limit other : Nat) : Task → Task → Prop where
  | same (task : Task) : InStep options host limit other task task
  | starting (goal : Goal) (stack : List Frame) :
      InStep options host limit other
        ⟨Evaluation.ofGoal (options.withDepthLimit limit) host goal, stack⟩
        ⟨Evaluation.ofGoal (options.withDepthLimit other) host goal, stack⟩

/-- How the steps of tasks in step compare. -/
inductive StepsAlike (options : Options) (host : Host) (limit other : Nat) (world : World) :
    Progress → Progress → Prop where
  | running {next : World} {task task' : Task}
      (inStep : InStep options host limit other task task') :
      StepsAlike options host limit other world (.running next task) (.running next task')
  | waiting (next : World) (reason : Wait) (task : Task) :
      StepsAlike options host limit other world (.waiting next reason task)
        (.waiting next reason task)
  | finished (reached : World) (outcome : Outcome) :
      StepsAlike options host limit other world (.finished reached outcome)
        (.finished reached outcome)
  /-- A closure is refused under the first limit, whatever the other one does. -/
  | refused {error : Error} (tooDeep : error.cause = .callDepth limit) (stack : List Frame)
      (progress : Progress) :
      StepsAlike options host limit other world
        (.running world ⟨.done (.answer (.error (.error error))), stack⟩) progress

variable {limit other : Nat} (world : World)

/-- One task does the same under both limits, but may start goals that depend on them. -/
theorem stepsAlike_same (task : Task) :
    StepsAlike options host limit other world
      (task.step (options.withDepthLimit limit) host world)
      (task.step (options.withDepthLimit other) host world) := by
  rcases task with ⟨process, stack⟩
  cases process with
  | done turn =>
      cases turn with
      | answer outcome =>
          cases stack with
          | nil => exact .finished world outcome
          | cons frame outer => exact .running (.same _)
      | again goal => exact .running (.starting goal stack)
  | act action next =>
      rw [step_act, step_act, World.perform_withDepthLimit, World.perform_withDepthLimit]
      exact .running (.same _)
  | wait reason next =>
      cases found : barrier? stack with
      | none =>
          rw [step_wait found, step_wait found]
          exact .waiting world reason _
      | some barrier =>
          rw [step_wait_barrier found, step_wait_barrier found]
          exact .running (.same _)
  | call goal next => exact .running (.starting goal _)
  | drive goal next => exact .running (.starting goal _)

/-- A call looks the function up; only a closure then asks how deep it is. -/
theorem stepsAlike_apply (stricter : Options.IsStricter limit other) (function : FunctionId)
    (arguments : List Value) (context : Context) (site : Option Position) (stack : List Frame) :
    StepsAlike options host limit other world
      (step (options.withDepthLimit limit) host world
        ⟨Evaluation.ofGoal (options.withDepthLimit limit) host
          (.apply function arguments context site), stack⟩)
      (step (options.withDepthLimit other) host world
        ⟨Evaluation.ofGoal (options.withDepthLimit other) host
          (.apply function arguments context site), stack⟩) := by
  have applied (options : Options) :
      Evaluation.ofGoal options host (.apply function arguments context site) =
        Evaluation.process (Evaluation.answering
          (Evaluation.apply options host function arguments context site)) := rfl
  rw [applied, applied, Evaluation.apply, Evaluation.apply, step_look, step_look]
  cases world.store.function? function with
  | none => exact .running (.same _)
  | some found =>
      rcases found with ⟨name, attributes, body⟩
      cases body with
      | native native => exact .running (.same _)
      | closure parameters fallbacks statements scope =>
          dsimp only
          rcases Evaluation.applyClosure_withDepthLimit options name parameters
            fallbacks statements scope arguments context site stricter with same | refused
          · rw [same]
            exact .running (.same _)
          · rw [refused]
            exact .refused rfl stack _

theorem stepsAlike_of_inStep (stricter : Options.IsStricter limit other) {task task' : Task}
    (inStep : InStep options host limit other task task') :
    StepsAlike options host limit other world
      (task.step (options.withDepthLimit limit) host world)
      (task'.step (options.withDepthLimit other) host world) := by
  cases inStep with
  | same task => exact stepsAlike_same world task
  | starting goal stack =>
      cases call : goal.isApply with
      | false =>
          rw [Evaluation.ofGoal_withDepthLimit options limit host call,
            Evaluation.ofGoal_withDepthLimit options other host call]
          exact stepsAlike_same world _
      | true =>
          cases goal with
          | apply function arguments context site =>
              exact stepsAlike_apply world stricter function arguments context site stack
          | _ => cases call

/-- A run that a limit cuts short in a world that the run under another limit passes as well. -/
def IsCutShort (options : Options) (host : Host) (limit other : Nat) (world : World)
    (task task' : Task) : Prop :=
  ∃ (last : World) (error : Error), error.cause = .callDepth limit ∧
    (∃ enough, ∀ more, task.run (options.withDepthLimit limit) host (more + enough) world =
      some (.finished last (.error (.error error)))) ∧
    ∀ fuel reached outcome,
      task'.run (options.withDepthLimit other) host fuel world =
        some (.finished reached outcome) →
      last.Onward reached

/-- What cuts a run short after a step cuts it short. -/
theorem IsCutShort.step {world next : World} {task task' after after' : Task}
    (cut : IsCutShort options host limit other next after after')
    (running : task.step (options.withDepthLimit limit) host world = .running next after)
    (running' : task'.step (options.withDepthLimit other) host world = .running next after') :
    IsCutShort options host limit other world task task' := by
  obtain ⟨last, error, tooDeep, ⟨enough, ran⟩, onward⟩ := cut
  refine ⟨last, error, tooDeep, ⟨enough + 1, fun more => ?_⟩, ?_⟩
  · rw [← Nat.add_assoc, run_of_running running]
    exact ran more
  · intro fuel reached outcome ran
    cases fuel with
    | zero => cases ran
    | succ fuel =>
        rw [run_of_running running'] at ran
        exact onward fuel reached outcome ran

/-- A refused call cuts a lawful run short at once. -/
theorem isCutShort_of_refused {mode : Mode} {world : World} {task task' : Task}
    {goals : List Goal} {error : Error} {stack : List Frame}
    (lawful : Lawful (options.withDepthLimit limit) (fun cause => cause = .callDepth limit) mode
      world task goals)
    (running : task.step (options.withDepthLimit limit) host world =
      .running world ⟨.done (.answer (.error (.error error))), stack⟩)
    (tooDeep : error.cause = .callDepth limit) :
    IsCutShort options host limit other world task task' := by
  obtain ⟨final, cause, ran⟩ := (lawful.step running).frames.run_of_error host error tooDeep world
  refine ⟨world, final, cause, ⟨stack.length + 1 + 1, fun more => ?_⟩, ?_⟩
  · have order : more + (stack.length + 1 + 1) = (more + stack.length + 1) + 1 := by omega
    rw [order, run_of_running running]
    exact ran more
  · exact fun fuel reached outcome ran => onward_run ran

/--
Running tasks in step under two limits.  The induction is on the fuel: up to the
first refusal the steps are the same, and from there on the stricter limit leaves
nothing to do but to take the stack down.
-/
theorem run_withDepthLimit (stricter : Options.IsStricter limit other) {mode : Mode}
    (fuel : Nat) {world : World} {task task' : Task} {goals : List Goal}
    (lawful : Lawful (options.withDepthLimit limit) (fun cause => cause = .callDepth limit) mode
      world task goals)
    (inStep : InStep options host limit other task task') :
    task.run (options.withDepthLimit limit) host fuel world =
        task'.run (options.withDepthLimit other) host fuel world ∨
      IsCutShort options host limit other world task task' := by
  induction fuel generalizing world task task' goals with
  | zero => exact .inl rfl
  | succ fuel inductive_step =>
      have alike := stepsAlike_of_inStep world stricter inStep
      generalize step : task.step (options.withDepthLimit limit) host world = progress at alike
      generalize step' : task'.step (options.withDepthLimit other) host world = progress' at alike
      cases alike with
      | running inStep =>
          rw [run_of_running step, run_of_running step']
          exact (inductive_step (lawful.step step) inStep).imp_right fun cut => cut.step step step'
      | waiting next reason after =>
          rw [run_of_waiting step, run_of_waiting step']
          exact .inl rfl
      | finished reached outcome =>
          rw [run_of_finished step, run_of_finished step']
          exact .inl rfl
      | refused tooDeep stack progress =>
          exact .inr (isCutShort_of_refused lawful step tooDeep)

end Task

/-! ## Runs under a limit -/

namespace Interpreter

/-- Whether a run has failed since calls were nested too deeply. -/
def IsTooDeep (verdict : Verdict) : Prop :=
  ∃ error : Error, verdict = .error error ∧ error.cause.IsCallDepth

/--
The limit of depth is conservative.  A synchronous script is run in two new
interpreters without functions of the host that differ in nothing but the limit.
If it ends under the stricter limit with anything but too deep a call, then it
ends under the other one in the same way, in the same world and with the same
fuel.  If it ends under both limits in whatever way, then the host has heard
under the stricter one a prefix of what it has heard under the other one.  And
whenever it ends under the other limit, it ends under the stricter one.
-/
theorem complete_withDepthLimit (options : Options) (host : Host)
    (constants : List (String × Datum Value)) (inputs : List String) (script : List Node)
    {limit other : Nat}
    (stricter : Options.IsStricter limit other) :
    let strict := create (options.withDepthLimit limit) host [] constants inputs
    let lenient := create (options.withDepthLimit other) host [] constants inputs
    (∀ fuel polls verdict reached,
      complete fuel polls strict (strict.startAtOnce script) = some (verdict, reached) →
      ¬ IsTooDeep verdict →
      complete fuel polls lenient (lenient.startAtOnce script) =
        some (verdict, { reached with options := lenient.options })) ∧
    (∀ fuel polls verdict reached fuel' polls' verdict' reached',
      complete fuel polls strict (strict.startAtOnce script) = some (verdict, reached) →
      complete fuel' polls' lenient (lenient.startAtOnce script) = some (verdict', reached') →
      reached.world.events.toList <+: reached'.world.events.toList) ∧
    ∀ fuel polls verdict reached,
      complete fuel polls lenient (lenient.startAtOnce script) = some (verdict, reached) →
      ∃ fuel verdict reached,
        complete fuel polls strict (strict.startAtOnce script) = some (verdict, reached) := by
  intro strict lenient
  have hostless : strict.world.store.Hostless := hostless_create options host constants inputs
  cases script with
  | nil =>
      refine ⟨?_, ?_, ?_⟩
      · rintro fuel (- | polls) verdict reached ⟨⟩ -
        rfl
      · rintro fuel (- | polls) verdict reached fuel' (- | polls') verdict' reached' ⟨⟩ ⟨⟩
        exact List.prefix_rfl
      · rintro fuel (- | polls) verdict reached ⟨⟩
        exact ⟨fuel, _, _, rfl⟩
  | cons statement rest =>
      let task := Task.ofScript strict.root (statement :: rest) .synchronous
      have lawful : task.Lawful (options.withDepthLimit limit)
          (fun cause => cause = .callDepth limit) .synchronous strict.world [] :=
        Task.lawful_ofScript hostless strict.root (statement :: rest)
      have compared (fuel : Nat) :
          task.run (options.withDepthLimit limit) host fuel strict.world =
              task.run (options.withDepthLimit other) host fuel strict.world ∨
            Task.IsCutShort options host limit other strict.world task task :=
        Task.run_withDepthLimit stricter fuel lawful (.same task)
      have ends (interpreter : Interpreter) (same : interpreter.world = strict.world)
          {fuel polls : Nat} {result : Verdict × Interpreter} :=
        complete_startAtOnce_iff interpreter (same ▸ hostless) statement rest fuel polls result
      refine ⟨?_, ?_, ?_⟩
      · rintro fuel (- | polls) verdict reached completed notTooDeep
        · cases completed
        · obtain ⟨world, outcome, ran, ended⟩ := (ends strict rfl).mp completed
          obtain ⟨rfl, rfl⟩ := Prod.mk.inj ended
          rcases compared fuel with same | ⟨last, error, tooDeep, ⟨enough, cut⟩, -⟩
          · exact (ends lenient rfl).mpr ⟨world, outcome, same.symm.trans ran, rfl⟩
          · cases Task.eq_of_run ran (cut 0)
            exact (notTooDeep ⟨error, rfl, limit, tooDeep⟩).elim
      · rintro fuel (- | polls) verdict reached fuel' (- | polls') verdict' reached' completed
          completed'
        · cases completed
        · cases completed
        · cases completed'
        · obtain ⟨world, outcome, ran, ended⟩ := (ends strict rfl).mp completed
          obtain ⟨world', outcome', ran', ended'⟩ := (ends lenient rfl).mp completed'
          obtain ⟨rfl, rfl⟩ := Prod.mk.inj ended
          obtain ⟨rfl, rfl⟩ := Prod.mk.inj ended'
          rcases compared fuel with same | ⟨last, error, -, ⟨enough, cut⟩, onward⟩
          · cases Task.eq_of_run (same.symm.trans ran) ran'
            exact List.prefix_rfl
          · cases Task.eq_of_run ran (cut 0)
            exact (onward fuel' _ _ ran').events
      · rintro fuel (- | polls) verdict reached completed
        · cases completed
        · obtain ⟨world, outcome, ran, -⟩ := (ends lenient rfl).mp completed
          rcases compared fuel with same | ⟨last, error, -, ⟨enough, cut⟩, -⟩
          · exact ⟨fuel, _, _, (ends strict rfl).mpr ⟨world, outcome, same.trans ran, rfl⟩⟩
          · exact ⟨0 + enough, _, _, (ends strict rfl).mpr ⟨last, _, cut 0, rfl⟩⟩

/-- The script `print(true); fn() { fn() {}() }()`. -/
def nestedClosures : List Node :=
  [.of (.call (.of (.identifier "print")) [.of (.bool true)]),
    .of (.call (.of (.function [] [.of (.call (.of (.function [] [])) [])])) [])]

/-- A limit of two is enough for two closures, one of which calls the other; one is not. -/
theorem complete_withDepthLimit_closures :
    let interpreter (limit : Nat) :=
      create ({ Options.silent 0 0 with reportsOutput := true }.withDepthLimit limit) Host.none
        [] [] []
    let completed (limit : Nat) :=
      complete 60 1 (interpreter limit) ((interpreter limit).startAtOnce nestedClosures)
    (∃ reached, completed 0 = some (.ok (some .null), reached)) ∧
      ∃ verdict reached verdict' reached',
        completed 1 = some (verdict, reached) ∧ IsTooDeep verdict ∧
        completed 2 = some (verdict', reached') ∧ ¬ IsTooDeep verdict' ∧
        reached.world.events.size = 1 ∧
        reached.world.events.toList <+: reached'.world.events.toList := by
  intro interpreter completed
  have bounded (limit other : Nat) (stricter : Options.IsStricter limit other) :=
    complete_withDepthLimit { Options.silent 0 0 with reportsOutput := true } Host.none [] []
      nestedClosures stricter
  have shallow : ∃ verdict reached, completed 1 = some (verdict, reached) ∧ IsTooDeep verdict ∧
      reached.world.events.size = 1 := ⟨_, _, rfl, ⟨_, rfl, 1, rfl⟩, rfl⟩
  have deep : ∃ reached, completed 2 = some (.ok (some .null), reached) := ⟨_, rfl⟩
  obtain ⟨verdict, reached, ended, tooDeep, told⟩ := shallow
  obtain ⟨reached', ended'⟩ := deep
  have fine : ¬ IsTooDeep (.ok (some .null)) := by
    rintro ⟨error, ⟨⟩, -⟩
  refine ⟨⟨_, (bounded 2 0 ⟨nofun, .inl rfl⟩).1 60 1 _ _ ended' fine⟩, ?_⟩
  exact ⟨verdict, reached, _, reached', ended, tooDeep, ended', fine, told,
    (bounded 1 2 ⟨nofun, .inr Nat.one_lt_two⟩).2.1 60 1 _ _ 60 1 _ _ ended ended'⟩

end Interpreter

end TreeScript
