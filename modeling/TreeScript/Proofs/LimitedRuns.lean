import TreeScript.Proofs.Fresh
import TreeScript.Proofs.Parity
import TreeScript.Proofs.Record
import TreeScript.Proofs.Steps

/-!
# Runs under a limit of steps

A limit of steps takes nothing but the end away from a run.  Two interpreters
that differ only in the limit take the same steps for as long as the limit is
kept, since only the reply to a tick depends on it.  A run that stays within
the limit is therefore the same with it and without it.

The first tick beyond the limit is refused.  Its error is caught nowhere, so
all that is left is to take down the stack, which changes nothing in the world;
and the host has heard a prefix of what it would have heard without the limit,
because an action never takes an event back.
-/

namespace TreeScript

/-- The same options under another limit of steps. -/
def Options.withStepLimit (options : Options) (limit : Nat) : Options :=
  { options with stepLimit := limit }

variable {options : Options} {host : Host}

/-! ## What depends on the limit -/

/-- The process of a goal does not depend on the limit; only the world knows it. -/
theorem Evaluation.ofGoal_withStepLimit (options : Options) (limit : Nat) (host : Host)
    (goal : Goal) :
    ofGoal (options.withStepLimit limit) host goal = ofGoal options host goal := by
  cases goal <;> rfl

namespace World

theorem editRelation_withLimits (options : Options) (steps depth : Nat) :
    EditRelation { options with stepLimit := steps, depthLimit := depth } options Eq where
  store := congrArg World.store
  change := by
    rintro world _ change keeps rfl
    rfl
  log := by
    rintro world _ name scope bound value - rfl
    rfl

/-- No action but a tick depends on the limits. -/
theorem perform_withLimits (options : Options) (steps depth : Nat) (world : World)
    (action : Action)
    (noTick : action ≠ .tick) :
    world.perform { options with stepLimit := steps, depthLimit := depth } action =
      world.perform options action := by
  have relation := editRelation_withLimits options steps depth
  have edited {α : Type} {edit edit' : Edit α} (agree : Edit.Agree Eq edit edit') :
      edit.run.run world = edit'.run.run world :=
    Prod.ext (agree world world rfl).1 (agree world world rfl).2
  cases action with
  | tick => exact (noTick rfl).elim
  | readName scope name => exact edited (Edit.agree_readName relation scope name)
  | define scope isMutable pattern value =>
      exact edited (Edit.agree_define relation scope isMutable pattern value)
  | decorate scope target value attributes =>
      exact edited (Edit.agree_decorate relation scope target value attributes)
  | read location => exact edited (Edit.agree_read relation location)
  | write location value => exact edited (Edit.agree_write relation location value)
  | _ => rfl

/-- A tick that is within the limit is the same without it. -/
theorem perform_tick_withStepLimit {limit : Nat} (unlimited : options.stepLimit = 0)
    {world : World}
    (within : world.steps < limit) :
    world.perform (options.withStepLimit limit) .tick = world.perform options .tick := by
  have accepted : (limit == 0 || decide (world.steps + 1 ≤ limit)) = true := by
    simp [Nat.succ_le_of_lt within]
  have always :
      (options.stepLimit == 0 || decide (world.steps + 1 ≤ options.stepLimit)) = true := by
    simp [unlimited]
  refine Prod.ext ?_ rfl
  exact accepted.trans always.symm

/-- A tick beyond the limit is refused. -/
theorem perform_tick_refused {limit : Nat} (limited : 0 < limit) {world : World}
    (used : limit ≤ world.steps) :
    (world.perform (options.withStepLimit limit) .tick).1 = false := by
  show (limit == 0 || decide (world.steps + 1 ≤ limit)) = false
  have positive : (limit == 0) = false := beq_eq_false_iff_ne.mpr (Nat.pos_iff_ne_zero.mp limited)
  have beyond : decide (world.steps + 1 ≤ limit) = false :=
    decide_eq_false (Nat.not_le_of_lt (Nat.lt_succ_of_le used))
  rw [positive, beyond, Bool.or_self]

end World

namespace Task

/-! ## Tasks under a limit -/

/-- Only a tick beyond the limit makes a difference to a step. -/
theorem step_withStepLimit (host : Host) {limit : Nat} (unlimited : options.stepLimit = 0)
    {world : World} {task : Task}
    (kept : world.steps < limit ∨ ∀ next, task.process ≠ .act .tick next) :
    task.step (options.withStepLimit limit) host world = task.step options host world := by
  rcases task with ⟨process, stack⟩
  cases process with
  | done turn =>
      cases turn with
      | answer outcome => cases stack <;> rfl
      | again goal =>
          rw [step_again, step_again, Evaluation.ofGoal_withStepLimit]
  | act action next =>
      have same : world.perform (options.withStepLimit limit) action =
          world.perform options action := by
        by_cases isTick : action = .tick
        · subst isTick
          rcases kept with within | noTick
          · exact World.perform_tick_withStepLimit unlimited within
          · exact (noTick next rfl).elim
        · exact World.perform_withLimits options limit options.depthLimit world action isTick
      rw [step_act, step_act, same]
  | wait reason next =>
      cases found : barrier? stack with
      | none => rw [step_wait found, step_wait found]
      | some barrier => rw [step_wait_barrier found, step_wait_barrier found]
  | call goal next =>
      rw [step_call, step_call, Evaluation.ofGoal_withStepLimit]
  | drive goal next =>
      have driven (options : Options) : step options host world ⟨.drive goal next, stack⟩ =
          .running world ⟨Evaluation.ofGoal options host goal, ⟨next, true⟩ :: stack⟩ := rfl
      rw [driven, driven, Evaluation.ofGoal_withStepLimit]

/-- A lawful synchronous task does not come to wait. -/
theorem Lawful.ne_waiting {givesUp : Cause → Prop} {world between : World}
    {task after : Task} {goals : List Goal} {fuel : Nat} {reason : Wait}
    (lawful : Lawful options givesUp .synchronous world task goals) :
    task.run options host fuel world ≠ some (.waiting between reason after) := by
  intro ran
  have comes := exists_last_of_run
    (fun world task => ∃ goals, task.Lawful options givesUp .synchronous world goals)
    ran ⟨goals, lawful⟩ fun ⟨_, lawful⟩ running => ⟨_, lawful.step running⟩
  rcases comes with ⟨world, last, ⟨goals, lawful⟩, waiting⟩
  cases (lawful.wait waiting).1

/-- A move takes at most one frame off the stack. -/
theorem Move.length_le {givesUp : Cause → Prop} {world next : World} {goals : List Goal}
    {task after : Task}
    (move : Move options host givesUp world goals task next after) :
    task.stack.length ≤ after.stack.length + 1 := by
  cases move <;> simp <;> omega

/-- A lawful task does not end before it has taken down its stack. -/
theorem Lawful.length_lt {givesUp : Cause → Prop} {mode : Mode} {fuel : Nat}
    {world reached : World} {task : Task} {goals : List Goal} {outcome : Outcome}
    (lawful : Lawful options givesUp mode world task goals)
    (ran : task.run options host fuel world = some (.finished reached outcome)) :
    task.stack.length < fuel := by
  induction fuel generalizing world task goals with
  | zero => cases ran
  | succ fuel inductive_step =>
      cases step : task.step options host world with
      | running next after =>
          rw [run_of_running step] at ran
          have rest := inductive_step (lawful.step step) ran
          have taken := (lawful.move step).length_le
          omega
      | waiting next reason after =>
          rw [run_of_waiting step] at ran
          cases ran
      | finished last outcome =>
          obtain ⟨-, rfl⟩ := eq_of_finished step
          exact Nat.succ_pos fuel

/-- How a run under a limit ends, when the one without it ends in a world with an outcome. -/
def EndsUnder (limit : Nat) (reached : World) (outcome : Outcome) (progress : Progress) : Prop :=
  (reached.steps ≤ limit ∧ progress = .finished reached outcome) ∨
    (limit < reached.steps ∧ ∃ (last : World) (error : Error), error.cause.IsStepLimit ∧
      last.steps = limit + 1 ∧ last.Onward reached ∧
      progress = .finished last (.error (.error error)))

/-- A refused tick ends a lawful task with the error of a step beyond the limit. -/
theorem run_of_refused (host : Host) {mode : Mode} {limit : Nat} {world : World}
    {goals : List Goal} {next : Bool → Process Turn} {stack : List Frame}
    (lawful : Lawful (options.withStepLimit limit) Cause.IsStepLimit mode world
      ⟨.act .tick next, stack⟩ goals)
    (limited : 0 < limit)
    (used : limit ≤ world.steps)
    {fuel : Nat}
    (enough : stack.length < fuel) :
    ∃ error : Error, error.cause.IsStepLimit ∧
      run (options.withStepLimit limit) host (fuel + 1) world ⟨.act .tick next, stack⟩ =
        some (.finished (world.perform options .tick).2 (.error (.error error))) := by
  have running : step (options.withStepLimit limit) host world ⟨.act .tick next, stack⟩ = _ :=
    step_act world .tick next stack
  have refused : (world.perform (options.withStepLimit limit) .tick).1 = false :=
    World.perform_tick_refused limited used
  cases lawful.move running with
  | act plain => exact plain.elim
  | tick stops =>
      rcases stops rfl with ⟨error, given, ends⟩
      obtain ⟨final, finalGiven, ran⟩ :=
        lawful.frames.run_of_error host error given (world.perform options .tick).2
      refine ⟨final, finalGiven, ?_⟩
      obtain ⟨more, rfl⟩ := Nat.exists_eq_add_of_lt enough
      rw [run_of_running running, refused, ends]
      have order : stack.length + more + 1 = more + stack.length + 1 := by omega
      rw [order]
      exact ran more

/--
Running a task with a limit and without.  The induction is on the fuel: up to
the first refusal the steps are the same, and after it nothing but the stack is
left, for which the fuel of the other run suffices.
-/
theorem run_withStepLimit (unlimited : options.stepLimit = 0) {mode : Mode} {limit : Nat}
    (limited : 0 < limit) {fuel : Nat}
    {world reached : World} {task : Task} {goals : List Goal} {outcome : Outcome}
    (lawful : Lawful options Cause.IsStepLimit mode world task goals)
    (lawfulUnder : Lawful (options.withStepLimit limit) Cause.IsStepLimit mode world task goals)
    (within : world.steps ≤ limit)
    (ran : task.run options host fuel world = some (.finished reached outcome)) :
    ∃ progress, task.run (options.withStepLimit limit) host fuel world = some progress ∧
      EndsUnder limit reached outcome progress := by
  induction fuel generalizing world task goals with
  | zero => cases ran
  | succ fuel inductive_step =>
      by_cases kept : world.steps < limit ∨ ∀ next, task.process ≠ .act .tick next
      · have same := step_withStepLimit host unlimited kept
        cases step : task.step options host world with
        | running next after =>
            rw [run_of_running step] at ran
            rw [run_of_running (same.trans step)]
            refine inductive_step (lawful.step step) (lawfulUnder.step (same.trans step)) ?_ ran
            -- A step that is no tick takes none, and a tick was still within the limit.
            cases lawful.move step with
            | act plain =>
                rw [(World.perform_keeps options _ plain.hostless).1 plain.ne_tick]
                exact within
            | tick => exact kept.resolve_right fun noTick => noTick _ rfl
            | answer | again | call | drive => exact within
        | waiting next reason after =>
            rw [run_of_waiting step] at ran
            cases ran
        | finished last final =>
            rw [run_of_finished step] at ran
            cases ran
            obtain ⟨rfl, -⟩ := eq_of_finished step
            exact ⟨_, run_of_finished (same.trans step) fuel, .inl ⟨within, rfl⟩⟩
      · obtain ⟨used, noTick⟩ := not_or.mp kept
        obtain ⟨next, isTick⟩ := Classical.not_forall.mp noTick
        rcases task with ⟨process, stack⟩
        obtain rfl : process = .act .tick next := Classical.not_not.mp isTick
        have running : step options host world ⟨.act .tick next, stack⟩ = _ :=
          step_act world .tick next stack
        rw [run_of_running running] at ran
        have enough := (lawful.step running).length_lt ran
        have onward := onward_run ran
        obtain ⟨error, given, refused⟩ :=
          run_of_refused host lawfulUnder limited (Nat.le_of_not_lt used) enough
        have steps : (world.perform options .tick).2.steps = limit + 1 :=
          congrArg (· + 1) (Nat.le_antisymm within (Nat.le_of_not_lt used))
        have beyond : limit < reached.steps :=
          Nat.lt_of_lt_of_le (steps ▸ Nat.lt_succ_self limit) onward.steps
        exact ⟨_, refused, .inr ⟨beyond, _, error, given, steps, onward, rfl⟩⟩

end Task

/-! ## Runs under a limit -/

namespace Interpreter

/-- A synchronous script without functions of the host ends in the first poll, or not at all. -/
theorem complete_startAtOnce_iff (interpreter : Interpreter)
    (hostless : interpreter.world.store.Hostless) (statement : Node) (rest : List Node)
    (fuel polls : Nat) (result : Verdict × Interpreter) :
    complete fuel (polls + 1) interpreter (interpreter.startAtOnce (statement :: rest)) =
        some result ↔
      ∃ world outcome,
        Task.run interpreter.options interpreter.host fuel interpreter.world
            (Task.ofScript interpreter.root (statement :: rest) .synchronous) =
          some (.finished world outcome) ∧
        result = (outcome.expectValue.map some, { interpreter with world := world }) := by
  have lawful : (Task.ofScript interpreter.root (statement :: rest) .synchronous).Lawful
      interpreter.options Cause.IsStepLimit .synchronous interpreter.world [] :=
    Task.lawful_ofScript hostless interpreter.root (statement :: rest)
  exact complete_start_iff interpreter lawful.ne_waiting polls result

/--
The limit of steps is conservative.  When a synchronous script ends in a new
interpreter without functions of the host and without a limit, it ends under
every limit: in just the same way if it has taken no more steps than that, and
otherwise with the error of a step beyond the limit, after one step more than
the limit and a prefix of the events.
-/
theorem complete_withStepLimit (options : Options) (host : Host)
    (constants : List (String × Datum Value)) (inputs : List String) (script : List Node)
    (limit : Nat)
    (limited : 0 < limit)
    {fuel polls : Nat} {verdict : Verdict} {reached : Interpreter}
    (completed :
      let unlimited := create (options.withStepLimit 0) host [] constants inputs
      complete fuel polls unlimited (unlimited.startAtOnce script) = some (verdict, reached)) :
    let interpreter := create (options.withStepLimit limit) host [] constants inputs
    (reached.world.steps ≤ limit →
      complete fuel polls interpreter (interpreter.startAtOnce script) =
        some (verdict, { reached with options := interpreter.options })) ∧
      (limit < reached.world.steps →
        ∃ (error : Error) (world : World),
          complete fuel polls interpreter (interpreter.startAtOnce script) =
            some (.error error, { interpreter with world := world }) ∧
          error.cause = .stepLimit ∧
          world.steps = limit + 1 ∧
          world.events.toList <+: reached.world.events.toList) := by
  intro interpreter
  have hostless := hostless_create options host constants inputs
  cases polls with
  | zero => cases completed
  | succ polls =>
      cases script with
      | nil =>
          cases completed
          exact ⟨fun _ => rfl, fun beyond => (Nat.not_lt_zero limit beyond).elim⟩
      | cons statement rest =>
          have lawful (limit : Nat) :
              (Task.ofScript interpreter.root (statement :: rest) .synchronous).Lawful
                (options.withStepLimit limit) Cause.IsStepLimit .synchronous interpreter.world [] :=
            Task.lawful_ofScript hostless interpreter.root (statement :: rest)
          obtain ⟨world, outcome, ran, ended⟩ :=
            (complete_startAtOnce_iff (create (options.withStepLimit 0) host [] constants inputs)
              hostless statement rest fuel polls _).mp completed
          obtain ⟨rfl, rfl⟩ := Prod.mk.inj ended
          have completes {world : World} {outcome : Outcome}
              (ran : (Task.ofScript interpreter.root (statement :: rest) .synchronous).run
                (options.withStepLimit limit) host fuel interpreter.world =
                  some (.finished world outcome)) :=
            (complete_startAtOnce_iff interpreter hostless statement rest fuel polls _).mpr
              ⟨world, outcome, ran, rfl⟩
          obtain ⟨progress, ranUnder, within | beyond⟩ :=
            Task.run_withStepLimit rfl limited (lawful 0) (lawful limit) (Nat.zero_le limit) ran
          · obtain ⟨few, rfl⟩ := within
            exact ⟨fun _ => completes ranUnder, fun many => (Nat.not_lt_of_le few many).elim⟩
          · obtain ⟨many, last, error, given, steps, onward, rfl⟩ := beyond
            refine ⟨fun few => (Nat.not_lt_of_le few many).elim, fun _ => ?_⟩
            exact ⟨error, last, completes ranUnder, given, steps, onward.events⟩

/-- Two statements end under a limit of two steps as they do without one, but not under one. -/
theorem complete_withStepLimit_two :
    let interpreter (limit : Nat) := create (.silent limit 0) Host.none [] [] []
    let script : List Node := [.of .null, .of (.bool true)]
    (∃ reached, complete 60 1 (interpreter 2) ((interpreter 2).startAtOnce script) =
        some (.ok (some (.bool true)), reached)) ∧
      ∃ error world, complete 60 1 (interpreter 1) ((interpreter 1).startAtOnce script) =
          some (.error error, { interpreter 1 with world := world }) ∧
        error.cause = .stepLimit ∧ world.steps = 2 := by
  intro interpreter script
  have ended : ∃ reached, complete 60 1 (interpreter 0) ((interpreter 0).startAtOnce script) =
      some (.ok (some (.bool true)), reached) ∧ reached.world.steps = 2 := ⟨_, rfl, rfl⟩
  obtain ⟨reached, completed, steps⟩ := ended
  have bounded (limit : Nat) (limited : 0 < limit) :=
    complete_withStepLimit (.silent 0 0) Host.none [] [] script limit limited completed
  refine ⟨⟨_, (bounded 2 Nat.zero_lt_two).1 (Nat.le_of_eq steps)⟩, ?_⟩
  have beyond : 1 < reached.world.steps := steps ▸ Nat.one_lt_two
  obtain ⟨error, world, ends, given, taken, -⟩ := (bounded 1 Nat.zero_lt_one).2 beyond
  exact ⟨error, world, ends, given, taken⟩

end Interpreter

end TreeScript
