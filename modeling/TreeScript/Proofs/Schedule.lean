import TreeScript.Proofs.Entry
import TreeScript.Proofs.Fresh
import TreeScript.Proofs.Inertness
import TreeScript.Proofs.PausedSessions
import TreeScript.Proofs.WholeRemainders

/-!
# The schedule of yields

When the host is told of yields, the record of a run says at which steps it
yielded.  An interpreter that is used by one script alone yields before a step
if and only if the step is due, whatever the step belongs to and however the
script ends (`Irq.schedule`, `Interpreter.yields_of_complete`).

The gate looks at the number of steps, and the step is taken behind it: between
the two a task is ahead of the schedule by the yield before the next step.
`Task.Punctual` says where that is; every step of a task keeps to it
(`Task.Punctual.step`), and so does whatever happens while the task is
suspended, as long as it leaves the count and the record of yields alone.
-/

namespace TreeScript

/-! ## Recorded yields -/

/-- The number of steps that had been taken when the host was told of a yield. -/
def Event.yieldedAt? {α : Type} : Event α → Option Nat
  | .yielded steps => some steps
  | _ => none

namespace World

/-- The numbers of steps that had been taken at the yields on record, the first yield first. -/
def yields (world : World) : List Nat :=
  world.events.toList.filterMap Event.yieldedAt?

variable {world : World}

theorem yields_record_yielded (world : World) (steps : Nat) :
    (world.record (.yielded steps)).yields = world.yields ++ [steps] := by
  simp [yields, record, Event.yieldedAt?]

theorem yields_record {event : Event Snapshot} (silent : event.isYield = false) :
    (world.record event).yields = world.yields := by
  cases event with
  | yielded steps => cases silent
  | _ => simp [yields, record, Event.yieldedAt?]

theorem yields_log (options : Options) (name : String) (scope bound : Option String)
    (value : Option Value) :
    (world.log options name scope bound value).yields = world.yields := by
  unfold log
  split
  · exact yields_record rfl
  · rfl

/-- Quiet actions and ticks are no yields. -/
theorem actionRelation_yields (options : Options) (before : World) :
    ActionRelation options options fun world other =>
      world = other ∧ world.yields = before.yields where
  store related := congrArg World.store related.1
  change := by
    rintro world _ change - ⟨rfl, same⟩
    exact ⟨rfl, same⟩
  log := by
    rintro world _ name scope bound value - ⟨rfl, same⟩
    exact ⟨rfl, (yields_log options name scope bound _).trans same⟩
  tell := by
    rintro world _ name scope value ⟨rfl, same⟩
    exact ⟨rfl, (yields_log options name scope none value).trans same⟩
  isStopped related := congrArg (fun world => world.lifecycle.isStopped) related.1
  tick := by
    rintro world _ ⟨rfl, same⟩
    exact ⟨rfl, rfl, same⟩
  newFunction := by
    rintro world _ name body - ⟨rfl, same⟩
    exact ⟨rfl, same⟩
  nameFunction := by
    rintro world _ function name ⟨rfl, same⟩
    exact ⟨rfl, same⟩
  record := by
    rintro world _ event silent ⟨rfl, same⟩
    exact ⟨rfl, (yields_record silent).trans same⟩
  inputs related := congrArg World.inputs related.1
  withInputs := by
    rintro world _ inputs ⟨rfl, same⟩
    exact ⟨rfl, same⟩
  reportsOutput := rfl
  detail := rfl
  hasInput := rfl

/-- Handlers that fire are told of, but they are no yields. -/
theorem yields_transition (world : World) (transition : Transition) :
    (world.transition transition).yields = world.yields := by
  simp only [yields, World.transition, Array.toList_append, List.filterMap_append,
    List.filterMap_map]
  exact List.append_right_eq_self.mpr (List.filterMap_eq_nil_iff.mpr fun _ _ => rfl)

/-- Handing an error to the host is no yield either. -/
theorem yields_deliver (world : World) (options : Options) (error : Error) :
    (world.deliver options error).2.yields = world.yields := by
  unfold deliver
  split
  · split
    · split
      · rfl
      · exact (yields_record rfl).trans (world.yields_transition .abort)
    · exact yields_record rfl
  · rfl

theorem yields_perform (options : Options) (world : World) (action : Action)
    (quiet : action.IsQuiet ∨ action = .tick) :
    (world.perform options action).2.yields = world.yields :=
  ((actionRelation_yields options world).perform ⟨rfl, rfl⟩ action quiet).2.2

end World

/-! ## The schedule -/

namespace Irq

/-- The steps of the first so many that a yield is due before. -/
def schedule (irq : Irq) (steps : Nat) : List Nat :=
  (List.range steps).filter irq.isDue

variable (irq : Irq) {steps : Nat}

theorem schedule_zero : irq.schedule 0 = [] := rfl

theorem schedule_succ_of_isDue (due : irq.isDue steps = true) :
    irq.schedule (steps + 1) = irq.schedule steps ++ [steps] := by
  simp [schedule, List.range_succ, due]

theorem schedule_succ_of_not_isDue (due : irq.isDue steps = false) :
    irq.schedule (steps + 1) = irq.schedule steps := by
  simp [schedule, List.range_succ, due]

/-- Of the steps of a window as long as the rate one is the last one of its round. -/
theorem mod_eq_pred_iff {rate first steps : Nat} (least : first ≤ steps)
    (most : steps < first + rate) :
    steps % rate = rate - 1 ↔ steps = rate * (first / rate) + (rate - 1) := by
  have positive : 0 < rate := by omega
  have divided := Nat.div_add_mod steps rate
  have divided' := Nat.div_add_mod first rate
  have short := Nat.mod_lt first positive
  constructor
  · intro last
    have upper : rate * (steps / rate) < rate * (first / rate + 1) := by
      rw [Nat.mul_succ]
      omega
    have lower : first / rate ≤ steps / rate := Nat.div_le_div_right least
    have same : steps / rate = first / rate :=
      Nat.le_antisymm (Nat.le_of_lt_succ (Nat.lt_of_mul_lt_mul_left upper)) lower
    rw [← divided, same, last]
  · rintro rfl
    rw [Nat.mul_add_mod, Nat.mod_eq_of_lt (Nat.sub_one_lt positive.ne')]

end Irq

/--
A world that has yielded before the last one of every so many steps: the yields
lie at those steps, in their order, one for each, and every window of so many
steps has exactly one of them.
-/
structure World.YieldsEvery (rate : Nat) (world : World) : Prop where
  yields : world.yields =
    (List.range world.steps).filter fun steps => steps % rate = rate - 1
  window : ∀ first, first + rate ≤ world.steps →
    (world.yields.countP fun steps => first ≤ steps ∧ steps < first + rate) = 1

/-- A world that has kept to the schedule of a whole rate yields every so many steps. -/
theorem World.yieldsEvery_of_schedule {world : World} {irq : Irq} {rate : Nat}
    (isRate : irq.rate = Float.ofNat rate) (positive : 0 < rate) (bounded : rate < 2 ^ 53)
    (few : world.steps < 2 ^ 53) (onTime : world.yields = irq.schedule world.steps) :
    world.YieldsEvery rate := by
  have yields : world.yields =
      (List.range world.steps).filter fun steps => steps % rate = rate - 1 := by
    rw [onTime, Irq.schedule]
    refine List.filter_congr fun steps mem => Bool.eq_iff_iff.mpr ?_
    rw [decide_eq_true_iff]
    exact Irq.isDue_iff isRate positive bounded (Nat.lt_trans (List.mem_range.mp mem) few)
  refine ⟨yields, fun first within => ?_⟩
  have short := Nat.mod_lt first positive
  have divided := Nat.div_add_mod first rate
  have found : ((List.range world.steps).filter fun steps => steps % rate = rate - 1).filter
      (fun steps => first ≤ steps ∧ steps < first + rate) =
        [rate * (first / rate) + (rate - 1)] := by
    apply List.perm_singleton.mp
    apply (List.perm_ext_iff_of_nodup ((List.nodup_range.filter _).filter _)
      (List.nodup_singleton _)).mpr
    intro steps
    simp only [List.mem_filter, List.mem_range, decide_eq_true_iff, List.mem_singleton]
    constructor
    · rintro ⟨⟨-, last⟩, least, most⟩
      exact (Irq.mod_eq_pred_iff least most).mp last
    · intro same
      have least : first ≤ steps := by omega
      have most : steps < first + rate := by omega
      exact ⟨⟨by omega, (Irq.mod_eq_pred_iff least most).mpr same⟩, least, most⟩
  rw [yields, List.countP_eq_length_filter, found, List.length_singleton]

/-! ## Punctual tasks -/

namespace Evaluation

/-- The rests of the gate, with the number of steps before which a yield is no longer ahead. -/
inductive RestOfGate (irq : Irq) (steps : Nat) : Nat → Rule Unit → Prop where
  | look : RestOfGate irq steps steps (gate irq)
  | halt {pause : Nat} :
      RestOfGate irq steps steps (do Rule.wait (.resumed pause); yieldWhenDue irq)
  | behindPause : RestOfGate irq steps steps (yieldWhenDue irq)
  | yields
      (due : irq.isDue steps = true) :
      RestOfGate irq steps steps (yieldNow irq.sleep)
  | sleeps : RestOfGate irq steps (steps + 1) (Rule.wait .nextPoll)
  | passed : RestOfGate irq steps (steps + 1) (pure ())

theorem uses_inside (node : Node) (scope : Scope) {context : Context}
    (asynchronous : context.mode = .asynchronous) (within : Bool) :
    (inside node scope context within).Uses .withoutSteps (Turn.Minds .withoutSteps) := by
  have plain : Manner.withoutSteps.Plain context.mode :=
    asynchronous ▸ (Manner.serves_withoutSteps Host.none).toPlain
  apply uses_process
  apply uses_answering
  refine Rule.Uses.mapError ?_ _
  cases within with
  | true => exact minds_construct plain node.start node.shape
  | false => exact Rule.uses_fail _

end Evaluation

section Punctual

variable (irq : Irq) (steps : Nat)

/-- A process after some steps, with the number of steps before which no yield is ahead of it. -/
inductive Process.Punctual : Nat → Process Turn → Prop where
  | outside {process : Process Turn}
      (uses : process.Uses .withoutSteps (Turn.Minds .withoutSteps)) :
      Punctual steps process
  | arriving {process : Process Turn} {options : Options} {host : Host} {node : Node}
      {scope : Scope} {context : Context}
      (stands : process = Evaluation.ofGoal options host (.evaluate node scope context))
      (same : options.irq = irq)
      (asynchronous : context.mode = .asynchronous) :
      Punctual steps process
  | entering {process : Process Turn} {node : Node} {scope : Scope} {context : Context}
      {rest : Rule Unit} {behind : Nat}
      (stands : process = Evaluation.entering node scope context rest)
      (passage : Evaluation.RestOfGate irq steps behind rest)
      (asynchronous : context.mode = .asynchronous) :
      Punctual behind process

/-- A task that has yielded as it was due, and before no other step. -/
structure Task.Punctual (world : World) (task : Task) : Prop where
  hostless : world.store.Hostless
  process : ∃ behind, task.process.Punctual irq world.steps behind ∧
    world.yields = irq.schedule behind
  frames : ∀ frame ∈ task.stack, frame.isBarrier = false ∧
    ∀ outcome, (frame.resume outcome).Uses .withoutSteps (Turn.Minds .withoutSteps)

end Punctual

/-- A change of the world that leaves the steps and the yields as they are. -/
structure World.KeepsTime (world next : World) : Prop where
  steps : next.steps = world.steps
  yields : next.yields = world.yields
  hostless : world.store.Hostless → next.store.Hostless

namespace World

theorem KeepsTime.refl (world : World) : world.KeepsTime world :=
  ⟨rfl, rfl, id⟩

/-- The host may pause, resume and stop evaluation while a task is suspended. -/
theorem keepsTime_transition (world : World) (transition : Transition) :
    world.KeepsTime (world.transition transition) :=
  ⟨rfl, world.yields_transition transition, id⟩

end World

namespace Task

variable {irq : Irq} {options : Options} {host : Host} {world next : World} {task after : Task}
  {suspends : Bool}

theorem barrier?_eq_none {stack : List Frame} (open_ : ∀ frame ∈ stack, frame.isBarrier = false) :
    barrier? stack = none := by
  induction stack with
  | nil => rfl
  | cons frame outer inductive_step =>
      obtain ⟨isOpen, outerOpen⟩ := List.forall_mem_cons.mp open_
      rw [barrier?, isOpen]
      exact inductive_step outerOpen

/-- The process of an asynchronous goal has yielded as often as it was when it begins. -/
theorem punctual_ofGoal (options : Options) (host : Host) {goal : Goal}
    (runs : goal.RunsIn .asynchronous) (steps : Nat) :
    (Evaluation.ofGoal options host goal).Punctual options.irq steps steps := by
  by_cases isNode : goal.IsNode
  · cases goal with
    | evaluate node scope context => exact .arriving rfl rfl runs
    | _ => exact isNode.elim
  · exact .outside
      (Evaluation.uses_ofGoal_of_not_isNode (Manner.serves_withoutSteps host) runs isNode)

namespace Punctual

section Steps

variable {stack : List Frame}
variable (frames : ∀ frame ∈ stack, frame.isBarrier = false ∧
  ∀ outcome, (frame.resume outcome).Uses .withoutSteps (Turn.Minds .withoutSteps))
variable (hostless : world.store.Hostless)

include frames hostless

/-- Away from the gate nothing counts as a step or as a yield. -/
theorem step_of_uses {process : Process Turn}
    (uses : process.Uses .withoutSteps (Turn.Minds .withoutSteps))
    (onTime : world.yields = options.irq.schedule world.steps)
    (running : step options host world ⟨process, stack⟩ = .running next after) :
    after.Punctual options.irq next := by
  cases uses with
  | @done turn given =>
      cases turn with
      | answer outcome =>
          cases stack with
          | nil => cases running
          | cons frame outer =>
              cases running
              obtain ⟨⟨-, resumes⟩, rest⟩ := List.forall_mem_cons.mp frames
              exact ⟨hostless, ⟨_, .outside (resumes outcome), onTime⟩, rest⟩
      | again goal =>
          cases running
          exact ⟨hostless, ⟨_, punctual_ofGoal options host given _, onTime⟩, frames⟩
  | @act action _ quiet rest =>
      cases running
      have steps := world.steps_perform options action (Action.IsQuiet.plain quiet).ne_tick
      have yields := world.yields_perform options action (.inl quiet)
      have told : (world.perform options action).2.yields =
          options.irq.schedule (world.perform options action).2.steps := by
        rw [yields, steps, onTime]
      have goesOn := rest _ (world.expected_perform options action hostless)
      exact ⟨world.hostless_perform options action (Action.IsQuiet.plain quiet).hostless hostless,
        ⟨_, .outside goesOn, told⟩, frames⟩
  | wait waits _ => exact waits.elim
  | call runs rest =>
      cases running
      refine ⟨hostless, ⟨_, punctual_ofGoal options host runs _, onTime⟩, ?_⟩
      exact List.forall_mem_cons.mpr ⟨⟨rfl, rest⟩, frames⟩
  | drive drives _ => exact drives.elim

/-- A task comes to the gate without a yield. -/
theorem step_of_arriving {other : Options} {guest : Host} {node : Node} {scope : Scope}
    {context : Context}
    (same : other.irq = irq)
    (asynchronous : context.mode = .asynchronous)
    (onTime : world.yields = irq.schedule world.steps)
    (running : step options host world
      ⟨Evaluation.ofGoal other guest (.evaluate node scope context), stack⟩ =
        .running next after) :
    after.Punctual irq next := by
  rw [Evaluation.ofGoal_evaluate_eq, asynchronous] at running
  cases running
  subst same
  cases world.lifecycle.isStopped with
  | true => exact ⟨hostless, ⟨_, .outside (.done trivial), onTime⟩, frames⟩
  | false => exact ⟨hostless, ⟨_, .entering rfl .look asynchronous, onTime⟩, frames⟩

/-- At the gate a task yields if that is due, and then takes the step. -/
theorem step_of_entering {node : Node} {scope : Scope} {context : Context} {rest : Rule Unit}
    {behind : Nat}
    (custom : irq.sleep = .custom suspends)
    (passage : Evaluation.RestOfGate irq world.steps behind rest)
    (asynchronous : context.mode = .asynchronous)
    (onTime : world.yields = irq.schedule behind)
    (running : step options host world ⟨Evaluation.entering node scope context rest, stack⟩ =
      .running next after) :
    after.Punctual irq next := by
  have noBarrier := barrier?_eq_none fun frame mem => (frames frame mem).1
  cases passage with
  | look =>
      rw [Evaluation.entering_gate] at running
      cases running
      refine ⟨hostless, ⟨_, .entering rfl ?_ asynchronous, onTime⟩, frames⟩
      split
      · exact .halt
      · exact .behindPause
  | behindPause =>
      rw [Evaluation.entering_yieldWhenDue] at running
      cases running
      cases due : irq.isDue world.steps with
      | true =>
          refine ⟨hostless, ⟨_, .entering rfl ?_ asynchronous, onTime⟩, frames⟩
          exact if_pos due ▸ .yields due
      | false =>
          rw [← irq.schedule_succ_of_not_isDue due] at onTime
          refine ⟨hostless, ⟨_, .entering rfl ?_ asynchronous, onTime⟩, frames⟩
          exact if_neg (ne_true_of_eq_false due) ▸ .passed
  | yields due =>
      rw [custom, Evaluation.entering_yieldNow_custom] at running
      cases running
      have told :
          (world.record (.yielded world.steps)).yields = irq.schedule (world.steps + 1) := by
        rw [World.yields_record_yielded, onTime, irq.schedule_succ_of_isDue due]
      refine ⟨hostless, ⟨_, .entering rfl ?_ asynchronous, told⟩, frames⟩
      split
      · exact .sleeps
      · exact .passed
  | halt =>
      cases running.symm.trans (step_wait noBarrier world _ _)
  | sleeps =>
      cases running.symm.trans (step_wait noBarrier world _ _)
  | passed =>
      rw [Evaluation.entering_pure] at running
      cases running
      have uses := Evaluation.uses_inside node scope asynchronous (world.perform options .tick).1
      exact ⟨hostless, ⟨_, .outside uses, onTime⟩, frames⟩

end Steps

/-- Every step of a punctual task leaves it punctual. -/
theorem step (punctual : task.Punctual options.irq world)
    (custom : options.irq.sleep = .custom suspends)
    (running : task.step options host world = .running next after) :
    after.Punctual options.irq next := by
  rcases task with ⟨process, stack⟩
  obtain ⟨hostless, ⟨behind, process, onTime⟩, frames⟩ := punctual
  cases process with
  | outside uses => exact step_of_uses frames hostless uses onTime running
  | arriving stands same asynchronous =>
      obtain rfl := stands
      exact step_of_arriving frames hostless same asynchronous onTime running
  | entering stands passage asynchronous =>
      obtain rfl := stands
      exact step_of_entering frames hostless custom passage asynchronous onTime running

/-- A punctual task that is suspended stays so, unless steps are taken meanwhile. -/
theorem resume {between : World} {reason : Wait} (punctual : task.Punctual irq world)
    (custom : irq.sleep = .custom suspends)
    (waiting : task.step options host world = .waiting between reason after)
    (kept : between.KeepsTime next) :
    after.Punctual irq next := by
  obtain ⟨rfl, rest, stack, rfl, rfl⟩ := eq_of_waiting waiting
  obtain ⟨hostless, ⟨behind, process, onTime⟩, frames⟩ := punctual
  refine ⟨kept.hostless hostless, ⟨behind, ?_, kept.yields.trans onTime⟩, frames⟩
  rw [kept.steps]
  cases process with
  | outside uses =>
      cases uses with
      | wait waits _ => exact waits.elim
  | arriving stands same asynchronous =>
      rw [Evaluation.ofGoal_evaluate_eq] at stands
      cases stands
  | entering stands passage asynchronous =>
      cases passage with
      | look =>
          rw [Evaluation.entering_gate] at stands
          cases stands
      | halt =>
          cases stands
          exact .entering rfl .behindPause asynchronous
      | behindPause => cases stands
      | yields =>
          rw [custom] at stands
          cases stands
      | sleeps =>
          cases stands
          exact .entering rfl .passed asynchronous
      | passed => cases stands

/-- A punctual task that has come to its end has no yield ahead of it, and none too many. -/
theorem yields_of_finished {outcome : Outcome} (punctual : task.Punctual irq world)
    (custom : irq.sleep = .custom suspends)
    (finished : task.step options host world = .finished next outcome) :
    next.yields = irq.schedule next.steps := by
  obtain ⟨rfl, rfl⟩ := eq_of_finished finished
  obtain ⟨-, ⟨behind, process, onTime⟩, -⟩ := punctual
  cases process with
  | outside => exact onTime
  | arriving stands =>
      rw [Evaluation.ofGoal_evaluate_eq] at stands
      cases stands
  | entering stands passage =>
      cases passage with
      | look =>
          rw [Evaluation.entering_gate] at stands
          cases stands
      | yields =>
          rw [custom] at stands
          cases stands
      | _ => cases stands

end Punctual

/-- Whatever happens while it is suspended, a punctual task stays so. -/
theorem Reached.punctual {start : World} {current : Task} {goals : List Goal}
    (reached : Reached options host World.KeepsTime start task world current goals)
    (custom : options.irq.sleep = .custom suspends)
    (punctual : task.Punctual options.irq start) :
    current.Punctual options.irq world := by
  induction reached with
  | start => exact punctual
  | step _ running inductive_step => exact inductive_step.step custom running
  | resume _ waiting kept inductive_step => exact inductive_step.resume custom waiting kept

/-- The end of a task is reached, and nothing happens while the task is suspended. -/
theorem Reached.exists_last {meanwhile : World → World → Prop} {start reached : World}
    {current : Task} {goals : List Goal} {outcome : Outcome}
    (before : Reached options host meanwhile start task world current goals)
    (same : ∀ world, meanwhile world world)
    (ends : current.Ends options host world reached outcome) :
    ∃ between last goals, Reached options host meanwhile start task between last goals ∧
      last.step options host between = .finished reached outcome := by
  induction ends generalizing goals with
  | finish finished => exact ⟨_, _, _, before, finished⟩
  | step running _ inductive_step => exact inductive_step (before.step running)
  | resume waiting _ _ inductive_step => exact inductive_step (before.resume waiting (same _))

/-- At its beginning a script has been punctual if no step has been taken, and no yield. -/
theorem punctual_ofScript {root : Scope} {script : List Node} (hostless : world.store.Hostless)
    (steps : world.steps = 0) (yields : world.yields = []) :
    (ofScript root script .asynchronous).Punctual irq world := by
  have plain := (Manner.serves_withoutSteps Host.none).toPlain
  have minds := Evaluation.minds_runScript plain root script
  have uses := Evaluation.uses_process (Evaluation.uses_answering minds)
  exact ⟨hostless, ⟨_, .outside uses, yields.trans (steps ▸ irq.schedule_zero.symm)⟩, nofun⟩

end Task

namespace Interpreter

theorem yields_conclude (options : Options) (delivers : Bool) (outcome : Outcome)
    (world : World) :
    (conclude options delivers outcome world).2.yields = world.yields :=
  conclude_keeps (world.yields_deliver options) delivers outcome

/--
A new interpreter that tells its host of yields, with a whole rate below 2 ^ 53,
yields before the last one of every so many steps of a script, as long as there
are fewer than 2 ^ 53: when the script is run to its end, and also when things
happen meanwhile that leave the count and the record of yields alone.
-/
theorem yieldsEvery_of_create (options : Options) (host : Host)
    (constants : List (String × Datum Value)) (inputs : List String) (script : List Node)
    {rate : Nat} {suspends : Bool} (isIrq : options.irq = ⟨Float.ofNat rate, .custom suspends⟩)
    (positive : 0 < rate) (bounded : rate < 2 ^ 53) :
    let interpreter := create options host [] constants inputs
    (∀ fuel polls verdict reached,
      complete fuel polls interpreter (interpreter.start script) = some (verdict, reached) →
      reached.world.steps < 2 ^ 53 → reached.world.YieldsEvery rate) ∧
    ∀ world next task goals outcome,
      Task.Reached options host World.KeepsTime interpreter.world
        (.ofScript interpreter.root script .asynchronous) world task goals →
      task.step options host world = .finished next outcome →
      next.steps < 2 ^ 53 → next.YieldsEvery rate := by
  intro interpreter
  have custom : options.irq.sleep = .custom suspends := congrArg Irq.sleep isIrq
  have isRate : options.irq.rate = Float.ofNat rate := congrArg Irq.rate isIrq
  have hostless : interpreter.world.store.Hostless := hostless_create options host constants inputs
  have every (world : World) (few : world.steps < 2 ^ 53)
      (onTime : world.yields = options.irq.schedule world.steps) : world.YieldsEvery rate :=
    World.yieldsEvery_of_schedule isRate positive bounded few onTime
  have finishes (world next : World) (task : Task) (goals : List Goal) (outcome : Outcome)
      (reached : Task.Reached options host World.KeepsTime interpreter.world
        (.ofScript interpreter.root script .asynchronous) world task goals)
      (finished : task.step options host world = .finished next outcome) :
      next.yields = options.irq.schedule next.steps :=
    (reached.punctual custom (Task.punctual_ofScript hostless rfl rfl)).yields_of_finished custom
      finished
  constructor
  · intro fuel polls verdict reached completed few
    rcases eq_or_ne script [] with rfl | nonempty
    · cases polls with
      | zero => cases completed
      | succ polls =>
          cases completed
          exact every interpreter.world few rfl
    · have launched := launch_eq_start interpreter nonempty .asynchronous
      rw [show interpreter.start script = _ from launched] at completed
      obtain ⟨world, outcome, ends, concluded⟩ := ends_of_complete completed rfl rfl
      obtain ⟨between, last, goals, runs, finished⟩ :=
        Task.Reached.start.exists_last World.KeepsTime.refl ends
      obtain ⟨rfl, rfl⟩ := Prod.mk.inj concluded
      refine every _ few ?_
      dsimp only
      rw [yields_conclude, steps_conclude]
      exact finishes between world last goals outcome runs finished
  · intro world next task goals outcome reached finished few
    exact every next few (finishes world next task goals outcome reached finished)

/-- An interpreter that is suspended before every second step. -/
def everySecondStep : Options :=
  { Options.silent 0 0 with irq := ⟨Float.ofNat 2, .custom true⟩ }

/-- A script of four steps, the last of which fails. -/
def failingFourthStep : List Node :=
  [.of (.arr [.of (.bool true), .of .null]), .of (.identifier "boom")]

/-- The failing script has yielded twice, before its second step and before its fourth. -/
theorem yieldsEvery_everySecondStep :
    let interpreter := create everySecondStep Host.none [] [] []
    ∃ verdict reached,
      complete 100 10 interpreter (interpreter.start failingFourthStep) =
        some (verdict, reached) ∧
      verdict.isOk = false ∧ reached.world.steps = 4 ∧ reached.world.yields = [1, 3] := by
  intro interpreter
  have ended :
      (complete 100 10 interpreter (interpreter.start failingFourthStep)).map
        (fun result => (result.1.isOk, result.2.world.steps)) = some (false, 4) := by
    decide +kernel
  obtain ⟨⟨verdict, reached⟩, completed, facts⟩ := Option.map_eq_some_iff.mp ended
  obtain ⟨failed, steps⟩ := Prod.mk.inj facts
  have few : reached.world.steps < 2 ^ 53 := by
    rw [steps]
    decide
  have every : reached.world.YieldsEvery 2 :=
    (yieldsEvery_of_create everySecondStep Host.none [] [] failingFourthStep
      rfl (by decide) (by decide)).1 100 10 verdict reached completed few
  refine ⟨verdict, reached, completed, failed, steps, ?_⟩
  rw [every.yields, steps]
  decide

end Interpreter

end TreeScript
