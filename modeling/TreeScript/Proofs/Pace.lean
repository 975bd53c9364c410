import TreeScript.Proofs.HostManner
import TreeScript.Proofs.RuleEndings

/-!
# Evaluation at another pace

Two worlds may have everything in common but the number of steps that have been
taken and the yields on record.  Without a limit of steps a script cannot tell
such worlds apart: asynchronous evaluation may yield at other points, but what it
does besides is the same.  A function of the host could tell them apart, if it
looks at the number of steps (`Host.IsTimeless`).

`Rule.Ends.coincides` says that a rule which ends in one of the two worlds ends in
the other as well, with the same result.
-/

namespace TreeScript

open Rule

variable {options : Options} {host : Host} {free : Bool} {world other between next reached : World}
variable {α β : Type}

/-! ## Worlds apart from the pace -/

namespace World

/-- Worlds that differ only in their numbers of steps and in the yields on record. -/
structure Coincides (world other : World) : Prop where
  store : world.store = other.store
  lifecycle : world.lifecycle = other.lifecycle
  roster : world.roster = other.roster
  inputs : world.inputs = other.inputs
  events : world.quiet.events = other.quiet.events

namespace Coincides

theorem refl (world : World) : world.Coincides world :=
  ⟨rfl, rfl, rfl, rfl, rfl⟩

theorem symm (coincides : world.Coincides other) : other.Coincides world :=
  ⟨coincides.store.symm, coincides.lifecycle.symm, coincides.roster.symm, coincides.inputs.symm,
    coincides.events.symm⟩

theorem trans (first : world.Coincides between) (second : between.Coincides other) :
    world.Coincides other :=
  ⟨first.store.trans second.store, first.lifecycle.trans second.lifecycle,
    first.roster.trans second.roster, first.inputs.trans second.inputs,
    first.events.trans second.events⟩

theorem mapStore (coincides : world.Coincides other) (change : Store → Store) :
    (world.mapStore change).Coincides (other.mapStore change) :=
  { coincides with store := congrArg change coincides.store }

theorem record (coincides : world.Coincides other) (event : Event Snapshot)
    (kept : event.isYield = false) : (world.record event).Coincides (other.record event) where
  store := coincides.store
  lifecycle := coincides.lifecycle
  roster := coincides.roster
  inputs := coincides.inputs
  events := by
    rw [quiet_record world kept, quiet_record other kept]
    exact congrArg (·.push event) coincides.events

/-- A yield may be recorded in one of the worlds alone. -/
theorem record_yielded (coincides : world.Coincides other) (steps : Nat) :
    world.Coincides (other.record (.yielded steps)) where
  store := coincides.store
  lifecycle := coincides.lifecycle
  roster := coincides.roster
  inputs := coincides.inputs
  events := by rw [quiet_record_yielded, coincides.events]

theorem log (coincides : world.Coincides other) (options : Options) (name : String)
    (scope bound : Option String) (value : Option Value) :
    (world.log options name scope bound value).Coincides
      (other.log options name scope bound value) := by
  unfold World.log
  rw [coincides.store]
  split
  · exact coincides.record _ rfl
  · exact coincides

/-- Steps may be taken in one of the worlds alone. -/
theorem tick (coincides : world.Coincides other) (options : Options) :
    world.Coincides (other.tick options).2 :=
  { coincides with }

theorem actionRelation (unlimited : options.stepLimit = 0) :
    ActionRelation options options Coincides where
  store := store
  change _ coincides := coincides.mapStore _
  log name scope bound value _ coincides := coincides.log options name scope bound value
  tell name scope value coincides := coincides.log options name scope none value
  isStopped coincides := congrArg Lifecycle.isStopped coincides.lifecycle
  tick coincides := ⟨by simp [World.tick, unlimited], { coincides with }⟩
  newFunction name _ _ coincides := coincides.mapStore _
  nameFunction _ _ coincides := coincides.mapStore _
  record kept coincides := coincides.record _ kept
  inputs := inputs
  withInputs inputs coincides := { coincides with inputs := rfl }
  reportsOutput := rfl
  detail := rfl
  hasInput := rfl

theorem transition (coincides : world.Coincides other) (transition : Transition) :
    (world.transition transition).Coincides (other.transition transition) where
  store := coincides.store
  lifecycle := congrArg (fun lifecycle => (lifecycle.transition transition).1) coincides.lifecycle
  roster := coincides.roster
  inputs := coincides.inputs
  events := by
    have told (world : World) : (world.transition transition).quiet.events =
        world.quiet.events ++
          ((world.lifecycle.transition transition).2.map Event.handler).toArray := by
      have kept (tags : List String) :
          (tags.map (Event.handler (α := Snapshot))).filter (fun event => !event.isYield) =
            tags.map Event.handler := by
        simp [Event.isYield]
      simp [quiet, World.transition, kept]
    rw [told, told, coincides.lifecycle, coincides.events]

theorem handler (coincides : world.Coincides other) (tag : String) (response : Response) :
    (world.handler tag response).1 = (other.handler tag response).1 ∧
      (world.handler tag response).2.Coincides (other.handler tag response).2 := by
  rw [World.handler, World.handler, coincides.roster]
  split
  · exact ⟨rfl, coincides⟩
  · exact ⟨rfl, { coincides with roster := rfl }⟩

theorem deliver (coincides : world.Coincides other) (options : Options) (error : Error) :
    (world.deliver options error).1 = (other.deliver options error).1 ∧
      (world.deliver options error).2.Coincides (other.deliver options error).2 := by
  rw [World.deliver, World.deliver, coincides.lifecycle]
  cases options.reportsErrors with
  | false => exact ⟨rfl, coincides⟩
  | true =>
      cases options.abortOnError with
      | false => exact ⟨rfl, coincides.record _ rfl⟩
      | true =>
          cases other.lifecycle.isStopped with
          | true => exact ⟨rfl, coincides⟩
          | false => exact ⟨rfl, (coincides.transition .abort).record _ rfl⟩

/-- Nothing but looking at the number of steps tells worlds apart that coincide. -/
theorem perform (coincides : world.Coincides other) (unlimited : options.stepLimit = 0)
    (action : Action) (timeless : action ≠ .steps) :
    (world.perform options action).1 = (other.perform options action).1 ∧
      (world.perform options action).2.Coincides (other.perform options action).2 := by
  have relation := actionRelation unlimited
  cases action with
  | steps => exact (timeless rfl).elim
  | pause => exact ⟨congrArg Lifecycle.pause coincides.lifecycle, coincides⟩
  | tick => exact relation.perform coincides .tick (.inr rfl)
  | yielded =>
      exact ⟨rfl, (coincides.symm.record_yielded world.steps).symm.record_yielded other.steps⟩
  | newFunction name body =>
      refine ⟨congrArg (fun store => (store.newFunction name body).2) coincides.store, ?_⟩
      exact coincides.mapStore fun store => (store.newFunction name body).1
  | deliver error => exact coincides.deliver options error
  | transition transition => exact ⟨rfl, coincides.transition transition⟩
  | mention tag => exact ⟨rfl, (coincides.handler tag .nothing).2⟩
  | subscribe transition tag =>
      obtain ⟨same, known⟩ := coincides.handler tag .nothing
      refine ⟨rfl, { known with lifecycle := ?_ }⟩
      dsimp only [World.perform, World.subscribe]
      rw [same, known.lifecycle]
  | unsubscribe transition tag =>
      obtain ⟨same, known⟩ := coincides.handler tag .nothing
      refine ⟨rfl, { known with lifecycle := ?_ }⟩
      dsimp only [World.perform, World.unsubscribe]
      rw [same, known.lifecycle]
  | _ => exact relation.perform coincides _ (.inl trivial)

/-- What happens in front of a node makes no difference. -/
theorem afterYield (coincides : world.Coincides other) (irq : Irq) :
    world.Coincides (other.afterYield irq) := by
  unfold World.afterYield
  split
  · split
    · exact coincides
    · exact coincides.record_yielded _
  · exact coincides

end Coincides

end World

/-! ## What does not look at the time -/

/-- The manner of evaluation in a mode that does not look at the number of steps. -/
def Manner.timeless (mode : Mode) : Manner where
  acts action := action ≠ .steps
  replies _ _ := True
  waits _ := mode = .asynchronous
  calls goal := goal.context.mode = mode
  drives goal := goal.context.mode = .synchronous

theorem Manner.plain_timeless (mode : Mode) : (timeless mode).Plain mode where
  acts := by
    rintro _ quiet rfl
    exact quiet
  calls _ runs := runs.mode_eq
  drives atOnce _ runs := runs.mode_eq.trans atOnce

/-- A host none of whose functions looks at the number of steps, or waits where it may not. -/
def Host.IsTimeless (host : Host) : Prop :=
  ∀ mode, (Manner.timeless mode).Serves host mode

theorem Host.isTimeless_none : Host.none.IsTimeless :=
  fun mode => Manner.serves_of_minds (Manner.plain_timeless mode) nofun

namespace Evaluation

/-- A goal other than a node does not look at the number of steps. -/
theorem timeless_ofGoal (guests : host.IsTimeless) {goal : Goal} (noNode : ¬ goal.IsNode) :
    (ofGoal options host goal).Uses (.timeless goal.context.mode)
      (Turn.Minds (.timeless goal.context.mode)) := by
  cases goal with
  | enter callee arguments mode =>
      exact uses_process (uses_answering
        (minds_enter (Manner.plain_timeless mode) (fun _ => nofun) callee arguments))
  | _ => exact uses_ofGoal_of_not_isNode (guests _) rfl noNode

/-- Inside of a node the number of steps is not looked at. -/
theorem timeless_inside (node : Node) (scope : Scope) (context : Context) (within : Bool) :
    (inside node scope context within).Uses (.timeless context.mode)
      (Turn.Minds (.timeless context.mode)) := by
  refine uses_process (uses_answering (Rule.Uses.mapError ?_ _))
  cases within with
  | true => exact minds_construct (Manner.plain_timeless context.mode) node.start node.shape
  | false => exact uses_fail _

/-- What may be left of the gate behind the question for a pause. -/
inductive Passage (irq : Irq) : Mode → Rule Unit → Prop where
  | behindPause : Passage irq .asynchronous (yieldWhenDue irq)
  | yields : Passage irq .asynchronous (yieldNow irq.sleep)
  | sleeps : Passage irq .asynchronous (Rule.wait .nextPoll)
  | passed {mode : Mode} : Passage irq mode (pure ())

end Evaluation

/-! ## Processes -/

namespace Process

section Definitions

variable (options : Options) (host : Host)

/-- What ends in a world ends alike in all worlds that coincide with it. -/
def Recurs (free : Bool) (world : World) (process : Process α) (reached : World)
    (result : Option α) : Prop :=
  ∀ other, world.Coincides other → ∃ next, process.Ends options host free other next result ∧
    reached.Coincides next

/--
What has to recur for a process to do so.  How asynchronous evaluation comes into
a node depends on the number of steps, so what counts is that it gets there.
-/
inductive Heads : Mode → {α : Type} → (α → Prop) → Process α → Process α → Prop where
  | outside {mode : Mode} {α : Type} {holds : α → Prop} {process : Process α}
      (uses : process.Uses (.timeless mode) holds) :
      Heads mode holds process process
  | arriving {mode : Mode} {process : Process Turn} {node : Node} {scope : Scope}
      {context : Context}
      (stands : process = Evaluation.ofGoal options host (.evaluate node scope context))
      (apt : context.mode = mode) :
      Heads mode (Turn.Minds (.timeless mode)) process process
  | looking {process : Process Turn} {node : Node} {scope : Scope}
      {context : Context}
      (stands : process = Evaluation.entering node scope context (Evaluation.gate options.irq))
      (apt : context.mode = .asynchronous) :
      Heads .asynchronous (Turn.Minds (.timeless .asynchronous)) process process
  | passing {mode : Mode} {process : Process Turn} {node : Node} {scope : Scope}
      {context : Context} {rest : Rule Unit}
      (stands : process = Evaluation.entering node scope context rest)
      (passage : Evaluation.Passage options.irq mode rest)
      (apt : context.mode = mode) :
      Heads mode (Turn.Minds (.timeless mode)) process
        (Evaluation.entering node scope context (pure ()))

end Definitions

variable {mode : Mode} {holds : α → Prop} {process : Process α} {result : Option α}

theorem Recurs.of_coincides (recurs : process.Recurs options host free world reached result)
    (coincides : world.Coincides between) :
    process.Recurs options host free between reached result :=
  fun _ onward => recurs _ (coincides.trans onward)

theorem recurs_act (unlimited : options.stepLimit = 0) {action : Action}
    {proceed : action.Reply → Process α} (timeless : action ≠ .steps)
    (recurs : (proceed (world.perform options action).1).Recurs options host free
      (world.perform options action).2 reached result) :
    (act action proceed).Recurs options host free world reached result := by
  intro other coincides
  obtain ⟨replies, performed⟩ := coincides.perform unlimited action timeless
  obtain ⟨next, ends, alike⟩ := recurs _ performed
  exact ⟨next, .act (replies ▸ ends), alike⟩

section Entering

variable {node : Node} {scope : Scope} {context : Context} {turn : Option Turn}

/-- Behind the question for a pause a node is entered, with a yield or without. -/
theorem ends_behindPause {irq : Irq}
    (ends : (Evaluation.entering node scope context (pure ())).Ends options host true
      (world.afterYield irq) reached turn) :
    (Evaluation.entering node scope context (Evaluation.yieldWhenDue irq)).Ends options host true
      world reached turn := by
  rw [Evaluation.entering_yieldWhenDue]
  refine .act ?_
  show Ends options host true world
    (Evaluation.entering node scope context (if irq.isDue world.steps then _ else _)) _ _
  rw [World.afterYield] at ends
  split
  · rename_i due
    rw [if_pos due] at ends
    cases sleep : irq.sleep with
    | timed milliseconds =>
        rw [sleep] at ends
        exact .wait rfl ends
    | custom suspends =>
        rw [sleep] at ends
        rw [Evaluation.entering_yieldNow_custom]
        refine .act ?_
        cases suspends with
        | true => exact .wait rfl ends
        | false => exact ends
  · rename_i early
    rw [if_neg early] at ends
    exact ends

/-- What recurs behind the gate recurs in front of it, if no pause is in effect. -/
theorem Recurs.gate {irq : Irq} (unpaused : world.lifecycle.pause = none)
    (recurs : (Evaluation.entering node scope context (pure ())).Recurs options host true world
      reached turn) :
    (Evaluation.entering node scope context (Evaluation.gate irq)).Recurs options host true world
      reached turn := by
  intro other coincides
  obtain ⟨next, ends, alike⟩ := recurs _ (coincides.afterYield irq)
  refine ⟨next, ?_, alike⟩
  rw [Evaluation.entering_gate]
  refine .act ?_
  rw [show (other.perform options .pause).1 = none from
    (congrArg Lifecycle.pause coincides.lifecycle).symm.trans unpaused]
  exact ends_behindPause ends

end Entering

/-- What asks for a goal or is over is not on the way into a node. -/
theorem Heads.uses {process headed : Process α}
    (heads : Heads options host mode holds process headed)
    (noAct : ∀ action next, process ≠ .act action next)
    (noWait : ∀ reason next, process ≠ .wait reason next) :
    headed = process ∧ process.Uses (.timeless mode) holds := by
  cases heads with
  | outside uses => exact ⟨rfl, uses⟩
  | arriving stands _ => exact (noAct _ _ (stands.trans (Evaluation.ofGoal_evaluate_eq ..))).elim
  | looking stands _ => exact (noAct _ _ (stands.trans (Evaluation.entering_gate ..))).elim
  | passing stands passage _ =>
      cases passage with
      | behindPause => exact (noAct _ _ (stands.trans (Evaluation.entering_yieldWhenDue ..))).elim
      | yields =>
          cases sleep : options.irq.sleep with
          | timed milliseconds =>
              rw [sleep] at stands
              exact (noWait _ _ stands).elim
          | custom suspends =>
              rw [sleep, Evaluation.entering_yieldNow_custom] at stands
              exact (noAct _ _ stands).elim
      | sleeps => exact (noWait _ _ stands).elim
      | passed => exact (noAct _ _ stands).elim

/-- Every goal heads for itself. -/
theorem heads_ofGoal (guests : host.IsTimeless) (goal : Goal) :
    Heads options host goal.context.mode (Turn.Minds (.timeless goal.context.mode))
      (Evaluation.ofGoal options host goal) (Evaluation.ofGoal options host goal) := by
  by_cases isNode : goal.IsNode
  · cases goal with
    | evaluate node scope context => exact .arriving rfl rfl
    | _ => exact isNode.elim
  · exact .outside (Evaluation.timeless_ofGoal guests isNode)

/-- A turn that is made lets the process go on that asked for it. -/
theorem uses_andThen {turn : Turn} {proceed : Outcome → Process α}
    (minds : turn.Minds (.timeless mode))
    (rest : ∀ outcome, (proceed outcome).Uses (.timeless mode) holds) :
    (turn.andThen proceed).Uses (.timeless mode) holds := by
  cases turn with
  | answer outcome => exact rest outcome
  | again goal => exact .call minds rest

theorem uses_andThenAtOnce {turn : Turn} {proceed : Outcome → Process α}
    (minds : turn.Minds (.timeless .synchronous))
    (rest : ∀ outcome, (proceed outcome).Uses (.timeless mode) holds) :
    (turn.andThenAtOnce proceed).Uses (.timeless mode) holds := by
  cases turn with
  | answer outcome => exact rest outcome
  | again goal => exact .drive minds rest

/-- A node is on the way when it is known whether evaluation is stopped. -/
theorem exists_heads_arriving (node : Node) (scope : Scope) (context : Context) :
    ∃ next : Bool → Process Turn,
      Evaluation.ofGoal options host (.evaluate node scope context) = .act .isStopped next ∧
        ∀ stopped, Heads options host context.mode (Turn.Minds (.timeless context.mode))
          (next stopped) (next stopped) := by
  refine ⟨_, Evaluation.ofGoal_evaluate_eq node scope context options host, fun stopped => ?_⟩
  rcases context with ⟨calls, mode⟩
  cases stopped with
  | true => exact .outside (.done trivial)
  | false =>
      cases mode with
      | asynchronous => exact .looking rfl rfl
      | synchronous => exact .passing rfl .passed rfl

/-- What recurs behind an action of a process that heads for itself recurs in front of it. -/
theorem Heads.act (unlimited : options.stepLimit = 0) {action : Action}
    {proceed : action.Reply → Process α} {headed : Process α}
    (heads : Heads options host mode holds (.act action proceed) headed)
    (isFree : free = mode.isFree)
    (rest : (proceed (world.perform options action).1).Ends options host free
      (world.perform options action).2 reached result) :
    ∃ headed', Heads options host mode holds (proceed (world.perform options action).1) headed' ∧
      (headed'.Recurs options host free (world.perform options action).2 reached result →
        headed.Recurs options host free world reached result) := by
  generalize whole : Process.act action proceed = process at heads
  cases heads with
  | outside uses =>
      subst whole
      cases uses with
      | act timeless goesOn =>
          exact ⟨_, .outside (goesOn _ trivial), recurs_act unlimited timeless⟩
  | @arriving _ _ node scope context stands apt =>
      subst apt
      obtain ⟨next, same, heads⟩ := exists_heads_arriving node scope context
      have timeless : Action.isStopped ≠ Action.steps := by rintro ⟨⟩
      cases whole.trans (stands.trans same)
      rw [stands, same]
      exact ⟨_, heads _, recurs_act unlimited timeless⟩
  | @looking _ node scope context stands apt =>
      obtain rfl : free = true := isFree
      cases whole.trans (stands.trans (Evaluation.entering_gate node scope context options.irq))
      cases paused : world.lifecycle.pause with
      | none =>
          rw [show (world.perform options .pause).1 = none from paused]
          refine ⟨_, .passing rfl .behindPause apt, fun recurs => ?_⟩
          rw [stands]
          exact recurs.gate paused
      | some pause =>
          rw [show (world.perform options .pause).1 = some pause from paused] at rest
          cases rest with
          | wait ended _ => simp [World.perform, Wait.isOver, paused] at ended
  | @passing _ _ node scope context _ stands passage apt =>
      cases passage with
      | behindPause =>
          rw [Evaluation.entering_yieldWhenDue] at stands
          cases whole.trans stands
          refine ⟨_, .passing rfl ?_ apt, id⟩
          split
          · exact .yields
          · exact .passed
      | yields =>
          cases sleep : options.irq.sleep with
          | timed milliseconds =>
              rw [sleep] at stands
              cases whole.trans stands
          | custom suspends =>
              rw [sleep, Evaluation.entering_yieldNow_custom] at stands
              cases whole.trans stands
              have told : (world.record (.yielded world.steps)).Coincides world :=
                ((World.Coincides.refl world).record_yielded world.steps).symm
              refine ⟨_, .passing rfl ?_ apt, fun recurs => recurs.of_coincides told⟩
              split
              · exact .sleeps
              · exact .passed
      | sleeps => cases whole.trans stands
      | passed =>
          have timeless : Action.tick ≠ Action.steps := by rintro ⟨⟩
          cases whole.trans (stands.trans (Evaluation.entering_pure node scope context))
          rw [Evaluation.entering_pure]
          exact ⟨_, .outside (apt ▸ Evaluation.timeless_inside _ _ _ _),
            recurs_act unlimited timeless⟩

/-- What recurs behind a wait of a process that heads for itself recurs in front of it. -/
theorem Heads.wait {reason : Wait} {next headed : Process α}
    (heads : Heads options host mode holds (.wait reason next) headed)
    (ended : reason.isOver world.lifecycle = true) :
    ∃ headed', Heads options host mode holds next headed' ∧
      (headed'.Recurs options host true world reached result →
        headed.Recurs options host true world reached result) := by
  generalize whole : Process.wait reason next = process at heads
  cases heads with
  | outside uses =>
      subst whole
      cases uses with
      | wait _ goesOn =>
          refine ⟨_, .outside goesOn, fun recurs other coincides => ?_⟩
          obtain ⟨last, ends, alike⟩ := recurs other coincides
          exact ⟨last, .wait (coincides.lifecycle ▸ ended) ends, alike⟩
  | arriving stands _ =>
      rw [Evaluation.ofGoal_evaluate_eq] at stands
      cases whole.trans stands
  | looking stands _ =>
      rw [Evaluation.entering_gate] at stands
      cases whole.trans stands
  | passing stands passage apt =>
      cases passage with
      | behindPause => cases whole.trans stands
      | yields =>
          cases sleep : options.irq.sleep with
          | timed milliseconds =>
              rw [sleep] at stands
              cases whole.trans stands
              exact ⟨_, .passing rfl .passed apt, id⟩
          | custom suspends =>
              rw [sleep] at stands
              cases whole.trans stands
      | sleeps =>
          cases whole.trans stands
          exact ⟨_, .passing rfl .passed apt, id⟩
      | passed => cases whole.trans stands

/-- Only asynchronous evaluation waits. -/
theorem Heads.isFree_of_wait {reason : Wait} {next headed : Process α}
    (heads : Heads options host mode holds (.wait reason next) headed) :
    mode.isFree = true := by
  generalize whole : Process.wait reason next = process at heads
  cases heads with
  | outside uses =>
      subst whole
      cases uses with
      | wait allowed _ =>
          obtain rfl : mode = .asynchronous := allowed
          rfl
  | arriving stands _ =>
      rw [Evaluation.ofGoal_evaluate_eq] at stands
      cases whole.trans stands
  | looking _ _ => rfl
  | passing stands passage _ =>
      cases passage with
      | passed => cases whole.trans stands
      | _ => rfl

/-- A process recurs where what heads for it comes to an end. -/
theorem Ends.recurs {process : Process α}
    (ends : process.Ends options host free world reached result)
    (unlimited : options.stepLimit = 0) (guests : host.IsTimeless)
    {headed : Process α} (heads : Heads options host mode holds process headed)
    (isFree : free = mode.isFree) :
    (∀ given, result = some given → holds given) ∧
      headed.Recurs options host free world reached result := by
  induction ends generalizing mode with
  | done =>
      obtain ⟨rfl, uses⟩ := heads.uses nofun nofun
      cases uses with
      | done given =>
          refine ⟨fun _ same => ?_, fun other coincides => ⟨other, .done, coincides⟩⟩
          cases same
          exact given
  | act rest inductive_step =>
      obtain ⟨_, heads, onward⟩ := heads.act unlimited isFree rest
      exact (inductive_step heads isFree).imp_right onward
  | wait ended _ inductive_step =>
      obtain ⟨_, heads, onward⟩ := heads.wait ended
      exact (inductive_step heads isFree).imp_right onward
  | refused => cases isFree.trans heads.isFree_of_wait
  | @call _ _ _ _ _ goal _ _ _ _ _ asks inductive_step =>
      obtain ⟨rfl, uses⟩ := heads.uses nofun nofun
      cases uses with
      | call allowed rest =>
          obtain rfl : goal.context.mode = mode := allowed
          obtain ⟨minds, asked⟩ := asks (heads_ofGoal guests goal) isFree
          obtain ⟨given, recurs⟩ :=
            inductive_step (.outside (uses_andThen (minds _ rfl) rest)) isFree
          refine ⟨given, fun other coincides => ?_⟩
          obtain ⟨between, first, alike⟩ := asked other coincides
          obtain ⟨next, second, alikeThen⟩ := recurs between alike
          exact ⟨next, .call first second, alikeThen⟩
  | @callRefused _ _ _ _ goal _ _ asks =>
      obtain ⟨rfl, uses⟩ := heads.uses nofun nofun
      cases uses with
      | call allowed rest =>
          obtain rfl : goal.context.mode = mode := allowed
          obtain ⟨-, asked⟩ := asks (heads_ofGoal guests goal) isFree
          refine ⟨nofun, fun other coincides => ?_⟩
          obtain ⟨next, first, alike⟩ := asked other coincides
          exact ⟨next, .callRefused first, alike⟩
  | @drive _ _ _ _ _ goal _ _ _ _ _ asks inductive_step =>
      obtain ⟨rfl, uses⟩ := heads.uses nofun nofun
      cases uses with
      | drive allowed rest =>
          have atOnce : goal.context.mode = .synchronous := allowed
          obtain ⟨minds, asked⟩ := asks (atOnce ▸ heads_ofGoal guests goal) rfl
          obtain ⟨given, recurs⟩ :=
            inductive_step (.outside (uses_andThenAtOnce (minds _ rfl) rest)) isFree
          refine ⟨given, fun other coincides => ?_⟩
          obtain ⟨between, first, alike⟩ := asked other coincides
          obtain ⟨next, second, alikeThen⟩ := recurs between alike
          exact ⟨next, .drive first second, alikeThen⟩
  | @driveRefused _ _ _ _ _ goal _ _ _ _ asks inductive_step =>
      obtain ⟨rfl, uses⟩ := heads.uses nofun nofun
      cases uses with
      | drive allowed rest =>
          have atOnce : goal.context.mode = .synchronous := allowed
          obtain ⟨-, asked⟩ := asks (atOnce ▸ heads_ofGoal guests goal) rfl
          obtain ⟨given, recurs⟩ := inductive_step (.outside (rest _)) isFree
          refine ⟨given, fun other coincides => ?_⟩
          obtain ⟨between, first, alike⟩ := asked other coincides
          obtain ⟨next, second, alikeThen⟩ := recurs between alike
          exact ⟨next, .driveRefused first second, alikeThen⟩

end Process

/-- A rule that does not look at the number of steps ends alike in worlds that coincide. -/
theorem Rule.Ends.coincides {mode : Mode} {rule : Rule α} {result : Except Interrupt α}
    (ends : rule.Ends options host mode.isFree world reached result)
    (minds : rule.Minds (.timeless mode))
    (unlimited : options.stepLimit = 0) (guests : host.IsTimeless)
    (coincides : world.Coincides other) :
    ∃ next, rule.Ends options host mode.isFree other next result ∧ reached.Coincides next :=
  (Process.Ends.recurs ends unlimited guests (.outside minds) rfl).2 other coincides

end TreeScript
