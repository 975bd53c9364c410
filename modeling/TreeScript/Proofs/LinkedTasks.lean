import TreeScript.Proofs.Commissions
import TreeScript.Proofs.Execution
import TreeScript.Proofs.LinkedGoals

/-!
# Linked tasks

A task mirrors another one in a world of its own if their worlds are linked and
what is left to do is linked, under every link that the present one may be
extended to.  Then every step of the other task is one that the mirroring task
can follow: the yields of either of them are passed over, and all other steps
are made by both.  So the mirroring task ends as the other one does.

The mirroring task has its world for itself, so what it names has no name yet
(`Task.NamesAlone`), and neither has what the other task names.
-/

namespace TreeScript

/-! ## Processes that pass over something -/

namespace Process

variable {α β : Type} {names : String → Bool} {link : Link} {same : α → β → Prop}
  {first after : Process α} {second after' : Process β}

theorem not_passes_done (result : α) : ¬∃ after, (done result).Passes after :=
  nofun

theorem not_passes_call (goal : Goal) (next : Outcome → Process α) :
    ¬∃ after, (call goal next).Passes after :=
  nofun

/-- What is linked to something is noticed by the script. -/
theorem not_passes_of_linked {action action' : Action} (actions : action.Linked names link action')
    (next : action.Reply → Process α) :
    ¬∃ after, (act action next).Passes after := by
  rintro ⟨after, passes⟩
  cases passes with
  | steps => cases actions
  | yielded => cases actions

theorem not_passes_of_linked_right {action action' : Action}
    (actions : action.Linked names link action') (next : action'.Reply → Process α) :
    ¬∃ after, (act action' next).Passes after := by
  rintro ⟨after, passes⟩
  cases passes with
  | steps => cases actions
  | yielded => cases actions

/-- A process passes over finitely many things. -/
theorem acc_passes (process : Process α) :
    Acc (fun after process => process.Passes after) process := by
  induction process with
  | done | call | drive => exact ⟨_, nofun⟩
  | act action next inductive_step =>
      refine ⟨_, fun after passes => ?_⟩
      cases passes with
      | steps _ steps => exact inductive_step steps
      | yielded => exact inductive_step ()
  | wait reason next inductive_step =>
      refine ⟨_, fun after passes => ?_⟩
      cases passes
      exact inductive_step

/-- What the first process passes over makes no difference. -/
theorem Linked.passes_left (linked : Linked names link same first second)
    (passes : first.Passes after) :
    Linked names link same after second := by
  induction linked generalizing after with
  | done => exact absurd ⟨_, passes⟩ (not_passes_done _)
  | act actions => exact absurd ⟨_, passes⟩ (not_passes_of_linked actions _)
  | call => exact absurd ⟨_, passes⟩ (not_passes_call _ _)
  | left _ rest => exact rest _ passes
  | right passes' _ inductive_step =>
      exact .right passes' fun _ passes' => inductive_step _ passes' passes

/-- What the second process passes over makes no difference. -/
theorem Linked.passes_right (linked : Linked names link same first second)
    (passes : second.Passes after') :
    Linked names link same first after' := by
  induction linked generalizing after' with
  | done => exact absurd ⟨_, passes⟩ (not_passes_done _)
  | act actions => exact absurd ⟨_, passes⟩ (not_passes_of_linked_right actions _)
  | call => exact absurd ⟨_, passes⟩ (not_passes_call _ _)
  | left passes' _ inductive_step =>
      exact .left passes' fun _ passes' => inductive_step _ passes' passes
  | right _ rest => exact rest _ passes

theorem Linked.of_done {result : α} {other : β}
    (linked : Linked names link same (.done result) (.done other)) :
    same result other := by
  cases linked with
  | done results => exact results
  | left passes => exact absurd passes (not_passes_done _)
  | right passes => exact absurd passes (not_passes_done _)

theorem Linked.of_act {action action' : Action} {next : action.Reply → Process α}
    {next' : action'.Reply → Process β}
    (linked : Linked names link same (.act action next) (.act action' next'))
    (stays : ¬∃ after, (Process.act action next).Passes after)
    (stays' : ¬∃ after, (Process.act action' next').Passes after) {reply : action.Reply}
    {reply' : action'.Reply} (replies : action.RepliesLinked names link action' reply reply') :
    Linked names link same (next reply) (next' reply') := by
  cases linked with
  | act _ rest => exact rest reply reply' replies
  | left passes => exact absurd passes stays
  | right passes => exact absurd passes stays'

theorem Linked.of_call {goal goal' : Goal} {next : Outcome → Process α}
    {next' : Outcome → Process β}
    (linked : Linked names link same (.call goal next) (.call goal' next')) :
    goal.Linked names link goal' ∧ ∀ {outcome outcome' : Outcome},
      Outcome.Linked link outcome outcome' →
        Linked names link same (next outcome) (next' outcome') := by
  cases linked with
  | call goals rest => exact ⟨goals, rest _ _⟩
  | left passes => exact absurd passes (not_passes_call _ _)
  | right passes => exact absurd passes (not_passes_call _ _)

end Process

/-! ## Tasks -/

/-- Frames that go on alike after linked outcomes; neither of them is a barrier. -/
structure Frame.Linked (names : String → Bool) (link : Link) (frame other : Frame) : Prop where
  resume {outcome outcome' : Outcome} :
    Outcome.Linked link outcome outcome' →
      Process.Linked names link (Turn.Linked names link) (frame.resume outcome)
        (other.resume outcome')
  noBarrier : frame.isBarrier = false ∧ other.isBarrier = false

/-- Tasks that do the same from here on, up to linked handles. -/
structure Task.Linked (names : String → Bool) (link : Link) (task other : Task) : Prop where
  process : Process.Linked names link (Turn.Linked names link) task.process other.process
  stack : List.Forall₂ (Frame.Linked names link) task.stack other.stack

namespace Task

variable {options : Options} {host : Host} {names : String → Bool} {link wider : Link}
  {world next : World}

theorem barrier?_of_linked {stack stack' : List Frame}
    (frames : List.Forall₂ (Frame.Linked names link) stack stack') :
    barrier? stack = none ∧ barrier? stack' = none := by
  induction frames with
  | nil => exact ⟨rfl, rfl⟩
  | cons frame _ inductive_step =>
      exact ⟨(if_neg (by rw [frame.noBarrier.1]; nofun)).trans inductive_step.1,
        (if_neg (by rw [frame.noBarrier.2]; nofun)).trans inductive_step.2⟩

/-- A task passes over something in a step, or is polled again after it. -/
theorem exists_step_of_passes {process : Process Turn} (passes : ∃ after, process.Passes after)
    {stack : List Frame} (noBarrier : barrier? stack = none) (world : World) :
    ∃ after, process.Passes after ∧
      ((∃ next, world.Unmoved next ∧
        step options host world ⟨process, stack⟩ = .running next ⟨after, stack⟩) ∨
      step options host world ⟨process, stack⟩ = .waiting world .nextPoll ⟨after, stack⟩) := by
  obtain ⟨_, passes⟩ := passes
  cases passes with
  | steps next =>
      exact ⟨_, .steps next world.steps, .inl ⟨world, World.unmoved_refl world, rfl⟩⟩
  | yielded next =>
      exact ⟨_, .yielded next, .inl ⟨world.record (.yielded world.steps), ⟨rfl, rfl, rfl⟩, rfl⟩⟩
  | nextPoll => exact ⟨_, .nextPoll _, .inr (step_wait noBarrier world _ _)⟩

/-- However the second task ends, the first one ends in the same way. -/
def LeadsTo (options : Options) (host : Host) (world : World) (task : Task) (next : World)
    (after : Task) : Prop :=
  ∀ {reached : World} {outcome : Outcome},
    after.Ends options host next reached outcome → task.Ends options host world reached outcome

/-- What is passed over names nothing. -/
theorem NamesAlone.passes {process after : Process Turn} {stack : List Frame}
    (alone : Task.NamesAlone world ⟨process, stack⟩) (passes : process.Passes after) :
    Task.NamesAlone world ⟨after, stack⟩ := by
  obtain ⟨hostless, script, goals, pending, carries, owes⟩ := alone
  obtain @⟨awaited, inHand, process, stack, goals, pending, carries, frames⟩ := carries
  refine ⟨hostless, script, goals, _, .intro ?_ frames, owes⟩
  cases passes with
  | steps next steps =>
      cases carries with
      | act _ rest => exact rest steps (.inr trivial)
  | yielded next =>
      cases carries with
      | act _ rest => exact rest () (.inr trivial)
  | nextPoll next =>
      cases carries with
      | wait rest => exact rest

/-- A task gets past all that its process passes over. -/
theorem exists_past (holds : Process Turn → Prop)
    (keeps : ∀ {process after : Process Turn}, holds process → process.Passes after → holds after)
    {process : Process Turn} (holdsNow : holds process)
    {stack : List Frame} (noBarrier : barrier? stack = none) (world : World) :
    ∃ next after, world.Unmoved next ∧ holds after ∧ (¬∃ later, after.Passes later) ∧
      LeadsTo options host world ⟨process, stack⟩ next ⟨after, stack⟩ := by
  induction process.acc_passes generalizing world with
  | intro process _ inductive_step =>
      by_cases passes : ∃ after, process.Passes after
      · obtain ⟨after, passed, stepped⟩ := exists_step_of_passes passes noBarrier world
        rcases stepped with ⟨next, unmoved, running⟩ | waiting
        · obtain ⟨last, past, unmoved', holdsThen, stays, leads⟩ :=
            inductive_step after passed (keeps holdsNow passed) next
          exact ⟨last, past, unmoved.trans unmoved', holdsThen, stays,
            fun ends => .step running (leads ends)⟩
        · obtain ⟨last, past, unmoved', holdsThen, stays, leads⟩ :=
            inductive_step after passed (keeps holdsNow passed) world
          exact ⟨last, past, unmoved', holdsThen, stays,
            fun ends => .resume waiting rfl (leads ends)⟩
      · exact ⟨world, process, World.unmoved_refl world, holdsNow, passes, id⟩

/-! ## Mirrors -/

/-- A task of its own world that mirrors another task, under all links to come. -/
structure Mirrors (options : Options) (names : String → Bool) (link : Link) (solo : World)
    (task : Task) (joint : World) (other : Task) : Prop where
  worlds : World.Linked options names link solo joint
  tasks (widest : Link) :
    link.Extends solo.store joint.store widest → task.Linked names widest other
  alone : task.NamesAlone solo

/-- What the mirroring task comes to when the other one comes to something. -/
def Follows (options : Options) (host : Host) (names : String → Bool) (link : Link)
    (solo : World) (task : Task) (joint : World) : Progress → Prop
  | .running next after =>
      ∃ wider solo' task', LeadsTo options host solo task solo' task' ∧
        World.Advance options names link solo joint wider solo' next ∧
          Mirrors options names wider solo' task' next after
  | .waiting next reason after =>
      reason = .nextPoll ∧ ∃ wider solo' task', LeadsTo options host solo task solo' task' ∧
        World.Advance options names link solo joint wider solo' next ∧
          Mirrors options names wider solo' task' next after
  | .finished next outcome' =>
      ∃ wider solo' outcome, task.Ends options host solo solo' outcome ∧
        World.Advance options names link solo joint wider solo' next ∧
          Outcome.Linked wider outcome outcome'

variable {solo solo' joint joint' : World} {task task' other : Task} {progress : Progress}

/-- What follows later follows from the beginning. -/
theorem Follows.trans (leads : LeadsTo options host solo task solo' task')
    (advance : World.Advance options names link solo joint wider solo' joint')
    (follows : Follows options host names wider solo' task' joint' progress) :
    Follows options host names link solo task joint progress := by
  cases progress with
  | running next after =>
      obtain ⟨widest, last, task'', leads', advance', mirrors⟩ := follows
      exact ⟨widest, last, task'', fun ends => leads (leads' ends), advance.trans advance', mirrors⟩
  | waiting next reason after =>
      obtain ⟨polled, widest, last, task'', leads', advance', mirrors⟩ := follows
      exact ⟨polled, widest, last, task'', fun ends => leads (leads' ends), advance.trans advance',
        mirrors⟩
  | finished next outcome' =>
      obtain ⟨widest, last, outcome, ends, advance', outcomes⟩ := follows
      exact ⟨widest, last, outcome, leads ends, advance.trans advance', outcomes⟩

/-- Tasks mirror each other in worlds that have advanced, if what is left to do is linked. -/
theorem mirrors_of_advance
    (advance : World.Advance options names link solo joint wider solo' joint')
    (alone : task.NamesAlone solo')
    (tasks : ∀ widest, wider.Extends solo'.store joint'.store widest →
      link.Extends solo.store joint.store widest → task.Linked names widest other) :
    Mirrors options names wider solo' task joint' other where
  worlds := advance.linked
  alone := alone
  tasks widest extension :=
    tasks widest extension
      (advance.extension.trans advance.grows advance.leaves.store.grows extension)

/-- The mirroring task makes the steps that pass over nothing. -/
theorem follows_step_of_stays (unlimited : options.stepLimit = 0)
    {process process' : Process Turn} {stack stack' : List Frame}
    (mirrors : Mirrors options names link solo ⟨process, stack⟩ joint ⟨process', stack'⟩)
    (stays : ¬∃ after, process.Passes after) (stays' : ¬∃ after, process'.Passes after) :
    Follows options host names link solo ⟨process, stack⟩ joint
      (step options host joint ⟨process', stack'⟩) := by
  have worlds := mirrors.worlds
  have alone := mirrors.alone
  have now := mirrors.tasks link (Link.extends_refl worlds.store.matching _ _)
  cases now.process with
  | left passes => exact absurd passes stays
  | right passes => exact absurd passes stays'
  | @done turn turn' turns =>
      cases turns with
      | @answer outcome outcome' outcomes =>
          cases now.stack with
          | nil => exact ⟨link, solo, _, .finish rfl, worlds.advance_refl, outcomes⟩
          | @cons frame frame' outer outer' =>
              have running : step options host solo ⟨.done (.answer outcome), frame :: outer⟩ =
                  .running solo ⟨frame.resume outcome, outer⟩ := rfl
              refine ⟨link, solo, _, .step running, worlds.advance_refl,
                mirrors_of_advance worlds.advance_refl (alone.step running alone.hostless)
                  fun widest _ extension => ?_⟩
              have later := mirrors.tasks widest extension
              cases later.process.of_done with
              | answer outcomes =>
                  obtain ⟨frames, outers⟩ := List.forall₂_cons.mp later.stack
                  exact ⟨frames.resume outcomes, outers⟩
      | @again goal goal' goals =>
          have running : step options host solo ⟨.done (.again goal), stack⟩ =
              .running solo ⟨Evaluation.ofGoal options host goal, stack⟩ := rfl
          refine ⟨link, solo, _, .step running, worlds.advance_refl,
            mirrors_of_advance worlds.advance_refl (alone.step running alone.hostless)
              fun widest _ extension => ?_⟩
          have later := mirrors.tasks widest extension
          cases later.process.of_done with
          | again goals => exact ⟨Evaluation.linked_ofGoal options host goals, later.stack⟩
  | @act action action' next next' actions rest =>
      obtain ⟨wider, advance, replies⟩ := World.linked_perform unlimited worlds actions
        fun function name same => by subst same; exact alone.unnamed rfl
      have running : step options host solo ⟨.act action next, stack⟩ =
          .running (solo.perform options action).2
            ⟨next (solo.perform options action).1, stack⟩ := rfl
      have hostless := World.hostless_perform options action actions.hostless alone.hostless
      refine ⟨wider, _, _, .step running, advance,
        mirrors_of_advance advance (alone.step running hostless)
          fun widest widens extension => ?_⟩
      have later := mirrors.tasks widest extension
      exact ⟨later.process.of_act stays stays' (replies widest widens), later.stack⟩
  | @call goal goal' next next' goals rest =>
      have running : step options host solo ⟨.call goal next, stack⟩ =
          .running solo ⟨Evaluation.ofGoal options host goal, ⟨next, false⟩ :: stack⟩ := rfl
      refine ⟨link, solo, _, .step running, worlds.advance_refl,
        mirrors_of_advance worlds.advance_refl (alone.step running alone.hostless)
          fun widest _ extension => ?_⟩
      have later := mirrors.tasks widest extension
      obtain ⟨goals, rest⟩ := later.process.of_call
      exact ⟨Evaluation.linked_ofGoal options host goals, .cons ⟨rest, rfl, rfl⟩ later.stack⟩

/-- The mirroring task follows every step. -/
theorem follows_step (unlimited : options.stepLimit = 0)
    (mirrors : Mirrors options names link solo task joint other) :
    Follows options host names link solo task joint (other.step options host joint) := by
  obtain ⟨process, stack⟩ := task
  obtain ⟨process', stack'⟩ := other
  have worlds := mirrors.worlds
  have now := mirrors.tasks link (Link.extends_refl worlds.store.matching _ _)
  obtain ⟨noBarrier, noBarrier'⟩ := barrier?_of_linked now.stack
  by_cases passes' : ∃ after, process'.Passes after
  · -- The other task yields or looks at the steps, and the mirroring task stays where it is.
    obtain ⟨after, passed, stepped⟩ := exists_step_of_passes passes' noBarrier' joint
    rcases stepped with ⟨next, unmoved, running⟩ | waiting
    · rw [running]
      have advance := worlds.advance_of_unmoved (World.unmoved_refl solo) unmoved
      refine ⟨link, solo, _, id, advance,
        mirrors_of_advance advance mirrors.alone fun widest _ extension => ?_⟩
      have later := mirrors.tasks widest extension
      exact ⟨later.process.passes_right passed, later.stack⟩
    · rw [waiting]
      refine ⟨rfl, link, solo, _, id, worlds.advance_refl, worlds, fun widest extension => ?_,
        mirrors.alone⟩
      have later := mirrors.tasks widest extension
      exact ⟨later.process.passes_right passed, later.stack⟩
  · obtain ⟨next, past, unmoved, ⟨linked, alone⟩, stays, leads⟩ : ∃ next past,
        solo.Unmoved next ∧
        ((∀ widest, link.Extends solo.store joint.store widest →
          Process.Linked names widest (Turn.Linked names widest) past process') ∧
            NamesAlone solo ⟨past, stack⟩) ∧
        (¬∃ after, past.Passes after) ∧
          LeadsTo options host solo ⟨process, stack⟩ next ⟨past, stack⟩ :=
      exists_past _
        (fun ⟨linked, alone⟩ passes =>
          ⟨fun widest extension => (linked widest extension).passes_left passes,
            alone.passes passes⟩)
        ⟨fun widest extension => (mirrors.tasks widest extension).process, mirrors.alone⟩
        noBarrier solo
    have advance := worlds.advance_of_unmoved unmoved (World.unmoved_refl joint)
    refine Follows.trans leads advance (follows_step_of_stays unlimited ?_ stays passes')
    exact mirrors_of_advance advance (alone.of_store unmoved.store) fun widest _ extension =>
      ⟨linked widest extension, (mirrors.tasks widest extension).stack⟩

/-- The mirroring task follows every run. -/
theorem follows_run (unlimited : options.stepLimit = 0) {fuel : Nat}
    (mirrors : Mirrors options names link solo task joint other)
    (ran : other.run options host fuel joint = some progress) :
    Follows options host names link solo task joint progress := by
  induction fuel generalizing link solo task joint other with
  | zero => cases ran
  | succ fuel inductive_step =>
      have follows : Follows options host names link solo task joint
          (other.step options host joint) := follows_step unlimited mirrors
      cases step : other.step options host joint with
      | running next after =>
          rw [run_of_running step] at ran
          rw [step] at follows
          obtain ⟨wider, solo', task', leads, advance, mirrors⟩ := follows
          exact Follows.trans leads advance (inductive_step mirrors ran)
      | waiting next reason after =>
          rw [run_of_waiting step] at ran
          cases ran
          exact step ▸ follows
      | finished next outcome =>
          rw [run_of_finished step] at ran
          cases ran
          exact step ▸ follows

end Task

end TreeScript
