import TreeScript.Proofs.Fresh
import TreeScript.Proofs.Moments
import TreeScript.Proofs.Relabelling

/-!
# Runs of relabelled scripts

Scripts that are the same but for labels go through corresponding moments, so
they run for the same number of steps, wait at the same points and end in the
same way; and whatever is done to the world in between, the host sees the same
of both.  In particular it makes no difference what a construct is called
(`Interpreter.relabelling_is_unseen`).
-/

namespace TreeScript

/-! ## What is seen -/

/-- The kind of all numbers. -/
abbrev Double.Any (_ : Float) : Prop :=
  True

theorem Double.isKind_any : IsKind Any :=
  ⟨fun _ _ => trivial, fun _ _ => trivial⟩

/-- The host sees the same of two worlds. -/
structure World.LooksLike (world other : World) : Prop where
  events : other.events = world.events
  steps : other.steps = world.steps
  lifecycle : other.lifecycle = world.lifecycle
  visible : ∀ scope : Scope, other.store.visible scope = world.store.visible scope
  snapshot : ∀ (detail : Detail) (value : Value),
    other.store.snapshot detail value = world.store.snapshot detail value

namespace World

variable {numbers : Float → Prop} {world other : World}

/-- The host sees no labels. -/
theorem Resembles.looksLike (resembles : world.Resembles numbers other) :
    world.LooksLike other where
  events := by rw [resembles.rest]
  steps := by rw [resembles.rest]
  lifecycle := by rw [resembles.rest]
  visible := resembles.store.visible
  snapshot := resembles.store.snapshot

/-- Delivering an error leaves the store out of account. -/
theorem Resembles.deliver (resembles : world.Resembles numbers other) (options : Options)
    (error : Error) :
    (other.deliver options error).1 = (world.deliver options error).1 ∧
      (world.deliver options error).2.Resembles numbers (other.deliver options error).2 := by
  have apart : other.deliver options error = ((world.deliver options error).1,
      { (world.deliver options error).2 with store := other.store }) := by
    rw [resembles.rest]
    unfold World.deliver
    split
    · split
      · dsimp only
        split <;> rfl
      · rfl
    · rfl
  rw [apart]
  refine ⟨rfl, rfl, ?_⟩
  rw [store_deliver options world error]
  exact resembles.store

/-- A change of the world that treats worlds alike that are the same but for labels. -/
def Respects (change : World → World) : Prop :=
  ∀ world other : World, world.Resembles Double.Any other →
    (change world).Resembles Double.Any (change other)

theorem respects_transition (transition : Transition) :
    Respects fun world => world.transition transition := by
  rintro world other ⟨rest, store⟩
  rw [rest]
  exact ⟨rfl, store⟩

end World

/-! ## Tasks -/

section

variable (options : Options) (host : Host) (mode : Mode)

/-- Tasks that correspond in all worlds that do. -/
def Task.Corresponds (task other : Task) : Prop :=
  ∃ underway : List Undertaking, ∀ world world' : World, world.Resembles Double.Any world' →
    Moment.Mirrors Double.Any (fun _ => True) False options host ⟨world, task, underway⟩ world'
        other ∧
      Task.Lawful options (fun _ => False) mode world task (underway.map Undertaking.goal)

/-- What corresponding tasks come to. -/
inductive Progress.Settles : Progress → Progress → Prop where
  | waiting {world world' : World} {task task' : Task} (reason : Wait)
      (worlds : world.Resembles Double.Any world')
      (tasks : task.Corresponds options host mode task') :
      Settles (.waiting world reason task) (.waiting world' reason task')
  | finished {world world' : World} (outcome : Outcome)
      (worlds : world.Resembles Double.Any world') :
      Settles (.finished world outcome) (.finished world' outcome)

end

variable {options : Options} {host : Host} {mode : Mode}

/-- Outcomes outside of all constructs are the same if they are alike. -/
theorem EndsAlike.eq {numbers : Float → Prop} {fails : Error → Prop} {holds : Value → Prop}
    {outcome other : Outcome} (ended : EndsAlike numbers fails none (Shared holds) outcome other) :
    other = outcome := by
  cases ended with
  | ok given => exact congrArg Except.ok given.1
  | signal signals => cases signals
  | error raised => rfl

/-- Corresponding moments come to the same after the same number of steps. -/
theorem Moment.Mirrors.run {moment : Moment} {world : World} {task : Task}
    (mirrors : moment.Mirrors Double.Any (fun _ => True) True options host world task)
    (lawful : Task.Lawful options (fun _ => False) mode moment.world moment.task moment.goals)
    (fuel : Nat) :
    Option.Rel (Progress.Settles options host mode)
      (moment.task.run options host fuel moment.world) (task.run options host fuel world) := by
  induction fuel generalizing moment world task with
  | zero => exact .none
  | succ fuel inductive_step =>
      have progress := mirrors.progress Double.isKind_any moment.isSpared_of_all lawful
      rw [Task.run, Task.run]
      generalize stepped : moment.task.step options host moment.world = before at progress ⊢
      generalize task.step options host world = after at progress ⊢
      cases progress with
      | running mirrors =>
          have lawful := lawful.step stepped
          rw [← Moment.goals_underwayAfter] at lawful
          exact inductive_step (mirrors.weaken fun _ => trivial) lawful
      | @waiting between _ rest _ reason worlds mirrors =>
          have goesOn := (lawful.wait stepped).2
          exact .some (.waiting reason worlds ⟨moment.underway, fun next next' changed =>
            ⟨mirrors next next' changed, goesOn next changed.store.hostless⟩⟩)
      | finished worlds ended =>
          cases ended.eq
          exact .some (.finished _ worlds)

/-! ## Interpreters -/

/-- Runs that wait alike, with corresponding tasks. -/
structure Run.Corresponds (options : Options) (host : Host) (mode : Mode) (run other : Run) :
    Prop where
  reason : other.reason = run.reason
  delivers : other.delivers = run.delivers
  tasks : Option.Rel (Task.Corresponds options host mode) run.task other.task

namespace Interpreter

section

variable (options : Options) (host : Host) (root : Scope) (mode : Mode)

/-- What polls of corresponding runs come to. -/
inductive PolledAlike : Polled × Interpreter → Polled × Interpreter → Prop where
  | pending {world world' : World} {run run' : Run}
      (runs : run.Corresponds options host mode run') (worlds : world.Resembles Double.Any world') :
      PolledAlike (.pending run, ⟨options, host, root, world⟩)
        (.pending run', ⟨options, host, root, world'⟩)
  | ended {world world' : World} (verdict : Verdict)
      (worlds : world.Resembles Double.Any world') :
      PolledAlike (.ended verdict, ⟨options, host, root, world⟩)
        (.ended verdict, ⟨options, host, root, world'⟩)

end

variable {options : Options} {host : Host} {root : Scope} {mode : Mode}

/-- The verdict on a run is the same in worlds that are the same but for labels. -/
theorem conclude_resembles (options : Options) {world world' : World}
    (worlds : world.Resembles Double.Any world') (delivers : Bool) (outcome : Outcome) :
    (conclude options delivers outcome world').1 = (conclude options delivers outcome world).1 ∧
      (conclude options delivers outcome world).2.Resembles Double.Any
        (conclude options delivers outcome world').2 := by
  unfold conclude
  cases outcome.expectValue with
  | ok value => exact ⟨rfl, worlds⟩
  | error error =>
      cases delivers with
      | false => exact ⟨rfl, worlds⟩
      | true =>
          obtain ⟨same, delivered⟩ := worlds.deliver options error
          dsimp only
          rw [if_pos rfl, if_pos rfl]
          generalize world.deliver options error = before at same delivered ⊢
          generalize world'.deliver options error = after at same delivered ⊢
          obtain ⟨answer, next⟩ := before
          obtain ⟨answer', next'⟩ := after
          obtain rfl : answer' = answer := same
          cases answer' <;> exact ⟨rfl, delivered⟩

/-- Corresponding runs are polled alike. -/
theorem poll_mirrors (root : Scope) {run run' : Run}
    (runs : run.Corresponds options host mode run') {world world' : World}
    (worlds : world.Resembles Double.Any world') (fuel : Nat) :
    Option.Rel (PolledAlike options host root mode)
      (poll ⟨options, host, root, world⟩ fuel run)
      (poll ⟨options, host, root, world'⟩ fuel run') := by
  obtain ⟨task, reason, delivers⟩ := run
  obtain ⟨task', reason', delivers'⟩ := run'
  obtain ⟨sameReason, sameDelivers, tasks⟩ := id runs
  obtain rfl : reason' = reason := sameReason
  obtain rfl : delivers' = delivers := sameDelivers
  have ready : Run.isReady ⟨task', reason', delivers'⟩ world'.lifecycle =
      Run.isReady ⟨task, reason', delivers'⟩ world.lifecycle := by
    rw [worlds.looksLike.lifecycle]
    rfl
  unfold poll
  cases tasks with
  | none => exact .some (PolledAlike.ended _ worlds)
  | @some task task' mirrors =>
      dsimp only
      rw [ready]
      split
      · obtain ⟨underway, each⟩ := mirrors
        obtain ⟨moments, lawful⟩ := each _ _ worlds
        have ran := (moments.weaken fun _ => trivial).run lawful fuel
        dsimp only at ran
        generalize task.run options host fuel world = before at ran ⊢
        generalize task'.run options host fuel world' = after at ran ⊢
        cases ran with
        | none => exact .none
        | some settles =>
            cases settles with
            | waiting reason worlds tasks =>
                exact .some (PolledAlike.pending ⟨rfl, rfl, .some tasks⟩ worlds)
            | finished outcome worlds =>
                obtain ⟨same, concluded⟩ :=
                  conclude_resembles options worlds delivers' outcome
                dsimp only
                rw [same]
                exact .some (PolledAlike.ended _ concluded)
      · exact .some (PolledAlike.pending runs worlds)

/-- Poll a run, and again after each of some changes of the world, as long as it is pending. -/
def attend (fuel : Nat) : List (World → World) → Interpreter → Run → Option (Polled × Interpreter)
  | [], interpreter, run => interpreter.poll fuel run
  | change :: later, interpreter, run =>
      match interpreter.poll fuel run with
      | some (.pending run, interpreter) =>
          attend fuel later { interpreter with world := change interpreter.world } run
      | ended => ended

/-- Corresponding runs come to the same, whatever is done to the world in between. -/
theorem attend_mirrors (root : Scope) {changes : List (World → World)}
    (respect : ∀ change ∈ changes, World.Respects change)
    {run run' : Run} (runs : run.Corresponds options host mode run')
    {world world' : World} (worlds : world.Resembles Double.Any world') (fuel : Nat) :
    Option.Rel (PolledAlike options host root mode)
      (attend fuel changes ⟨options, host, root, world⟩ run)
      (attend fuel changes ⟨options, host, root, world'⟩ run') := by
  induction changes generalizing world world' run run' with
  | nil => exact poll_mirrors root runs worlds fuel
  | cons change later inductive_step =>
      obtain ⟨here, further⟩ := List.forall_mem_cons.mp respect
      have polled := poll_mirrors root runs worlds fuel
      rw [attend, attend]
      generalize poll ⟨options, host, root, world⟩ fuel run = before at polled ⊢
      generalize poll ⟨options, host, root, world'⟩ fuel run' = after at polled ⊢
      cases polled with
      | none => exact .none
      | some alike =>
          cases alike with
          | pending runs worlds => exact inductive_step further runs (here _ _ worlds)
          | ended verdict worlds => exact .some (.ended verdict worlds)

/-- Scripts that are the same but for labels start corresponding runs. -/
theorem mirrors_start (interpreter : Interpreter) {script script' : List Node}
    (each : Node.Resemble Double.Any [] script script') :
    (interpreter.start script).Corresponds interpreter.options interpreter.host .asynchronous
        (interpreter.start script') ∧
      (interpreter.startAtOnce script).Corresponds interpreter.options interpreter.host .synchronous
        (interpreter.startAtOnce script') := by
  have tasks (mode : Mode) : Task.Corresponds interpreter.options interpreter.host mode
      (Task.ofScript interpreter.root script mode) (Task.ofScript interpreter.root script' mode) :=
    ⟨[], fun world world' worlds =>
      ⟨Moment.mirrors_ofScript worlds (Evaluation.accords_scripts Double.isKind_any each),
        Task.lawful_ofScript worlds.store.hostless interpreter.root script⟩⟩
  unfold start startAtOnce
  cases each with
  | nil => exact ⟨⟨rfl, rfl, .none⟩, ⟨rfl, rfl, .none⟩⟩
  | cons first others =>
      exact ⟨⟨rfl, rfl, .some (tasks .asynchronous)⟩, ⟨rfl, rfl, .some (tasks .synchronous)⟩⟩

/-- What polls come to, as far as the host sees it. -/
inductive SeenAlike : Polled × Interpreter → Polled × Interpreter → Prop where
  | pending {run run' : Run} {interpreter interpreter' : Interpreter}
      (reason : run'.reason = run.reason)
      (looks : interpreter.world.LooksLike interpreter'.world) :
      SeenAlike (.pending run, interpreter) (.pending run', interpreter')
  | ended {interpreter interpreter' : Interpreter} (verdict : Verdict)
      (looks : interpreter.world.LooksLike interpreter'.world) :
      SeenAlike (.ended verdict, interpreter) (.ended verdict, interpreter')

theorem PolledAlike.seen {polled polled' : Option (Polled × Interpreter)}
    (alike : Option.Rel (PolledAlike options host root mode) polled polled') :
    Option.Rel SeenAlike polled polled' := by
  cases alike with
  | none => exact .none
  | some alike =>
      cases alike with
      | pending runs worlds => exact .some (.pending runs.reason worlds.looksLike)
      | ended verdict worlds => exact .some (.ended verdict worlds.looksLike)

/--
A construct may be called anything else that nothing in its script is called,
if the signals that refer to it change along with it.  Whatever is done between
the polls of a run of the script, in either mode, the host sees the same:
whether the run is pending and why, its verdict, the events, the number of
steps and all that is bound.
-/
theorem relabelling_is_unseen (interpreter : Interpreter)
    (hostless : interpreter.world.store.Hostless) {script : List Node} {fresh : String}
    (unused : fresh ∉ Node.gatherAll Shape.ownLabels script) (path : List Nat)
    {changes : List (World → World)} (respect : ∀ change ∈ changes, World.Respects change)
    (fuel : Nat) :
    let relabelled := Node.relabelScript fresh path script
    Option.Rel SeenAlike (interpreter.attend fuel changes (interpreter.start script))
        (interpreter.attend fuel changes (interpreter.start relabelled)) ∧
      Option.Rel SeenAlike (interpreter.attend fuel changes (interpreter.startAtOnce script))
        (interpreter.attend fuel changes (interpreter.startAtOnce relabelled)) := by
  intro relabelled
  obtain ⟨suspends, atOnce⟩ :=
    interpreter.mirrors_start (Node.resemble_relabelScript unused path)
  have worlds : interpreter.world.Resembles Double.Any interpreter.world :=
    ⟨rfl, hostless.hasOnly.resembles_self⟩
  exact ⟨PolledAlike.seen (attend_mirrors interpreter.root respect suspends worlds fuel),
    PolledAlike.seen (attend_mirrors interpreter.root respect atOnce worlds fuel)⟩

/-- Two loops of one label, in a run that is paused at first, and goes on after that. -/
theorem relabelling_is_unseen_repeated :
    let empty := create (.silent 0 0) Host.none [] [] []
    let paused := { empty with world := empty.world.transition .pause }
    let goOn (world : World) := world.transition .unpause
    "b" ∉ Node.gatherAll Shape.ownLabels repeatedLabels ∧
      Option.Rel SeenAlike (paused.attend 60 [goOn] (paused.start repeatedLabels))
        (paused.attend 60 [goOn] (paused.start (Node.relabelScript "b" [0] repeatedLabels))) := by
  intro empty paused goOn
  have unused : "b" ∉ Node.gatherAll Shape.ownLabels repeatedLabels := by decide
  have hostless : paused.world.store.Hostless := hostless_create (.silent 0 0) Host.none [] []
  have respect : ∀ change ∈ [goOn], World.Respects change :=
    List.forall_mem_singleton.mpr (World.respects_transition .unpause)
  exact ⟨unused, (relabelling_is_unseen paused hostless unused [0] respect 60).1⟩

end Interpreter

end TreeScript
