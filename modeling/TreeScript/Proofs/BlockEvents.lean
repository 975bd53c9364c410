import TreeScript.Proofs.Inertness
import TreeScript.Proofs.OpenBlocks
import TreeScript.Proofs.Record
import TreeScript.Proofs.WindingDown

/-!
# Block events

A chronicle of a run is what the host is told, together with a mark wherever a `return`,
`break` or `continue` node gives a signal.  The node tells the host of its signal once,
and every block that the signal leaves tells of it once more.  So the marks make up for
what the nodes tell: with them the blocks that are left are never more than those that
have been entered, and when a run ends with a value they are as many
(`Interpreter.block_events_balance`).

The invariant is that the blocks entered and not left are those which the processes of a
task have open, each counted by `Process.Opens`.  An error takes the task down without
leaving them, and from then on nothing is entered or left.
-/

namespace TreeScript

variable {options : Options} {host : Host}

/-! ## Events -/

/-- Whether an event is a log event under one of some names. -/
def Event.isLogged {α : Type} (names : List String) : Event α → Bool
  | .log name _ _ _ => names.contains name
  | _ => false

/-- How many log events of a record are under one of some names. -/
def countLogged (names : List String) (record : List (Event Snapshot)) : Nat :=
  record.countP (Event.isLogged names)

/-- Whether an event tells of a block. -/
def Event.IsOfBlock (event : Event Snapshot) : Prop :=
  event.isLogged ("block:enter" :: blockExits) = true

theorem countLogged_append (names : List String) (record more : List (Event Snapshot)) :
    countLogged names (record ++ more) = countLogged names record + countLogged names more :=
  List.countP_append

theorem countLogged_singleton (names : List String) (event : Event Snapshot) :
    countLogged names [event] = if event.isLogged names then 1 else 0 := by
  cases logged : event.isLogged names <;> simp [countLogged, logged]

/-- What tells of no block counts neither as entering nor as leaving one. -/
theorem countLogged_eq_zero {names : List String}
    (blocks : ∀ name ∈ names, name ∈ "block:enter" :: blockExits)
    {record : List (Event Snapshot)} (quiet : ∀ event ∈ record, ¬ event.IsOfBlock) :
    countLogged names record = 0 := by
  refine List.countP_eq_zero.mpr fun event mem logged => quiet event mem ?_
  cases event with
  | log name scope bound value =>
      exact List.contains_iff_mem.mpr (blocks name (List.contains_iff_mem.mp logged))
  | _ => cases logged

/-- An action that does not tell of a block only adds events that do not. -/
theorem Action.MayTell.not_isOfBlock {action : Action} (noBlock : action.isBlockLog = false)
    {event : Event Snapshot} (tells : action.MayTell event) :
    ¬ event.IsOfBlock := by
  intro ofBlock
  cases event with
  | log name scope bound value =>
      rcases tells with ⟨scope, value, rfl⟩ | ofVariable
      · exact Bool.false_ne_true (noBlock.symm.trans ofBlock)
      · have apart : ∀ name ∈ variableEvents, name ∉ "block:enter" :: blockExits := by decide
        exact apart name ofVariable (List.contains_iff_mem.mp ofBlock)
  | _ => cases ofBlock

/-- The events that have been added to the record of a world. -/
def World.additions (world next : World) : List (Event Snapshot) :=
  next.events.toList.drop world.events.size

theorem World.additions_eq {world next : World} {told : List (Event Snapshot)}
    (events : next.events.toList = world.events.toList ++ told) :
    world.additions next = told := by
  rw [additions, events, ← Array.length_toList, List.drop_left]

/-- An action that does not tell of a block adds no event that does. -/
theorem World.additions_quiet (options : Options) (world : World) {action : Action}
    (noBlock : action.isBlockLog = false) :
    ∀ event ∈ world.additions (world.perform options action).2, ¬ event.IsOfBlock := by
  obtain ⟨-, told, events, allowed⟩ := world.adds_perform options action
  rw [additions_eq events]
  exact fun event mem => (allowed event mem).not_isOfBlock noBlock

/-- An action that tells of a block adds one event, if the host wants to be told. -/
theorem World.additions_log (tells : options.reportsLog = true) (world : World) (name : String)
    (scope : Option String) (value : Option Value) :
    ∃ event : Event Snapshot, (∀ names, event.isLogged names = names.contains name) ∧
      world.additions (world.perform options (.log name scope value)).2 = [event] := by
  refine ⟨.log name scope none (value.map (world.store.snapshot options.detail)),
    fun _ => rfl, additions_eq ?_⟩
  simp [perform, log, tells, record]

/-! ## Chronicles -/

/-- What a chronicle of a run is made of. -/
inductive Mark where
  | told (event : Event Snapshot)
  /-- A `return`, `break` or `continue` node gives a signal. -/
  | signal

namespace Mark

/-- The events of a chronicle. -/
def events (marks : List Mark) : List (Event Snapshot) :=
  marks.filterMap fun
    | .told event => some event
    | .signal => none

/-- How many nodes have given a signal. -/
def signals (marks : List Mark) : Nat :=
  marks.countP fun
    | .told _ => false
    | .signal => true

/-- How many blocks have been entered according to a chronicle. -/
def entered (marks : List Mark) : Nat :=
  countLogged ["block:enter"] (events marks)

/-- How many times a chronicle tells that a block is left, or of the signal of a node. -/
def exited (marks : List Mark) : Nat :=
  countLogged blockExits (events marks)

/-- No prefix of a chronicle tells of more blocks left than entered, the signals made up for. -/
def Nested (marks : List Mark) : Prop :=
  ∀ earlier, earlier <+: marks → exited earlier ≤ entered earlier + signals earlier

@[simp]
theorem events_append (marks more : List Mark) :
    events (marks ++ more) = events marks ++ events more :=
  List.filterMap_append

theorem events_told (record : List (Event Snapshot)) : events (record.map .told) = record := by
  induction record with
  | nil => rfl
  | cons event rest inductive_step => exact congrArg (event :: ·) inductive_step

@[simp]
theorem entered_append (marks more : List Mark) :
    entered (marks ++ more) = entered marks + entered more := by
  rw [entered, events_append, countLogged_append]
  rfl

@[simp]
theorem exited_append (marks more : List Mark) :
    exited (marks ++ more) = exited marks + exited more := by
  rw [exited, events_append, countLogged_append]
  rfl

@[simp]
theorem signals_append (marks more : List Mark) :
    signals (marks ++ more) = signals marks + signals more :=
  List.countP_append

theorem signals_told (record : List (Event Snapshot)) : signals (record.map .told) = 0 := by
  induction record with
  | nil => rfl
  | cons event rest inductive_step => exact inductive_step

/-- The event that tells of a block that is entered. -/
theorem counts_of_entry {event : Event Snapshot}
    (logged : ∀ names, event.isLogged names = names.contains "block:enter") :
    entered [.told event] = 1 ∧ exited [.told event] = 0 := by
  refine ⟨(countLogged_singleton _ event).trans (if_pos (logged _)),
    (countLogged_singleton _ event).trans (if_neg ?_)⟩
  rw [logged]
  decide

/-- An event that tells of a block that is left. -/
theorem counts_of_exit {event : Event Snapshot} {name : String} (leaves : name ∈ blockExits)
    (logged : ∀ names, event.isLogged names = names.contains name) :
    entered [.told event] = 0 ∧ exited [.told event] = 1 := by
  have other : ∀ name ∈ blockExits, ["block:enter"].contains name = false := by decide
  refine ⟨(countLogged_singleton _ event).trans (if_neg ?_),
    (countLogged_singleton _ event).trans (if_pos ?_)⟩
  · rw [logged, other name leaves]
    exact Bool.false_ne_true
  · rw [logged]
    exact List.contains_iff_mem.mpr leaves

theorem nested_nil : Nested [] := by
  intro earlier before
  rw [List.prefix_nil.mp before]
  exact Nat.le_refl 0

/-- A chronicle that is nested is still nested after one mark more, if it balances then. -/
theorem Nested.concat {marks : List Mark} (nested : Nested marks) {mark : Mark}
    (within : exited (marks ++ [mark]) ≤ entered (marks ++ [mark]) + signals (marks ++ [mark])) :
    Nested (marks ++ [mark]) := by
  intro earlier before
  rcases List.prefix_concat_iff.mp before with rfl | before
  · exact within
  · exact nested earlier before

/-- What tells of no block can always be added. -/
theorem Nested.append_quiet {marks : List Mark} (nested : Nested marks)
    {record : List (Event Snapshot)} (quiet : ∀ event ∈ record, ¬ event.IsOfBlock) :
    Nested (marks ++ record.map .told) := by
  induction record generalizing marks with
  | nil => rwa [List.map_nil, List.append_nil]
  | cons event rest inductive_step =>
      obtain ⟨first, others⟩ := List.forall_mem_cons.mp quiet
      rw [List.map_cons, List.append_cons]
      refine inductive_step (nested.concat ?_) others
      have notLeft : exited [.told event] = 0 :=
        countLogged_eq_zero (by decide) (List.forall_mem_singleton.mpr first)
      have within := nested marks List.prefix_rfl
      rw [exited_append, entered_append, signals_append]
      omega

end Mark

namespace Task

/-- Whether a step of a task is the one in which the innermost node gives a signal. -/
def givesSignal (task : Task) (goals : List Goal) (after : Task) : Bool :=
  match task.process, after.process, goals with
  | .act _ _, .done (.answer (.error (.signal _))), goal :: _ => goal.isSignal
  | _, _, _ => false

/--
What a step adds to the chronicle of a run.  A signal is marked before the event with which
its node tells of it, so that the prefix which ends with the event has it as well.
-/
def marksOfStep (task : Task) (goals : List Goal) (world next : World) (after : Task) :
    List Mark :=
  (if task.givesSignal goals after then [.signal] else []) ++ (world.additions next).map .told

/-- The states of a task that was started in a world, with the goals under way and a chronicle. -/
inductive Chronicled (options : Options) (host : Host) (meanwhile : World → World → Prop)
    (start : World) (task : Task) : World → Task → List Goal → List Mark → Prop where
  | start : Chronicled options host meanwhile start task start task [] []
  | step {world next : World} {current after : Task} {goals : List Goal} {marks : List Mark}
      (chronicled : Chronicled options host meanwhile start task world current goals marks)
      (running : current.step options host world = .running next after) :
      Chronicled options host meanwhile start task next after (current.goalsAfter goals)
        (marks ++ current.marksOfStep goals world next after)
  | resume {world between next : World} {current after : Task} {reason : Wait}
      {goals : List Goal} {marks : List Mark}
      (chronicled : Chronicled options host meanwhile start task world current goals marks)
      (waiting : current.step options host world = .waiting between reason after)
      (changed : meanwhile between next) :
      Chronicled options host meanwhile start task next after goals marks

/-- A chronicle is kept of every state that is reached. -/
theorem Chronicled.reached {meanwhile : World → World → Prop} {start world : World}
    {task current : Task} {goals : List Goal} {marks : List Mark}
    (chronicled : Chronicled options host meanwhile start task world current goals marks) :
    Reached options host meanwhile start task world current goals := by
  induction chronicled with
  | start => exact .start
  | step _ running inductive_step => exact inductive_step.step running
  | resume _ waiting changed inductive_step => exact inductive_step.resume waiting changed

end Task

/-! ## Open blocks of a task -/

section Tally

/-- The process of the innermost of some goals, or of the script, with some open blocks. -/
inductive Process.Fits : List Goal → Nat → Process Turn → Prop where
  | opens {goals : List Goal} {blocks : Nat} {process : Process Turn}
      (noSignal : ∀ goal ∈ goals.head?, goal.isSignal = false)
      (opens : process.Opens Turn.HasFailed blocks) :
      Fits goals blocks process
  | gives {goal : Goal} {goals : List Goal} {process : Process Turn}
      (signals : goal.isSignal = true)
      (gives : process.Gives) :
      Fits (goal :: goals) 0 process
  | given {goal : Goal} {goals : List Goal} {turn : Turn}
      (signals : goal.isSignal = true)
      (given : turn.IsSignal) :
      Fits (goal :: goals) 0 (.done turn)

/-- The frames below some goals, whose processes have some blocks open together. -/
inductive Frame.OpenAll : List Frame → List Goal → Nat → Prop where
  | foot : OpenAll [] [] 0
  | barrier : OpenAll [⟨fun outcome => .done (.answer outcome), true⟩] [] 0
  | push {frame : Frame} {outer : List Frame} {goal : Goal} {goals : List Goal}
      {blocks below : Nat}
      (resumes : ∀ outcome, ¬ Rule.HasFailed outcome → (frame.resume outcome).Fits goals blocks)
      (rest : OpenAll outer goals below) :
      OpenAll (frame :: outer) (goal :: goals) (blocks + below)

/--
A state in which the blocks that were entered and not left are open in the processes of the
task, or in which an error takes the task down.
-/
inductive Task.Tallies (goals : List Goal) (marks : List Mark) : Task → Prop where
  | opens {process : Process Turn} {stack : List Frame} {blocks below : Nat}
      (fits : process.Fits goals blocks)
      (frames : Frame.OpenAll stack goals below)
      (tally : Mark.entered marks + Mark.signals marks = Mark.exited marks + (blocks + below)) :
      Tallies goals marks ⟨process, stack⟩
  | failed {error : Error} {stack : List Frame}
      (within : Mark.exited marks ≤ Mark.entered marks + Mark.signals marks) :
      Tallies goals marks ⟨.done (.answer (.error (.error error))), stack⟩

variable {mode : Mode} {goals : List Goal} {marks : List Mark}

/-- Every goal of a chain is evaluated in the mode of the script. -/
theorem Goal.Chain.runsIn {givesUp : Cause → Prop} {goal : Goal}
    (chain : Goal.Chain options givesUp mode (goal :: goals)) :
    goal.RunsIn mode := by
  obtain ⟨context, sameMode, inside⟩ := chain.inside
  cases inside <;> exact sameMode

/-- The process of a goal starts without an open block. -/
theorem Goal.Chain.fits {givesUp : Cause → Prop} {goal : Goal}
    (chain : Goal.Chain options givesUp mode (goal :: goals)) :
    (Evaluation.ofGoal options host goal).Fits (goal :: goals) 0 := by
  cases signals : goal.isSignal with
  | true =>
      refine .gives signals ?_
      cases goal with
      | evaluate node scope context =>
          exact Evaluation.gives_ofGoal options host scope context signals
      | _ => cases signals
  | false =>
      refine .opens ?_ (Evaluation.opens_ofGoal options host chain.runsIn signals)
      rintro _ ⟨⟩
      exact signals

/-- A goal that has ended without an error has no block open. -/
theorem Process.Fits.of_done {turn : Turn} {blocks : Nat}
    (fits : Process.Fits goals blocks (.done turn)) :
    turn.HasFailed ∨ blocks = 0 := by
  cases fits with
  | opens _ opens =>
      cases opens with
      | done => exact .inr rfl
      | failed failure => exact .inl failure
  | gives | given => exact .inr rfl

namespace Task

theorem Tallies.within {task : Task} (tallies : task.Tallies goals marks) :
    Mark.exited marks ≤ Mark.entered marks + Mark.signals marks := by
  cases tallies with
  | opens _ _ tally => omega
  | failed within => exact within

/-- A script starts without an open block. -/
theorem tallies_ofScript (root : Scope) (script : List Node) (mode : Mode) :
    (ofScript root script mode).Tallies [] [] := by
  have fits : (Evaluation.process (Evaluation.answering
      (Evaluation.runScript root script mode))).Fits [] 0 :=
    .opens nofun (Evaluation.opens_script root script mode)
  cases mode with
  | asynchronous => exact .opens fits .foot rfl
  | synchronous => exact .opens fits .barrier rfl

/-- What a step has to keep: the tally, and that the chronicle is nested. -/
structure Kept (goals : List Goal) (marks more : List Mark) (after : Task) : Prop where
  tallies : after.Tallies goals (marks ++ more)
  nested : Mark.Nested marks → Mark.Nested (marks ++ more)

/-- A step that does not act adds nothing to the chronicle. -/
theorem Kept.silent {outer : List Goal} {world : World} {task after : Task}
    (tallies : after.Tallies goals marks)
    (noSignal : task.givesSignal outer after = false) :
    Kept goals marks (task.marksOfStep outer world world after) after := by
  have nothing : world.additions world = [] := World.additions_eq (List.append_nil _).symm
  rw [marksOfStep, noSignal, nothing]
  show Kept goals marks [] after
  refine ⟨?_, fun nested => ?_⟩
  · rwa [List.append_nil]
  · rwa [List.append_nil]

/-- One mark more keeps a chronicle nested, if the tally is right again. -/
theorem Kept.concat {after : Task} {mark : Mark}
    (tallies : after.Tallies goals (marks ++ [mark])) :
    Kept goals marks [mark] after where
  tallies := tallies
  nested nested := nested.concat tallies.within

/-- What tells of no block leaves the tally as it is. -/
theorem Kept.quiet {process : Process Turn} {stack : List Frame} {blocks below : Nat}
    (fits : process.Fits goals blocks)
    (frames : Frame.OpenAll stack goals below)
    (tally : Mark.entered marks + Mark.signals marks = Mark.exited marks + (blocks + below))
    {record : List (Event Snapshot)} (silent : ∀ event ∈ record, ¬ event.IsOfBlock) :
    Kept goals marks (record.map .told) ⟨process, stack⟩ where
  tallies := by
    have noEntry : Mark.entered (record.map .told) = 0 := by
      rw [Mark.entered, Mark.events_told]
      exact countLogged_eq_zero (by decide) silent
    have noExit : Mark.exited (record.map .told) = 0 := by
      rw [Mark.exited, Mark.events_told]
      exact countLogged_eq_zero (by decide) silent
    refine .opens fits frames ?_
    rw [Mark.entered_append, Mark.exited_append, Mark.signals_append, noEntry, noExit,
      Mark.signals_told]
    exact tally
  nested nested := nested.append_quiet silent

/-- Outside of the nodes that give a signal no step gives one. -/
theorem givesSignal_of_noSignal {task after : Task}
    (noSignal : ∀ goal ∈ goals.head?, goal.isSignal = false) :
    task.givesSignal goals after = false := by
  unfold givesSignal
  split
  · exact noSignal _ rfl
  · rfl

/-- A node whose process goes on has not given its signal yet. -/
theorem givesSignal_of_gives {task after : Task} (gives : after.process.Gives) :
    task.givesSignal goals after = false := by
  unfold givesSignal
  split
  · rename_i ended
    rw [ended] at gives
    cases gives with
    | done noSignal => exact (noSignal ⟨_, rfl⟩).elim
  · rfl

section Acting

variable {world : World} {stack : List Frame} {blocks below : Nat} {action : Action}
variable {next : action.Reply → Process Turn}

/-- Acting keeps the tally, outside of the nodes that give a signal. -/
theorem kept_act_of_opens (tells : options.reportsLog = true) (hostless : world.store.Hostless)
    (noSignal : ∀ goal ∈ goals.head?, goal.isSignal = false)
    (opens : (Process.act action next).Opens Turn.HasFailed blocks)
    (frames : Frame.OpenAll stack goals below)
    (tally : Mark.entered marks + Mark.signals marks = Mark.exited marks + (blocks + below)) :
    Kept goals marks
      ((world.additions (world.perform options action).2).map .told)
      ⟨next (world.perform options action).1, stack⟩ := by
  cases opens with
  | @enter _ scope value _ rest =>
      obtain ⟨event, logged, added⟩ := world.additions_log tells "block:enter" scope value
      rw [added]
      obtain ⟨entry, noExit⟩ := Mark.counts_of_entry logged
      have noSignals : Mark.signals [.told event] = 0 := rfl
      refine .concat (.opens (.opens noSignal (rest ())) frames ?_)
      rw [Mark.entered_append, Mark.exited_append, Mark.signals_append]
      omega
  | @leave _ name scope value _ leaves rest =>
      obtain ⟨event, logged, added⟩ := world.additions_log tells name scope value
      rw [added]
      obtain ⟨noEntry, exits⟩ := Mark.counts_of_exit leaves logged
      have noSignals : Mark.signals [.told event] = 0 := rfl
      refine .concat (.opens (.opens noSignal (rest ())) frames ?_)
      rw [Mark.entered_append, Mark.exited_append, Mark.signals_append]
      omega
  | act noBlock rest =>
      exact .quiet (.opens noSignal (rest _ (World.expected_perform options action hostless)))
        frames tally (world.additions_quiet options noBlock)

/-- Acting keeps the tally in a node that gives a signal, whether it gives it or not. -/
theorem kept_act_of_gives (tells : options.reportsLog = true) {goal : Goal}
    (signals : goal.isSignal = true)
    (gives : (Process.act action next).Gives)
    (frames : Frame.OpenAll stack (goal :: goals) below)
    (tally : Mark.entered marks + Mark.signals marks = Mark.exited marks + (0 + below)) :
    Kept (goal :: goals) marks
      (marksOfStep ⟨.act action next, stack⟩ (goal :: goals) world (world.perform options action).2
        ⟨next (world.perform options action).1, stack⟩)
      ⟨next (world.perform options action).1, stack⟩ := by
  cases gives with
  | act noBlock rest =>
      rw [marksOfStep, givesSignal_of_gives (rest _)]
      exact .quiet (.gives signals (rest _)) frames tally (world.additions_quiet options noBlock)
  | @give name scope value next leaves given =>
      obtain ⟨turn, ⟨signal, rfl⟩, ends⟩ := given
      obtain ⟨event, logged, added⟩ := world.additions_log tells name scope value
      obtain ⟨noEntry, exits⟩ := Mark.counts_of_exit leaves logged
      have ended : next (world.perform options (.log name scope value)).1 =
        .done (.answer (.error (.signal signal))) := ends
      have giving : givesSignal ⟨.act (.log name scope value) next, stack⟩ (goal :: goals)
        ⟨.done (.answer (.error (.signal signal))), stack⟩ = true := signals
      have noSignals : Mark.signals [.told event] = 0 := rfl
      have oneSignal : Mark.signals [.signal] = 1 := rfl
      have noEvent : Mark.entered [.signal] = 0 ∧ Mark.exited [.signal] = 0 := ⟨rfl, rfl⟩
      rw [ended, marksOfStep, giving, added]
      show Kept _ _ ([.signal] ++ [.told event]) _
      refine ⟨.opens (.given signals ⟨signal, rfl⟩) frames ?_, fun nested => ?_⟩
      · simp only [Mark.entered_append, Mark.exited_append, Mark.signals_append]
        omega
      · -- the signal comes first, so the event with which the node tells of it is made up for
        rw [← List.append_assoc]
        refine (nested.concat ?_).concat ?_
        · simp only [Mark.entered_append, Mark.exited_append, Mark.signals_append]
          omega
        · simp only [Mark.entered_append, Mark.exited_append, Mark.signals_append]
          omega

end Acting

/-- An error is handed outwards, and enters and leaves nothing. -/
theorem kept_of_failed {world next : World} {error : Error} {stack : List Frame} {after : Task}
    (frames : Frame.KeepAll options (fun _ => True) mode stack goals)
    (within : Mark.exited marks ≤ Mark.entered marks + Mark.signals marks)
    (running : step options host world ⟨.done (.answer (.error (.error error))), stack⟩ =
      .running next after) :
    Kept goals.tail marks
      (marksOfStep ⟨.done (.answer (.error (.error error))), stack⟩ goals world next after)
      after := by
  cases frames with
  | foot => cases running
  | barrier atOnce =>
      cases running
      exact .silent (.failed within) rfl
  | push keeps rest =>
      cases running
      obtain ⟨turn, gave, ends⟩ := keeps.propagates error ((Law.givesUp_of _).mpr trivial)
      obtain ⟨final, rfl, -⟩ := Turn.gaveUp_iff.mp gave
      refine .silent ?_ rfl
      rw [ends]
      exact .failed within

/-- A process that asks for a goal leaves a frame with its open blocks. -/
theorem kept_of_call {world : World} {task : Task} {process : Process Turn} {frame : Frame}
    {stack : List Frame} {goal : Goal} {blocks below : Nat}
    (fits : process.Fits (goal :: goals) 0)
    (resumes : ∀ outcome, ¬ Rule.HasFailed outcome → (frame.resume outcome).Fits goals blocks)
    (frames : Frame.OpenAll stack goals below)
    (tally : Mark.entered marks + Mark.signals marks = Mark.exited marks + (blocks + below))
    (noSignal : task.givesSignal goals ⟨process, frame :: stack⟩ = false) :
    Kept (goal :: goals) marks (task.marksOfStep goals world world ⟨process, frame :: stack⟩)
      ⟨process, frame :: stack⟩ :=
  .silent (.opens fits (.push resumes frames) (by omega)) noSignal

/-- Every step of a lawful state keeps the tally. -/
theorem Tallies.step (tells : options.reportsLog = true) {world next : World} {task after : Task}
    (lawful : Lawful options (fun _ => True) mode world task goals)
    (tallies : task.Tallies goals marks)
    (running : task.step options host world = .running next after) :
    Kept (task.goalsAfter goals) marks (task.marksOfStep goals world next after) after := by
  have chainAfter := (lawful.step running).chain
  have within := tallies.within
  cases tallies with
  | failed _ => exact kept_of_failed lawful.frames within running
  | @opens process stack blocks below fits frames tally =>
      cases process with
      | done turn =>
          -- an error may come with blocks still open; from there on only `within` is left
          rcases fits.of_done with ⟨error, rfl⟩ | rfl
          · exact kept_of_failed lawful.frames within running
          · cases turn with
            | answer outcome =>
                by_cases failed : Rule.HasFailed outcome
                · obtain ⟨error, rfl⟩ := failed
                  exact kept_of_failed lawful.frames within running
                · cases frames with
                  | foot => cases running
                  | barrier =>
                      cases running
                      exact .silent (.opens (.opens nofun (.done _)) .foot tally) rfl
                  | push resumes rest =>
                      cases running
                      exact .silent (.opens (resumes outcome failed) rest (by omega)) rfl
            | again goal =>
                cases running
                have fits : (Evaluation.ofGoal options host goal).Fits (goal :: goals.tail) 0 :=
                  chainAfter.fits
                cases frames with
                | foot | barrier =>
                    cases lawful.process with
                    | done ended => exact (ended.elim id id).elim
                | push resumes rest => exact .silent (.opens fits (.push resumes rest) tally) rfl
      | act action next =>
          cases running
          cases fits with
          | opens noSignal opens =>
              rw [marksOfStep, givesSignal_of_noSignal noSignal]
              exact kept_act_of_opens tells lawful.hostless noSignal opens frames tally
          | gives signals gives => exact kept_act_of_gives tells signals gives frames tally
      | wait reason next => cases lawful.move running
      | call goal next =>
          cases running
          refine kept_of_call chainAfter.fits (fun outcome fine => ?_) frames tally rfl
          cases fits with
          | opens noSignal opens =>
              cases opens with
              | call rest => exact .opens noSignal (rest outcome fine)
          | gives signals gives =>
              cases gives with
              | call rest relays =>
                  rcases outcome with (signal | error) | value
                  · obtain ⟨turn, given, ends⟩ := relays signal
                    show (next _).Fits _ _
                    rw [ends]
                    exact .given signals given
                  · exact (fine ⟨error, rfl⟩).elim
                  · exact .gives signals (rest _ nofun)
      | drive goal next =>
          cases running
          cases fits with
          | opens noSignal opens =>
              cases opens with
              | drive rest =>
                  exact kept_of_call chainAfter.fits
                    (fun outcome fine => .opens noSignal (rest outcome fine)) frames tally rfl
          | gives signals gives => cases gives

/-- The chronicle of every state that a script reaches is nested, and its tally is right. -/
theorem Chronicled.tallies (tells : options.reportsLog = true) {start world : World} {root : Scope}
    {script : List Node} {task : Task}
    (chronicled : Chronicled options host KeepsFunctions start (ofScript root script mode)
      world task goals marks)
    (hostless : start.store.Hostless) :
    task.Tallies goals marks ∧ Mark.Nested marks := by
  induction chronicled with
  | start => exact ⟨tallies_ofScript root script mode, Mark.nested_nil⟩
  | step chronicled running inductive_step =>
      have kept := inductive_step.1.step tells
        (chronicled.reached.lawful (fun _ => True) hostless) running
      exact ⟨kept.tallies, kept.nested inductive_step.2⟩
  | resume _ waiting _ inductive_step =>
      obtain ⟨tallies, nested⟩ := inductive_step
      refine ⟨?_, nested⟩
      obtain ⟨-, next, stack, rfl, rfl⟩ := eq_of_waiting waiting
      cases tallies with
      | opens fits frames tally =>
          refine .opens ?_ frames tally
          cases fits with
          | opens noSignal opens =>
              cases opens with
              | wait rest => exact .opens noSignal rest
          | gives signals gives =>
              cases gives with
              | wait rest => exact .gives signals rest

/-- A script that has ended with a value has left every block. -/
theorem Tallies.balance {value : Value}
    (tallies : Tallies goals marks ⟨.done (.answer (.ok value)), []⟩) :
    Mark.entered marks + Mark.signals marks = Mark.exited marks := by
  cases tallies with
  | opens fits frames tally =>
      rcases fits.of_done with ⟨error, same⟩ | rfl
      · cases same
      · cases frames
        exact tally

/-- The chronicle of a run that ends is that of its last state. -/
theorem Chronicled.exists_last {start world reached : World} {root : Scope}
    {script : List Node} {task : Task} {outcome : Outcome}
    (chronicled : Chronicled options host KeepsFunctions start (ofScript root script mode)
      world task goals marks)
    (hostless : start.store.Hostless)
    (recorded : world.events.toList = start.events.toList ++ Mark.events marks)
    (ends : task.Ends options host world reached outcome) :
    ∃ goals marks,
      Chronicled options host KeepsFunctions start (ofScript root script mode) reached
        ⟨.done (.answer outcome), []⟩ goals marks ∧
      reached.events.toList = start.events.toList ++ Mark.events marks := by
  induction ends generalizing goals marks with
  | finish finished =>
      obtain ⟨rfl, rfl⟩ := eq_of_finished finished
      exact ⟨goals, marks, chronicled, recorded⟩
  | @step world between _ task next _ running _ inductive_step =>
      refine inductive_step (chronicled.step running) ?_
      have added : world.events.toList ++ world.additions between = between.events.toList :=
        List.prefix_iff_eq_append.mp (onward_step running).events
      have told : Mark.events (task.marksOfStep goals world between next) =
          world.additions between := by
        rw [marksOfStep, Mark.events_append, Mark.events_told]
        split <;> rfl
      rw [Mark.events_append, told, ← List.append_assoc, ← recorded, added]
  | resume waiting _ _ inductive_step =>
      obtain ⟨rfl, -⟩ := eq_of_waiting waiting
      have lawful := chronicled.reached.lawful (fun _ => True) hostless
      exact inductive_step (chronicled.resume waiting ⟨lawful.hostless, .refl _⟩) recorded

end Task

end Tally

/-! ## Runs -/

namespace Interpreter

/-- The delivery of an error tells of no block. -/
theorem adds_conclude (options : Options) (delivers : Bool) (outcome : Outcome) (world : World) :
    world.Adds (fun event => ¬ event.IsOfBlock) (conclude options delivers outcome world).2 := by
  unfold conclude
  split
  · exact .refl world
  · rename_i error _
    split
    · have delivered : world.Adds (fun event => ¬ event.IsOfBlock)
          (world.deliver options error).2 := .deliver options error world (fun _ => nofun) nofun
      split
      · rename_i handed
        rw [handed] at delivered
        exact delivered
      · rename_i handed
        rw [handed] at delivered
        exact delivered
    · exact .refl world

/--
Block events balance.  Take a script without functions of the host, in an interpreter whose
host wants to be told.  In no prefix of the chronicle of any state that it reaches, whether
it ends, fails or goes on forever, are there more blocks left than entered, once the signals
of nodes are made up for.  When the script ends, the host has been told a chronicle and what
the delivery of an error adds, which tells of no block.  And if it ends with a value, then
that is all, and as many blocks have been left as entered.
-/
theorem block_events_balance (interpreter : Interpreter)
    (tells : interpreter.options.reportsLog = true)
    (hostless : interpreter.world.store.Hostless)
    (script : List Node) (mode : Mode) :
    let IsChronicled := Task.Chronicled interpreter.options interpreter.host Task.KeepsFunctions
      interpreter.world (.ofScript interpreter.root script mode)
    (∀ world task goals marks, IsChronicled world task goals marks → Mark.Nested marks) ∧
    ∀ fuel polls verdict reached,
      complete fuel polls interpreter (interpreter.launch script mode) = some (verdict, reached) →
      ∃ world task goals marks delivered,
        IsChronicled world task goals marks ∧
        reached.world.events.toList =
          interpreter.world.events.toList ++ Mark.events marks ++ delivered ∧
        (∀ event ∈ delivered, ¬ event.IsOfBlock) ∧
        ∀ value, verdict = .ok (some value) →
          task = ⟨.done (.answer (.ok value)), []⟩ ∧ delivered = [] ∧
            Mark.entered marks + Mark.signals marks = Mark.exited marks := by
  intro IsChronicled
  refine ⟨fun world task goals marks chronicled => (chronicled.tallies tells hostless).2, ?_⟩
  intro fuel polls verdict reached completed
  by_cases empty : script = []
  · subst empty
    have nothing : verdict = .ok none ∧ reached = interpreter := by
      cases mode <;> cases polls <;> cases completed <;> exact ⟨rfl, rfl⟩
    obtain ⟨rfl, rfl⟩ := nothing
    exact ⟨_, _, _, [], [], .start, (List.append_nil _).trans (List.append_nil _) |>.symm,
      List.forall_mem_nil _, nofun⟩
  · rw [launch_eq_start interpreter empty mode] at completed
    obtain ⟨world, outcome, ends, concluded⟩ := ends_of_complete completed rfl rfl
    obtain ⟨goals, marks, chronicled, recorded⟩ :=
      Task.Chronicled.start.exists_last hostless (List.append_nil _).symm ends
    obtain ⟨rfl, rfl⟩ := Prod.mk.inj concluded
    obtain ⟨-, delivered, events, silent⟩ :=
      adds_conclude interpreter.options (mode == .asynchronous) outcome world
    refine ⟨world, _, goals, marks, delivered, chronicled, ?_, silent, ?_⟩
    · rw [← recorded]
      exact events
    · intro value isValue
      rcases conclude_eq_value_iff.mp isValue with rfl
      refine ⟨rfl, ?_, (chronicled.tallies tells hostless).1.balance⟩
      exact List.append_cancel_left (events.symm.trans (List.append_nil _).symm)

/-- The script `fn() { { return true } }()`. -/
def returningBlock : List Node :=
  [.of (.call (.of (.function [] [.of (.block none [.of (.returning (.of (.bool true)))])])) [])]

/-- Three blocks are entered, of which one is left with a value and two by the signal of a node. -/
theorem block_events_balance_returning :
    let interpreter := create { Options.silent 0 0 with reportsLog := true } Host.none [] [] []
    ∃ reached marks,
      complete 60 1 interpreter (interpreter.launch returningBlock .synchronous) =
        some (.ok (some (.bool true)), reached) ∧
      reached.world.events.toList = Mark.events marks ∧
      Mark.entered marks = 3 ∧ Mark.exited marks = 4 ∧ Mark.signals marks = 1 := by
  intro interpreter
  have ended : ∃ reached,
      complete 60 1 interpreter (interpreter.launch returningBlock .synchronous) =
        some (.ok (some (.bool true)), reached) ∧
      countLogged ["block:enter"] reached.world.events.toList = 3 ∧
      countLogged blockExits reached.world.events.toList = 4 := ⟨_, rfl, rfl, rfl⟩
  obtain ⟨reached, completed, entries, exits⟩ := ended
  obtain ⟨world, task, goals, marks, delivered, -, events, -, balanced⟩ :=
    (block_events_balance interpreter rfl (hostless_create _ _ _ _) returningBlock
      .synchronous).2 _ _ _ _ completed
  obtain ⟨-, rfl, balance⟩ := balanced _ rfl
  have told : reached.world.events.toList = Mark.events marks := by
    rw [events, List.append_nil]
    rfl
  have entered : Mark.entered marks = 3 := by rw [Mark.entered, ← told, entries]
  have exited : Mark.exited marks = 4 := by rw [Mark.exited, ← told, exits]
  exact ⟨reached, marks, completed, told, entered, exited, by omega⟩

end Interpreter

end TreeScript
