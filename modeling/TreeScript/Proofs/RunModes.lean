import TreeScript.CommandLine.Program
import TreeScript.Proofs.Parity
import TreeScript.Proofs.Reports

/-!
# The two modes of the command line

A script that is run at once returns its error to the command line.  A script that
may be suspended hands its error to a host that keeps the first one it is told, and
that may abort the interpreter; the run then ends without a value.  The report on
both runs is the same: nothing that is only recorded in one of them is written, and
as no script hands errors to its host on its own, the first error that is told is
the error of the script.
-/

namespace TreeScript

/-! ## What a record shows -/

/-- Whether the command line writes something when it is told of an event. -/
def Event.isWritten {α : Type} : Event α → Bool
  | .print _ => true
  | .prompt _ => true
  | _ => false

namespace World

variable {world other : World}

/-- The events of a record that something is written for. -/
def writings (world : World) : List (Event Snapshot) :=
  world.events.toList.filter Event.isWritten

theorem writings_quiet (world : World) : world.quiet.writings = world.writings := by
  rw [writings, quiet, Array.toList_filter, List.filter_filter]
  refine List.filter_congr fun event _ => ?_
  cases event <;> rfl

theorem failures_quiet (world : World) : world.quiet.failures = world.failures := by
  rw [failures, quiet, Array.toList_filter, List.filterMap_filter]
  refine congrArg (List.filterMap · _) (funext fun event => ?_)
  cases event <;> rfl

/-- Nothing is written for what is added to the record besides prints and prompts. -/
theorem Adds.writings_eq {kind : Event Snapshot → Prop} (adds : world.Adds kind other)
    (unwritten : ∀ event, kind event → event.isWritten = false) :
    other.writings = world.writings := by
  obtain ⟨-, told, events, allowed⟩ := adds
  have nothing : told.filter Event.isWritten = [] :=
    List.filter_eq_nil_iff.mpr fun event listed => by
      rw [unwritten event (allowed event listed)]
      exact Bool.false_ne_true
  rw [writings, events, List.filter_append, nothing, List.append_nil]
  rfl

theorem writings_deliver (options : Options) (error : Error) (world : World) :
    (world.deliver options error).2.writings = world.writings := by
  have adds : world.Adds (fun event => event.isWritten = false) (world.deliver options error).2 :=
    .deliver options error world (fun _ => rfl) rfl
  exact adds.writings_eq fun _ => id

end World

namespace CommandLine.Program

theorem output_eq (world : World) :
    output world.events = String.join (world.writings.map written) := by
  rw [output, World.writings]
  induction world.events.toList with
  | nil => rfl
  | cons event events inductive_step =>
      cases event <;>
        simp [List.filter_cons, Event.isWritten, String.join_cons, inductive_step, written]

theorem promptCount_eq (world : World) :
    promptCount world.events = world.writings.countP fun event =>
      match event with
      | .prompt _ => true
      | _ => false := by
  rw [promptCount, World.writings, List.countP_filter]
  refine List.countP_congr fun event _ => ?_
  cases event <;> simp [Event.isWritten]

theorem firstFailure?_eq (world : World) :
    firstFailure? world.events = world.failures.head? := by
  rw [World.failures, List.head?_filterMap, firstFailure?]
  refine congrArg (List.findSome? · _) (funext fun event => ?_)
  cases event <;> rfl

section Reports

variable {command : RunCommand} {context : String} {verdict verdict' : Verdict}
variable {world other : World}

/-- The report on a failure is about the error and about what has been written before it. -/
theorem runReport_of_failure {error : Error} (writings : world.writings = other.writings)
    (failed : failure? verdict world.events = some error)
    (failed' : failure? verdict' other.events = some error) :
    runReport command context verdict world = runReport command context verdict' other := by
  simp only [runReport, failed, failed', output_eq, promptCount_eq, writings]

theorem failure?_congr (failures : world.failures = other.failures) :
    failure? verdict world.events = failure? verdict other.events := by
  cases verdict with
  | error error => rfl
  | ok value =>
      show firstFailure? world.events = firstFailure? other.events
      rw [firstFailure?_eq, firstFailure?_eq, failures]

/-- A report does not depend on what is recorded but not written. -/
theorem runReport_congr (writings : world.writings = other.writings)
    (failures : world.failures = other.failures) (store : world.store = other.store) :
    runReport command context verdict world = runReport command context verdict other := by
  simp only [runReport, failure?_congr failures, output_eq, promptCount_eq, writings, store]

end Reports

/-! ## Runs -/

/-- A run of the command line starts without functions of the host. -/
theorem exists_create_of_prepare {files : Files} {command : RunCommand} {input : String}
    {script : List Node} {interpreter : Interpreter}
    (prepared : prepare files command input = .ok (script, interpreter)) :
    ∃ irq constants, interpreter = Interpreter.create (runOptions command irq) Host.none []
      constants (inputLines input) := by
  cases rate : Irq.create command.irqRate (command.irqSleep.map .timed) with
  | error error =>
      simp only [prepare, rate] at prepared
      obtain ⟨found, -, prepared⟩ := Except.bind_eq_ok_iff.mp prepared
      split at prepared
      · obtain ⟨constants, -, ⟨⟩⟩ := Except.bind_eq_ok_iff.mp prepared
      · cases prepared
  | ok irq =>
      simp only [prepare, rate] at prepared
      obtain ⟨found, -, prepared⟩ := Except.bind_eq_ok_iff.mp prepared
      split at prepared
      · obtain ⟨constants, -, ⟨⟩⟩ := Except.bind_eq_ok_iff.mp prepared
        exact ⟨irq, constants, rfl⟩
      · cases prepared
        exact ⟨irq, [], rfl⟩

/-- Evaluation has not been stopped, and the host was told of no error. -/
def IsUndisturbed (world : World) : Prop :=
  world.lifecycle.isStopped = false ∧ world.failures = []

theorem isKept_isUndisturbed (options : Options) : Task.IsKept options IsUndisturbed := by
  rintro world action hostless ⟨running, failures⟩
  constructor
  · rw [(World.perform_keeps options action hostless).2.1]
    exact running
  · rw [World.failures_perform options world action]
    · exact failures
    · rintro error rfl
      exact hostless

theorem failures_deliver_of_isUndisturbed {options : Options} {world : World}
    (reports : options.reportsErrors = true) (undisturbed : IsUndisturbed world) (error : Error) :
    (world.deliver options error).2.failures = [error] := by
  obtain ⟨running, failures⟩ := undisturbed
  rw [World.failures_deliver, failures, running, Report.course, if_pos reports]
  cases options.abortOnError <;> rfl

/-- An error that the host wants to be told of is handed to it, and the run has no value. -/
theorem conclude_delivering {options : Options} {outcome : Outcome} {world : World} {error : Error}
    (reports : options.reportsErrors = true) (expected : outcome.expectValue = .error error) :
    Interpreter.conclude options true outcome world =
      (.ok none, (world.deliver options error).2) := by
  have handed : (world.deliver options error).1 = none := by
    unfold World.deliver
    rw [if_pos reports]
    split
    · split <;> rfl
    · rfl
  cases delivered : world.deliver options error with
  | mk returned told =>
      obtain rfl : returned = none := by rw [← handed, delivered]
      simp only [Interpreter.conclude, expected, if_pos, delivered]

/--
When the run at once of a script ends, and was not refused a promise, the run that may be
suspended ends, and the report on it is the same.
-/
theorem exists_runScript {fuel : Nat} {command : RunCommand} {script : List Node}
    {interpreter reached : Interpreter} {verdict : Verdict} (context : String)
    (hostless : interpreter.world.store.Hostless)
    (unpaused : interpreter.world.lifecycle.pause = none)
    (undisturbed : IsUndisturbed interpreter.world)
    (reports : interpreter.options.reportsErrors = true)
    (ran : runScript fuel { command with isSynchronous := true } script interpreter =
      some (verdict, reached))
    (notRefused : ∀ error, verdict = .error error → error.cause ≠ .refusedPromise) :
    ∃ enough, ∀ more, enough ≤ more → ∃ verdict' reached',
      runScript more { command with isSynchronous := false } script interpreter =
        some (verdict', reached') ∧
      runReport command context verdict' reached'.world =
        runReport command context verdict reached.world := by
  cases script with
  | nil =>
      refine ⟨fuel, fun more enough => ⟨verdict, reached, ?_, rfl⟩⟩
      exact Interpreter.complete_mono enough enough ran
  | cons node rest =>
      obtain ⟨-, outcome, other, rfl, ends, quiet, undisturbed⟩ :=
        Interpreter.exists_ends_of_follows (isKept_isUndisturbed interpreter.options)
          (Interpreter.follows_script interpreter.root (node :: rest)) (.answering .nil) hostless
          unpaused undisturbed ran notRefused
      obtain ⟨enough, completes⟩ := Interpreter.exists_enough_of_ends ends true
      refine ⟨enough, fun more isEnough => ⟨_, _, completes more more isEnough isEnough, ?_⟩⟩
      have writings : other.writings = reached.world.writings := by
        rw [← World.writings_quiet, quiet, World.writings_quiet]
      have failures : other.failures = reached.world.failures := by
        rw [← World.failures_quiet, quiet, World.failures_quiet]
      cases expected : outcome.expectValue with
      | ok value =>
          have store : other.quiet.store = reached.world.quiet.store := congrArg World.store quiet
          simp only [Interpreter.conclude, expected]
          exact runReport_congr writings failures store
      | error error =>
          have told : firstFailure? (other.deliver interpreter.options error).2.events =
              some error := by
            rw [firstFailure?_eq, failures_deliver_of_isUndisturbed reports undisturbed]
            rfl
          rw [conclude_delivering reports expected]
          exact runReport_of_failure
            ((World.writings_deliver interpreter.options error other).trans writings) told rfl

/-! ## Arguments -/

end CommandLine.Program

namespace CommandLine

/-- The flag that a script is run at once, in front of other arguments. -/
theorem items?_sync {arguments : List String} {items : List Item}
    (sorted : items? flags options arguments.length arguments = some items) :
    items? flags options ("--sync" :: arguments).length ("--sync" :: arguments) =
      some (.flag "--sync" :: items) := by
  have split : splitValue "--sync" = ("--sync", none) := by decide
  have isFlag : (flags.contains "--sync" && (none : Option String).isNone) = true := by decide
  rw [List.length_cons, items?, if_neg (by decide), if_pos (by decide)]
  simp only [split, isFlag, if_true, sorted, Option.map_some]

theorem flag?_sync {items : List Item} (absent : flag? items "--sync" = some false) :
    flag? (.flag "--sync" :: items) "--sync" = some true := by
  unfold flag? at absent ⊢
  rw [List.filter_cons_of_pos (by decide)]
  dsimp only at absent ⊢
  split at absent
  · rename_i none
    simp only [none]
  · cases absent
  · cases absent

theorem flag?_of_ne {items : List Item} {name : String} (other : name ≠ "--sync") :
    flag? (.flag "--sync" :: items) name = flag? items name := by
  unfold flag?
  rw [List.filter_cons_of_neg (by simpa using other.symm)]

/-- The flag makes the run one at once, and changes nothing else. -/
theorem runCommand?_sync {arguments : List String} {command : RunCommand}
    (parsed : runCommand? arguments = some command) (suspends : command.isSynchronous = false) :
    runCommand? ("--sync" :: arguments) = some { command with isSynchronous := true } := by
  simp only [runCommand?, bind, pure, Option.bind_eq_some_iff, Option.some.injEq] at parsed
  obtain ⟨items, sorted, input, file, isSynchronous, absent, stepLimit, limit, irqRate, rate,
    irqSleep, sleep, abortOnError, aborts, constants, bound, listsTree, lists, printsResult,
    prints, rfl⟩ := parsed
  obtain rfl : isSynchronous = false := suspends
  have file : onlyFile? (.flag "--sync" :: items) = some input := file
  have limit : value? count? (.flag "--sync" :: items) "--max-step" = some stepLimit := limit
  have rate : value? number? (.flag "--sync" :: items) "--irq-rate" = some irqRate := rate
  have sleep : value? number? (.flag "--sync" :: items) "--irq-sleep" = some irqSleep := sleep
  have bound : value? path? (.flag "--sync" :: items) "--consts" = some constants := bound
  rw [← flag?_of_ne (by decide)] at aborts lists prints
  simp only [runCommand?, bind, pure, items?_sync sorted, flag?_sync absent, file, limit, rate,
    sleep, aborts, bound, lists, prints, Option.bind_some]

end CommandLine

namespace CommandLine.Program

/-! ## Reports -/

/--
The command line reports the same in both modes: whenever the run at once ends, and was
not refused a promise, the run that may be suspended ends with the same exit code, the
same output and the same messages.
-/
theorem perform_of_synchronous {fuel : Nat} {arguments synchronous : List String}
    {command : RunCommand} {files : Files} {input : String} {report : Report}
    (parsed : Command.ofArguments? arguments = some (.run { command with isSynchronous := false }))
    (parsed' : Command.ofArguments? synchronous =
      some (.run { command with isSynchronous := true }))
    (reported : perform fuel synchronous files input = some report)
    (notRefused : ∀ script interpreter error reached,
      prepare files command input = .ok (script, interpreter) →
      runScript fuel { command with isSynchronous := true } script interpreter =
        some (.error error, reached) →
      error.cause ≠ .refusedPromise) :
    ∃ enough, ∀ more, enough ≤ more → perform more arguments files input = some report := by
  simp only [perform, parsed'] at reported
  simp only [perform, parsed]
  split at reported
  · rename_i lists
    exact ⟨0, fun _ _ => by rw [if_pos lists]; exact reported⟩
  · rename_i runs
    simp only [if_neg runs]
    have same : prepare files { command with isSynchronous := true } input =
        prepare files command input := rfl
    have same' : prepare files { command with isSynchronous := false } input =
        prepare files command input := rfl
    unfold run at reported ⊢
    rw [same] at reported
    rw [same']
    cases prepared : prepare files command input with
    | error failure =>
        rw [prepared] at reported
        exact ⟨0, fun _ _ => reported⟩
    | ok both =>
        obtain ⟨script, interpreter⟩ := both
        rw [prepared] at reported
        obtain ⟨⟨verdict, reached⟩, ran, rfl⟩ := Option.map_eq_some_iff.mp reported
        obtain ⟨irq, constants, rfl⟩ := exists_create_of_prepare prepared
        have hostless := Interpreter.hostless_create (runOptions command irq) Host.none constants
          (inputLines input)
        obtain ⟨enough, completes⟩ := exists_runScript ("failed to run " ++ command.input) hostless
          rfl ⟨rfl, rfl⟩ rfl ran fun error failed =>
            notRefused script _ error reached prepared (failed ▸ ran)
        refine ⟨enough, fun more isEnough => ?_⟩
        obtain ⟨verdict', reached', completed, reports⟩ := completes more isEnough
        exact Option.map_eq_some_iff.mpr ⟨_, completed, reports⟩

/-- A directory with one script, which prints a text and then reads a name that is not bound. -/
def helloFiles : Files := fun path =>
  if path = "hello.json" then
    .text ("[\x7b\"type\":\"call\"," ++
      "\"target\":\x7b\"type\":\"identifier\",\"name\":\"print\"\x7d," ++
      "\"args\":[\x7b\"type\":\"str\",\"value\":\"hello\"\x7d]\x7d," ++
      "\x7b\"type\":\"identifier\",\"name\":\"x\"\x7d]")
  else .missing

theorem perform_of_synchronous_hello :
    ∃ report enough,
      perform 100 ["run", "--sync", "--abort-on-error", "hello.json"] helloFiles "" = some report ∧
      report.code = failureCode ∧
      ∀ more, enough ≤ more →
        perform more ["run", "--abort-on-error", "hello.json"] helloFiles "" = some report := by
  let command : RunCommand :=
    ⟨"hello.json", false, none, none, none, true, none, false, false⟩
  have parsed : runCommand? ["--abort-on-error", "hello.json"] = some command := by rfl
  have fails : (perform 100 ["run", "--sync", "--abort-on-error", "hello.json"] helloFiles "").any
      (fun report => report.code == failureCode) = true := by decide +kernel
  obtain ⟨report, reported, code⟩ := (Option.any_eq_true _ _).mp fails
  have causes : ((prepare helloFiles command "").toOption.bind fun found =>
      runScript 100 { command with isSynchronous := true } found.1 found.2).all (fun ended =>
        (failure? ended.1 #[]).all fun error => error.cause != .refusedPromise) = true := by
    decide +kernel
  have suspends : Command.ofArguments? ["run", "--abort-on-error", "hello.json"] =
      some (.run { command with isSynchronous := false }) :=
    congrArg (Option.map Command.run) parsed
  have runsAtOnce : Command.ofArguments? ["run", "--sync", "--abort-on-error", "hello.json"] =
      some (.run { command with isSynchronous := true }) :=
    congrArg (Option.map Command.run) (runCommand?_sync parsed rfl)
  obtain ⟨enough, suspended⟩ := perform_of_synchronous suspends runsAtOnce reported
    (fun script interpreter error reached prepared ran => by
      rw [prepared, Except.toOption, Option.bind_some, ran] at causes
      simpa [failure?] using causes)
  exact ⟨report, enough, reported, eq_of_beq code, suspended⟩

end CommandLine.Program

end TreeScript
