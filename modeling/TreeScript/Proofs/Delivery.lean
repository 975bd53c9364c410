import TreeScript.Proofs.EntryPoints
import TreeScript.Proofs.Patience
import TreeScript.Proofs.Reports
import TreeScript.Proofs.StoppedSessions

/-!
# The delivery of errors

What becomes of the errors of executions can be read off the states that evaluation
goes through: an execution fails where its error is delivered, the host is told where
an error is recorded, and the error is returned where the execution answers with it.
`Session.reports` lists all this in order for one request, and `Session.History` for all
requests since the beginning.

The invariant is that errors are delivered last of all (`Task.DeliversLast`), and that no
evaluation that is driven wants to wait (`Task.Layered`), which would be an error that
nobody delivers.  Then every report belongs to the course of an error, and a session
goes through the courses of its errors one after the other
(`Session.errors_reach_host_or_caller`).
-/

namespace TreeScript

/-! ## Reports of what happens -/

namespace Report

/-- The report of an outcome that ends an execution without a delivery. -/
def ofOutcome (outcome : Outcome) : List Report :=
  match outcome.expectValue with
  | .ok _ => []
  | .error error => [.failed error, .returned error]

/-- The report of a verdict on an execution. -/
def ofVerdict : Verdict → List Report
  | .ok _ => []
  | .error error => [.returned error]

end Report

namespace Task

/-- The report of an error that a task answers with. -/
def answered (task : Task) : List Report :=
  match task.process with
  | .done (.answer (.error (.error error))) => [.returned error]
  | _ => []

/--
What is reported of a step: what becomes of an error that is delivered, or else what the
host is told.  An evaluation that is driven and wants to wait fails without a delivery.
-/
def stepReports (world : World) (task : Task) (next : World) (after : Task) : List Report :=
  match task.process with
  | .act (.deliver error) _ => .failed error :: (world.news next ++ after.answered)
  | .wait _ _ => Report.ofOutcome cannotWait ++ world.news next
  | _ => world.news next

/-- What is reported of a task, as far as the fuel goes. -/
def reports (options : Options) (host : Host) : Nat → World → Task → List Report
  | 0, _, _ => []
  | fuel + 1, world, task =>
      match task.step options host world with
      | .running next after =>
          task.stepReports world next after ++ reports options host fuel next after
      | _ => []

end Task

namespace Interpreter

/-- What is reported of a verdict: what becomes of an error, or else what the host is told. -/
def verdictReports (options : Options) (delivers : Bool) (outcome : Outcome) (world : World) :
    List Report :=
  let (verdict, next) := conclude options delivers outcome world
  match delivers, outcome.expectValue with
  | true, .error error => .failed error :: (world.news next ++ Report.ofVerdict verdict)
  | _, _ => world.news next

/-- What is reported when a run is polled. -/
def reports (interpreter : Interpreter) (fuel : Nat) (run : Run) : List Report :=
  match run.task with
  | none => []
  | some task =>
      if run.isReady interpreter.world.lifecycle then
        task.reports interpreter.options interpreter.host fuel interpreter.world ++
          match Task.run interpreter.options interpreter.host fuel interpreter.world task with
          | some (.finished world outcome) =>
              verdictReports interpreter.options run.delivers outcome world
          | _ => []
      else []

/-- What is reported when a run is polled until it ends. -/
def completeReports (fuel : Nat) : Nat → Interpreter → Run → List Report
  | 0, _, _ => []
  | polls + 1, interpreter, run =>
      interpreter.reports fuel run ++
        match interpreter.poll fuel run with
        | some (.pending run, interpreter) =>
            if run.isReady interpreter.world.lifecycle then
              completeReports fuel polls interpreter run
            else []
        | _ => []

end Interpreter

namespace Session

/-- What is reported of a request, as far as the fuel goes. -/
def reports (fuel : Nat) (session : Session) : Request → List Report
  | .execute .synchronous (some script) _ =>
      Interpreter.completeReports fuel fuel session.interpreter
        (session.interpreter.startAtOnce script)
  | .execute .asynchronous (some script) _ =>
      Interpreter.completeReports fuel fuel session.interpreter (session.interpreter.start script)
  | .call style callee arguments _ =>
      match session.buildAll (callee :: arguments) with
      | (some (callee :: arguments), session) =>
          Interpreter.completeReports fuel fuel session.interpreter
            (Interpreter.startCall callee arguments style)
      | _ => []
  | .poll id _ =>
      match session.runs.lookup id with
      | some run => session.interpreter.reports fuel run
      | none => []
  | _ => []

/-- The sessions that are reached by requests, with all that is reported on the way. -/
inductive History (session : Session) : List Report → Session → Prop where
  | start : History session [] session
  | answer {between after : Session} {fuel : Nat} {request : Request} {answer : Answer}
      {past : List Report}
      (history : History session past between)
      (answered : between.answer fuel request = some (answer, after)) :
      History session (past ++ between.reports fuel request) after
  | takeEvents {between : Session} {past : List Report}
      (history : History session past between) :
      History session past between.takeEvents.2

end Session

/-! ## Courses and the record -/

/-- What is reported between two worlds: the courses of errors, and what is recorded. -/
structure World.Tells (options : Options) (world next : World) (reports : List Report) : Prop where
  courses : Report.Courses options world.lifecycle.isStopped reports next.lifecycle.isStopped
  record : next.failures = world.failures ++ reports.filterMap Report.told?

namespace World.Tells

variable {options : Options} {world between next : World} {reports more : List Report}

theorem quiet (evolves : world.lifecycle.Evolves next.lifecycle)
    (same : next.failures = world.failures) :
    world.Tells options next [] where
  courses := .quiet evolves.isStopped
  record := by rw [same, List.filterMap_nil, List.append_nil]

theorem refl (world : World) : world.Tells options world [] :=
  quiet .refl rfl

theorem trans (first : world.Tells options between reports)
    (second : between.Tells options next more) :
    world.Tells options next (reports ++ more) where
  courses := first.courses.trans second.courses
  record := by rw [second.record, first.record, List.filterMap_append, List.append_assoc]

theorem deliver (options : Options) (error : Error) (world : World) :
    world.Tells options (world.deliver options error).2
      (.failed error :: (world.news (world.deliver options error).2 ++
        World.handedBack (world.deliver options error).1)) := by
  rw [world.reports_deliver options]
  refine ⟨?_, world.failures_deliver options error⟩
  rw [world.isStopped_deliver options]
  exact .single error

end World.Tells

/-! ## Tasks -/

/-- A task that delivers errors last of all, and is driven only where it need not wait. -/
structure Task.IsCandid (task : Task) : Prop where
  delivers : task.DeliversLast
  layered : ∃ foot, task.Layered foot

/-- What a step leads to is a candid task, if it is suspended. -/
def Progress.IsCandid : Progress → Prop
  | .waiting _ _ task => task.IsCandid
  | _ => True

namespace Task

variable {options : Options} {host : Host} {world next : World} {task after : Task}

theorem answered_afterDelivery (returned : Option Error) (stack : List Frame) :
    Task.answered ⟨.done (.answer (Evaluation.afterDelivery returned)), stack⟩ =
      World.handedBack returned := by
  cases returned <;> rfl

theorem IsCandid.step (candid : task.IsCandid) (built : host.IsBuilt) (discreet : host.IsDiscreet)
    (running : task.step options host world = .running next after) :
    after.IsCandid := by
  obtain ⟨foot, layered⟩ := candid.layered
  exact ⟨candid.delivers.step discreet running, foot, layered.step built running⟩

theorem IsCandid.resume (candid : task.IsCandid) {reason : Wait}
    (waiting : task.step options host world = .waiting next reason after) :
    after.IsCandid := by
  obtain ⟨foot, layered⟩ := candid.layered
  exact ⟨candid.delivers.resume waiting, foot, (layered.resume waiting).1⟩

/-- A step reports the course of an error, or nothing. -/
theorem IsCandid.tells_step (candid : task.IsCandid)
    (running : task.step options host world = .running next after) :
    world.Tells options next (task.stepReports world next after) := by
  obtain ⟨foot, layered⟩ := candid.layered
  have waitless {reason : Wait} {rest : Process Turn}
      (waits : task.process = .wait reason rest) : barrier? task.stack = none :=
    (layered.of_wait waits).1
  obtain ⟨last, -⟩ := candid.delivers
  rcases task with ⟨process, stack⟩
  have silent : world.Tells options world (world.news world) := by
    rw [World.news_of_eq rfl]
    exact .refl world
  cases last with
  | done turn =>
      cases turn with
      | answer outcome =>
          cases stack with
          | nil => cases running
          | cons frame outer =>
              cases running
              exact silent
      | again goal =>
          cases running
          exact silent
  | @act action _ other _ =>
      cases running
      have same := world.failures_perform options action other
      have quiet : world.Tells options (world.perform options action).2
          (world.news (world.perform options action).2) := by
        rw [World.news_of_eq same]
        exact .quiet (world.evolves_perform options action) same
      cases action with
      | deliver error => exact (other error rfl).elim
      | _ => exact quiet
  | deliver error =>
      cases running
      have told := World.Tells.deliver options error world
      rw [← answered_afterDelivery (world.deliver options error).1 stack] at told
      exact told
  | wait _ =>
      rw [step_wait (waitless rfl)] at running
      cases running
  | call _ | drive _ =>
      cases running
      exact silent

/-- What is reported of a run of a task are the courses of its errors. -/
theorem IsCandid.tells_run (candid : task.IsCandid) (options : Options) (built : host.IsBuilt)
    (discreet : host.IsDiscreet) (fuel : Nat) (world : World) :
    ∃ reached, world.Tells options reached (task.reports options host fuel world) ∧
      ∀ progress, task.run options host fuel world = some progress →
        progress.world = reached ∧ progress.IsCandid := by
  induction fuel generalizing world task with
  | zero => exact ⟨world, .refl world, nofun⟩
  | succ fuel inductive_step =>
      rw [Task.reports, Task.run]
      cases stepped : task.step options host world with
      | running next after =>
          obtain ⟨reached, tells, ends⟩ :=
            inductive_step (candid.step built discreet stepped) next
          exact ⟨reached, (candid.tells_step stepped).trans tells, ends⟩
      | waiting between reason after =>
          refine ⟨world, .refl world, fun progress ran => ?_⟩
          cases ran
          exact ⟨(eq_of_waiting stepped).1, candid.resume stepped⟩
      | finished reached outcome =>
          refine ⟨world, .refl world, fun progress ran => ?_⟩
          cases ran
          exact ⟨(eq_of_finished stepped).1, trivial⟩

end Task

/-! ## Runs -/

/-- A run of a candid task, if it is of any. -/
def Run.IsCandid (run : Run) : Prop :=
  ∀ task ∈ run.task, task.IsCandid

/-- What polling gives is a candid run, if it is any. -/
def Polled.IsCandid : Polled → Prop
  | .pending run => run.IsCandid
  | .ended _ => True

namespace Interpreter

variable {interpreter after : Interpreter} {run : Run}

theorem tells_conclude (options : Options) (delivers : Bool) (outcome : Outcome) (world : World) :
    world.Tells options (conclude options delivers outcome world).2
      (verdictReports options delivers outcome world) := by
  have silent : world.Tells options world (world.news world) := by
    rw [World.news_of_eq rfl]
    exact .refl world
  unfold verdictReports conclude
  cases delivers with
  | false =>
      cases outcome.expectValue <;> exact silent
  | true =>
      cases outcome.expectValue with
      | ok value => exact silent
      | error error =>
          have told := World.Tells.deliver options error world
          dsimp only
          rw [if_pos rfl]
          generalize world.deliver options error = delivered at told ⊢
          rcases delivered with ⟨_ | returned, next⟩ <;> exact told

/-- What is reported of a poll are the courses of errors, and what is left stays candid. -/
theorem tells_poll (built : interpreter.host.IsBuilt) (discreet : interpreter.host.IsDiscreet)
    (fuel : Nat) (candid : run.IsCandid) :
    ∃ reached, interpreter.world.Tells interpreter.options reached
        (interpreter.reports fuel run) ∧
      ∀ polled after, interpreter.poll fuel run = some (polled, after) →
        after.world = reached ∧ polled.IsCandid := by
  unfold reports poll
  cases underway : run.task with
  | none =>
      refine ⟨interpreter.world, .refl _, fun polled after answered => ?_⟩
      cases answered
      exact ⟨rfl, trivial⟩
  | some task =>
      dsimp only
      split
      · obtain ⟨reached, tells, ends⟩ :=
          (candid task underway).tells_run interpreter.options built discreet fuel
            interpreter.world
        cases ran : Task.run interpreter.options interpreter.host fuel interpreter.world task with
        | none =>
            rw [List.append_nil]
            exact ⟨reached, tells, fun _ _ ended => (Option.some_ne_none _ ended.symm).elim⟩
        | some progress =>
            obtain ⟨same, rest⟩ := ends progress ran
            cases progress with
            | running world next =>
                rw [List.append_nil]
                exact ⟨reached, tells, fun _ _ ended => (Option.some_ne_none _ ended.symm).elim⟩
            | waiting world reason next =>
                rw [List.append_nil]
                refine ⟨reached, tells, fun polled after answered => ?_⟩
                cases answered
                refine ⟨same, fun task mem => ?_⟩
                cases mem
                exact rest
            | finished world outcome =>
                obtain rfl := same
                refine ⟨_, tells.trans (tells_conclude _ run.delivers outcome _), ?_⟩
                intro polled after answered
                cases answered
                exact ⟨rfl, trivial⟩
      · refine ⟨interpreter.world, .refl _, fun polled after answered => ?_⟩
        cases answered
        exact ⟨rfl, candid⟩

/-- What is reported of a run that is polled until it ends. -/
theorem tells_complete (built : interpreter.host.IsBuilt) (discreet : interpreter.host.IsDiscreet)
    (fuel polls : Nat) (candid : run.IsCandid) :
    ∃ reached, interpreter.world.Tells interpreter.options reached
        (completeReports fuel polls interpreter run) ∧
      ∀ verdict after, complete fuel polls interpreter run = some (verdict, after) →
        after.world = reached := by
  induction polls generalizing interpreter run with
  | zero =>
      refine ⟨interpreter.world, .refl _, fun verdict after completed => ?_⟩
      rw [complete] at completed
      cases completed
  | succ polls inductive_step =>
      obtain ⟨reached, tells, ends⟩ := tells_poll built discreet fuel candid
      rw [completeReports, complete]
      cases polled : interpreter.poll fuel run with
      | none =>
          rw [List.append_nil]
          exact ⟨reached, tells, fun _ _ ended => (Option.some_ne_none _ ended.symm).elim⟩
      | some result =>
          rcases result with ⟨rest | verdict, between⟩
          · obtain ⟨world, rfl⟩ : ∃ world, between = { interpreter with world := world } :=
              ⟨_, eq_of_poll polled⟩
            obtain ⟨rfl, goesOn⟩ := ends _ _ polled
            dsimp only
            split
            · obtain ⟨last, more, completes⟩ :=
                @inductive_step { interpreter with world := world } rest built discreet goesOn
              exact ⟨last, tells.trans more, completes⟩
            · rw [List.append_nil]
              exact ⟨_, tells, fun _ _ ended => (Option.some_ne_none _ ended.symm).elim⟩
          · obtain ⟨rfl, -⟩ := ends _ _ polled
            rw [List.append_nil]
            refine ⟨_, tells, fun verdict after completed => ?_⟩
            cases completed
            rfl

/-- Every run is candid when it is started. -/
theorem Starts.isCandid (starts : interpreter.Starts run) : run.IsCandid := by
  intro task underway
  refine ⟨?_, starts.layered task underway⟩
  have script (mode : Mode) (nodes : List Node) :
      (Evaluation.runScript interpreter.root nodes mode).Minds .discreet :=
    Evaluation.minds_runScript (Manner.plain_discreet mode) interpreter.root nodes
  let barrier : Frame := ⟨fun outcome => .done (.answer outcome), true⟩
  have foot : ∀ frame ∈ [barrier], ∀ outcome, (frame.resume outcome).DeliversLast :=
    List.forall_mem_singleton.mpr fun outcome => .done _
  cases starts with
  | script nodes =>
      cases nodes with
      | nil => cases underway
      | cons statement rest =>
          cases underway
          exact ⟨Evaluation.deliversLast_answering (script _ _), List.forall_mem_nil _⟩
  | scriptAtOnce nodes =>
      cases nodes with
      | nil => cases underway
      | cons statement rest =>
          cases underway
          exact ⟨Evaluation.deliversLast_answering (script _ _), foot⟩
  | call callee arguments style =>
      cases style with
      | asynchronous =>
          cases underway
          exact ⟨Evaluation.deliversLast_enter callee arguments _, List.forall_mem_nil _⟩
      | synchronous =>
          cases underway
          exact ⟨Evaluation.deliversLast_enter callee arguments _, foot⟩
      | simple =>
          cases underway
          exact ⟨Evaluation.deliversLast_answering
            (Evaluation.minds_applyValue (Manner.plain_discreet _) callee arguments),
            List.forall_mem_nil _⟩

end Interpreter

/-! ## Sessions -/

/-- Whether a request has a run go on. -/
def Request.continues : Request → Bool
  | .execute _ (some _) _ => true
  | .call _ _ _ _ => true
  | .poll _ _ => true
  | _ => false

namespace Session

/-- A session whose host is built from closures and discreet, and whose runs are candid. -/
structure IsCandid (session : Session) : Prop where
  built : session.interpreter.host.IsBuilt
  discreet : session.interpreter.host.IsDiscreet
  runs : ∀ entry ∈ session.runs, entry.2.IsCandid

variable {session after : Session} {fuel : Nat} {request : Request}

theorem IsCandid.of_lookup (candid : session.IsCandid) {id : String} {run : Run}
    (found : session.runs.lookup id = some run) :
    run.IsCandid :=
  candid.runs (id, run) (mem_of_lookup found)

/-- A session stays candid when runs are added that are candid. -/
theorem IsCandid.of_leads {named : Option String} (candid : session.IsCandid)
    (leads : Leads named session after)
    (runs : ∀ entry ∈ after.runs, entry ∈ session.runs ∨ entry.2.IsCandid) :
    after.IsCandid where
  built := leads.interpreter ▸ candid.built
  discreet := leads.interpreter ▸ candid.discreet
  runs entry mem := (runs entry mem).elim (candid.runs entry) id

/-- Whatever a session is asked, it stays candid. -/
theorem IsCandid.answer {answer : Answer} (candid : session.IsCandid)
    (answered : session.answer fuel request = some (answer, after)) :
    after.IsCandid := by
  have leads := leads_answer answered
  cases course_of_answer World.upkeep_any answered with
  | tended _ tended => exact candid.of_leads leads fun entry mem => .inl (tended.runs ▸ mem)
  | launched _ tended launches remembered =>
      subst remembered
      refine candid.of_leads leads fun entry mem => ?_
      rcases List.mem_cons.mp mem with rfl | mem
      · exact .inr launches.starts.isCandid
      · exact .inl (tended.runs ▸ mem_forget mem)
  | dropped => exact candid.of_leads leads fun entry mem => .inl (mem_forget mem)
  | completed _ tended _ _ _ runs =>
      exact candid.of_leads leads fun entry mem => .inl (tended.runs ▸ runs ▸ mem)
  | unknown missing => exact candid
  | suspended found polled =>
      obtain ⟨reached, -, ends⟩ :=
        Interpreter.tells_poll candid.built candid.discreet fuel (candid.of_lookup found)
      refine candid.of_leads leads fun entry mem => ?_
      rcases List.mem_cons.mp mem with rfl | mem
      · exact .inr (ends _ _ polled).2
      · exact .inl (mem_forget mem)
  | ended _ _ _ runs =>
      exact candid.of_leads leads fun entry mem => .inl (mem_forget (runs ▸ mem))

/-- A request that has no run go on does not depend on fuel, and tells the host of no error. -/
theorem tells_of_not_continues {answer : Answer} (idle : request.continues = false)
    (answered : session.answer fuel request = some (answer, after)) :
    session.world.Tells session.interpreter.options after.world [] := by
  have evolves := evolves_answer answered
  have fuelless : session.answer 0 request = some (answer, after) := by
    cases request with
    | execute mode script save =>
        cases script with
        | none => cases mode <;> exact answered
        | some script => cases idle
    | call | poll => cases idle
    | start id script => cases script <;> exact answered
    | _ => exact answered
  cases course_of_answer World.upkeep_failures fuelless with
  | tended _ tended => exact .quiet evolves tended.world
  | launched _ tended _ remembered =>
      subst remembered
      exact .quiet evolves tended.world
  | dropped | unknown => exact .refl _
  | completed _ _ _ completed => cases completed
  | suspended | ended => cases idle

/-- What is reported of a run to the end is reported of the request for it. -/
theorem tells_complete {between : Session} {run : Run} {save : Option String}
    (built : between.interpreter.host.IsBuilt)
    (discreet : between.interpreter.host.IsDiscreet)
    (candid : run.IsCandid) (fuel : Nat) :
    ∃ reached, between.world.Tells between.interpreter.options reached
        (Interpreter.completeReports fuel fuel between.interpreter run) ∧
      ∀ answer after, between.complete fuel save run = some (answer, after) →
        after.world = reached := by
  obtain ⟨reached, tells, ends⟩ := Interpreter.tells_complete built discreet fuel fuel candid
  refine ⟨reached, tells, fun answer after answered => ?_⟩
  unfold complete at answered
  split at answered
  · rename_i verdict interpreter completed
    obtain ⟨saved, same⟩ :=
      answerVerdict_eq { between with interpreter := interpreter } save verdict
    obtain rfl := (congrArg Prod.snd (Option.some.inj answered)).symm.trans same
    exact ends verdict interpreter completed
  · cases answered

/-- What is reported of a request are the courses of errors. -/
theorem IsCandid.tells_answer (candid : session.IsCandid) (fuel : Nat) (request : Request) :
    ∃ reached, session.world.Tells session.interpreter.options reached
        (session.reports fuel request) ∧
      ∀ answer after, session.answer fuel request = some (answer, after) →
        after.world = reached := by
  have idle (quiet : request.continues = false) (nothing : session.reports fuel request = []) :
      ∃ reached, session.world.Tells session.interpreter.options reached
          (session.reports fuel request) ∧
        ∀ answer after, session.answer fuel request = some (answer, after) →
          after.world = reached := by
    rw [nothing]
    cases answered : session.answer fuel request with
    | none =>
        exact ⟨session.world, .refl _, fun _ _ ended => (Option.some_ne_none _ ended.symm).elim⟩
    | some result =>
        have told := tells_of_not_continues quiet answered
        refine ⟨result.2.world, told, fun answer after same => ?_⟩
        cases same
        rfl
  cases request with
  | execute mode script save =>
      cases script with
      | none => cases mode <;> exact idle rfl rfl
      | some script =>
          cases mode with
          | asynchronous =>
              have starts : session.interpreter.Starts _ := .script script
              exact tells_complete candid.built candid.discreet starts.isCandid fuel
          | synchronous =>
              have starts : session.interpreter.Starts _ := .scriptAtOnce script
              exact tells_complete candid.built candid.discreet starts.isCandid fuel
  | call style callee arguments save =>
      have tended := tended_buildAll (World.upkeep_failures.and World.upkeep_evolves) session
        (callee :: arguments)
      unfold reports Session.answer
      dsimp only
      generalize session.buildAll (callee :: arguments) = given at tended ⊢
      rcases given with ⟨values, between⟩
      have prepared : session.world.Tells session.interpreter.options between.world [] :=
        .quiet tended.world.2 tended.world.1
      have refused : ∃ reached, session.world.Tells session.interpreter.options reached [] ∧
          ∀ answer after,
            some (Answer.refused .unreadableInput, between) = some (answer, after) →
              after.world = reached := by
        refine ⟨between.world, prepared, fun answer after same => ?_⟩
        cases same
        rfl
      rcases values with _ | _ | ⟨callee, arguments⟩
      · exact refused
      · exact refused
      · have starts : between.interpreter.Starts _ := .call callee arguments style
        have same : between.interpreter = { session.interpreter with world := between.world } :=
          tended.interpreter
        have options : between.interpreter.options = session.interpreter.options := by rw [same]
        have host : between.interpreter.host = session.interpreter.host := by rw [same]
        obtain ⟨reached, tells, ends⟩ := tells_complete (host ▸ candid.built)
          (host ▸ candid.discreet) starts.isCandid fuel
        rw [options] at tells
        exact ⟨reached, prepared.trans tells, ends⟩
  | poll id save =>
      unfold reports Session.answer
      dsimp only
      cases found : session.runs.lookup id with
      | none =>
          refine ⟨session.world, .refl _, fun answer after same => ?_⟩
          cases same
          rfl
      | some run =>
          obtain ⟨reached, tells, ends⟩ :=
            Interpreter.tells_poll candid.built candid.discreet fuel (candid.of_lookup found)
          refine ⟨reached, tells, fun answer after answered => ?_⟩
          dsimp only at answered
          split at answered
          · rename_i polled
            cases answered
            exact (ends _ _ polled).1
          · rename_i verdict interpreter polled
            obtain ⟨saved, same⟩ := answerVerdict_eq
              ({ session with interpreter := interpreter }.forget id) save verdict
            obtain rfl := (congrArg Prod.snd (Option.some.inj answered)).symm.trans same
            exact (ends _ _ polled).1
          · cases answered
  | _ => exact idle rfl rfl

theorem History.reaches {past : List Report} (history : session.History past after) :
    session.Reaches after := by
  induction history with
  | start => exact .start
  | answer _ answered inductive_step => exact .answer inductive_step answered
  | takeEvents _ inductive_step => exact .takeEvents inductive_step

theorem History.isCandid {past : List Report} (history : session.History past after)
    (candid : session.IsCandid) :
    after.IsCandid := by
  induction history with
  | start => exact candid
  | answer _ answered inductive_step => exact inductive_step.answer answered
  | takeEvents _ inductive_step =>
      exact ⟨inductive_step.built, inductive_step.discreet, inductive_step.runs⟩

/-- What is reported of all requests are the courses of the errors of all executions. -/
theorem History.courses {past : List Report} (history : session.History past after)
    (candid : session.IsCandid) :
    Report.Courses session.interpreter.options session.world.lifecycle.isStopped past
      after.world.lifecycle.isStopped := by
  induction history with
  | start => exact .nil _
  | @answer between after fuel request answer past history answered inductive_step =>
      obtain ⟨reached, tells, ends⟩ := (history.isCandid candid).tells_answer fuel request
      obtain rfl := ends answer after answered
      rw [history.reaches.interpreter] at tells
      exact inductive_step.trans tells.courses
  | takeEvents _ inductive_step => exact inductive_step

theorem History.asked {past : List Report} (history : session.History past after) (fuel : Nat)
    (request : Request) (answers : (after.answer fuel request).isSome = true) :
    session.History (past ++ after.reports fuel request) (after.asked fuel request) := by
  rw [Session.asked]
  split
  · rename_i answered
    exact history.answer answered
  · rename_i unanswered
    rw [unanswered] at answers
    cases answers

end Session

end TreeScript
