import TreeScript.Proofs.Fresh
import TreeScript.Proofs.Gate
import TreeScript.Proofs.Permanence
import TreeScript.Proofs.Requests
import TreeScript.Proofs.Synchrony

/-!
# Pauses hold every run

While a pause is in effect, however often and in whatever order the runs of a
session are polled, each of them takes one step at most, and none at all if it
was not polled before the pause or waits for the end of it.

A run may have one step left because it was suspended behind a gate: while it
yielded, or waiting for an earlier pause.  `Run.allowance` counts this step, and
no request gives it back: what polling a run takes, and what it leaves, is never
more than what was left before.
-/

namespace TreeScript

/-! ## Runs -/

namespace Run

/-- The stage in which the task of a run goes on. -/
def stage (run : Run) : Stage :=
  if run.reason.isSome then .past else .before

/-- A run of a gated task, if it is of any. -/
def IsGated (run : Run) : Prop :=
  ∀ task ∈ run.task, task.Gated run.stage

/-- How many steps a pause leaves to a run. -/
def allowance (pause : Nat) (run : Run) : Nat :=
  run.reason.elim 0 (Wait.allowance pause)

theorem allowance_le (pause : Nat) (run : Run) : run.allowance pause ≤ 1 := by
  rw [allowance]
  cases run.reason with
  | none => exact Nat.zero_le 1
  | some reason => exact reason.allowance_le pause

/-- A run that goes on during a pause goes on in a stage that the pause holds. -/
theorem holds_of_isReady {run : Run} {world : World} {pause : Nat}
    (ready : run.isReady world.lifecycle = true)
    (paused : world.lifecycle.pause = some pause) :
    world.Holds pause (world.steps + run.allowance pause) run.stage := by
  rcases run with ⟨task, reason, delivers⟩
  cases reason with
  | none => exact ⟨Nat.le_refl _, fun _ => paused, nofun⟩
  | some reason =>
      refine ⟨?_, fun _ => paused, nofun⟩
      cases reason with
      | nextPoll => exact Nat.le_refl _
      | resumed other =>
          have apart : other ≠ pause := by
            rintro rfl
            simp [isReady, Wait.isOver, paused] at ready
          rw [allowance, Option.elim_some, Wait.allowance, if_neg apart]
          exact Nat.le_refl _

end Run

namespace Polled

/-- What polling gives is a gated run, if it is any. -/
def IsGated : Polled → Prop
  | .pending run => run.IsGated
  | .ended _ => True

/-- How many steps a pause leaves to what polling gives. -/
def allowance (pause : Nat) : Polled → Nat
  | .pending run => run.allowance pause
  | .ended _ => 0

end Polled

namespace Interpreter

variable {interpreter after : Interpreter} {fuel : Nat} {run : Run}

theorem steps_conclude (options : Options) (delivers : Bool) (outcome : Outcome)
    (world : World) :
    (conclude options delivers outcome world).2.steps = world.steps :=
  conclude_keeps (world.steps_deliver options) delivers outcome

/-- Polling keeps runs gated, and a pause leaves no more steps than it left before. -/
theorem gated_poll {polled : Polled}
    (hostless : interpreter.world.store.Hostless)
    (gated : run.IsGated)
    (answered : interpreter.poll fuel run = some (polled, after)) :
    after.world.store.Hostless ∧ polled.IsGated ∧
      interpreter.world.steps ≤ after.world.steps ∧
      ∀ pause, interpreter.world.lifecycle.pause = some pause →
        after.world.steps + polled.allowance pause ≤
          interpreter.world.steps + run.allowance pause := by
  cases underway : run.task with
  | none =>
      rw [poll, underway] at answered
      cases answered
      exact ⟨hostless, trivial, Nat.le_refl _, fun pause _ => Nat.le_add_right _ _⟩
  | some task =>
      cases ready : run.isReady interpreter.world.lifecycle with
      | false =>
          rw [poll, underway, ready] at answered
          cases answered
          exact ⟨hostless, gated, Nat.le_refl _, fun pause _ => Nat.le_refl _⟩
      | true =>
          rw [poll_of_ready interpreter run underway ready] at answered
          split at answered
          · rename_i reached outcome ran
            obtain ⟨hostless, more, left⟩ := (gated task underway).run_finished hostless ran
            cases answered
            have steps := steps_conclude interpreter.options run.delivers outcome reached
            have store := store_conclude interpreter.options run.delivers outcome reached
            exact ⟨store.symm ▸ hostless, trivial, steps.symm ▸ more, fun pause paused =>
              steps.symm ▸ left pause _ (Run.holds_of_isReady ready paused)⟩
          · rename_i reached reason rest ran
            obtain ⟨hostless, goesOn, more, left⟩ :=
              (gated task underway).run_waiting hostless ran
            cases answered
            refine ⟨hostless, ?_, more, fun pause paused => ?_⟩
            · intro task underway
              cases underway
              exact goesOn
            · exact left pause _ (Run.holds_of_isReady ready paused)
          · cases answered

/-- Running gated tasks to their end brings no function of the host into the store. -/
theorem hostless_complete_of_gated {polls : Nat} {verdict : Verdict}
    (hostless : interpreter.world.store.Hostless)
    (gated : run.IsGated)
    (completed : complete fuel polls interpreter run = some (verdict, after)) :
    after.world.store.Hostless := by
  induction polls generalizing interpreter run with
  | zero => cases completed
  | succ polls inductive_step =>
      rw [complete] at completed
      split at completed
      · rename_i polled
        cases completed
        exact (gated_poll hostless gated polled).1
      · rename_i polled
        obtain ⟨hostless, gated, -⟩ := gated_poll hostless gated polled
        split at completed
        · exact inductive_step hostless gated completed
        · cases completed
      · cases completed

theorem Launches.isGated (launches : interpreter.Launches run) : run.IsGated := by
  have plain := (Manner.serves_withoutSteps interpreter.host).toPlain
  cases launches with
  | script script =>
      cases script with
      | nil => nofun
      | cons statement rest =>
          intro task underway
          cases underway
          have minds := Evaluation.minds_runScript plain interpreter.root (statement :: rest)
          exact Task.gated_ofRule (minds.gated False).settled
  | call callee arguments =>
      intro task underway
      cases underway
      exact Task.gated_ofRule (Evaluation.gated_enter callee arguments)

theorem Launches.allowance (launches : interpreter.Launches run) (pause : Nat) :
    run.allowance pause = 0 := by
  cases launches with
  | script script => cases script <;> rfl
  | call callee arguments => rfl

/-- Nothing that is run to its end brings a function of the host into the store. -/
theorem Starts.hostless_complete {polls : Nat} {verdict : Verdict}
    (hostless : interpreter.world.store.Hostless)
    (starts : interpreter.Starts run)
    (completed : complete fuel polls interpreter run = some (verdict, after)) :
    after.world.store.Hostless := by
  cases starts with
  | script script =>
      have launches : interpreter.Launches _ := .script script
      exact hostless_complete_of_gated hostless launches.isGated completed
  | scriptAtOnce script =>
      have like := completesLike_startAtOnce hostless interpreter.options.irq none 0 script
      obtain ⟨_, -, alongside⟩ := like fuel polls verdict after completed
      exact alongside.hostless
  | call callee arguments style =>
      cases style with
      | asynchronous =>
          have launches : interpreter.Launches _ := .call callee arguments
          exact hostless_complete_of_gated hostless launches.isGated completed
      | synchronous =>
          have like : CompletesLike (World.Alongside False) interpreter _ _ :=
            completesLike_startCall hostless nofun interpreter.options.irq none 0 callee arguments
          obtain ⟨_, -, alongside⟩ := like fuel polls verdict after completed
          exact alongside.hostless
      | simple =>
          have plain := (Manner.serves_withoutSteps interpreter.host).toPlain
          have minds := Evaluation.minds_applyValue plain callee arguments
          refine hostless_complete_of_gated hostless (fun task underway => ?_) completed
          cases underway
          exact Task.gated_ofRule (minds.gated False).settled

end Interpreter

/-! ## Sessions -/

/-- Looking after a session brings no function of the host into the store. -/
theorem World.upkeep_hostless :
    World.Upkeep fun before after => before.store.Hostless → after.store.Hostless where
  refl _ := id
  trans first second := second ∘ first
  readName options scope name world hostless :=
    (Edit.agree_readName (Alike.actionRelation options).toEditRelation scope name world world
      ⟨rfl, hostless⟩).2.hostless
  assign options scope name value world hostless :=
    (Edit.agree_assign (Alike.actionRelation options).toEditRelation scope name value world world
      ⟨rfl, hostless⟩).2.hostless
  declare options scope name bound world hostless :=
    (Edit.agree_register (Alike.actionRelation options).toEditRelation bound
      (scope.registrations name) world world ⟨rfl, hostless⟩).2.hostless
  build world datum hostless := hostless.of_functions (world.store.functions_build datum)
  transition _ _ := id
  subscribe world _ tag response hostless := (world.store_handler tag response).symm ▸ hostless
  unsubscribe world _ tag response hostless := (world.store_handler tag response).symm ▸ hostless

namespace Session

/-- A session without functions of the host, whose runs are gated. -/
structure IsGated (session : Session) : Prop where
  hostless : session.world.store.Hostless
  runs : ∀ entry ∈ session.runs, entry.2.IsGated

/-- How many steps a pause leaves to the run with an identifier. -/
def allowance (pause : Nat) (id : String) (session : Session) : Nat :=
  (session.runs.lookup id).elim 0 (Run.allowance pause)

/-- How many steps a request takes if it polls the run with an identifier. -/
def stepsTaken (id : String) (request : Request) (session after : Session) : Nat :=
  if request.polled = some id then after.world.steps - session.world.steps else 0

variable {session after : Session}

theorem lookup_forget_self (session : Session) (id : String) :
    (session.forget id).runs.lookup id = none := by
  refine List.lookup_eq_none_iff.mpr fun entry mem => ?_
  have apart := (List.mem_filter.mp mem).2
  exact bne_comm.trans apart

theorem lookup_forget_ne (session : Session) {id other : String} (apart : other ≠ id) :
    (session.forget id).runs.lookup other = session.runs.lookup other := by
  unfold forget
  induction session.runs with
  | nil => rfl
  | cons entry rest inductive_step =>
      by_cases same : entry.1 = id
      · have skipped : (other == entry.1) = false := by simpa [same] using apart
        rw [List.filter_cons_of_neg (by simpa using same), inductive_step, List.lookup_cons,
          skipped]
      · rw [List.filter_cons_of_pos (by simpa using same), List.lookup_cons, List.lookup_cons,
          inductive_step]

theorem lookup_remember_self (session : Session) (id : String) (run : Run) :
    (session.remember id run).runs.lookup id = some run :=
  List.lookup_cons_self

theorem lookup_remember_ne (session : Session) {id other : String} (apart : other ≠ id)
    (run : Run) :
    (session.remember id run).runs.lookup other = session.runs.lookup other := by
  have skipped : (other == id) = false := by simpa using apart
  rw [remember, List.lookup_cons, skipped]
  exact lookup_forget_ne session apart

/-- A run that is found is one of those that are remembered. -/
theorem IsGated.of_lookup (gated : session.IsGated) {id : String} {run : Run}
    (found : session.runs.lookup id = some run) : run.IsGated := by
  obtain ⟨before, rest, split, -⟩ := List.lookup_eq_some_iff.mp found
  exact gated.runs (id, run) (split ▸ by simp)

theorem IsGated.forget (gated : session.IsGated) (id : String) : (session.forget id).IsGated :=
  ⟨gated.hostless, fun entry mem => gated.runs entry (List.mem_filter.mp mem).1⟩

theorem IsGated.remember (gated : session.IsGated) (id : String) {run : Run}
    (runGated : run.IsGated) : (session.remember id run).IsGated :=
  ⟨gated.hostless, List.forall_mem_cons.mpr ⟨runGated, (gated.forget id).runs⟩⟩

/-- Whether a session is gated depends on its store and its runs. -/
theorem IsGated.of_runs (gated : session.IsGated)
    (hostless : after.world.store.Hostless)
    (runs : after.runs = session.runs) : after.IsGated :=
  ⟨hostless, runs ▸ gated.runs⟩

theorem allowance_le (pause : Nat) (id : String) (session : Session) :
    session.allowance pause id ≤ 1 := by
  rw [allowance]
  cases session.runs.lookup id with
  | none => exact Nat.zero_le 1
  | some run => exact run.allowance_le pause

theorem allowance_congr (same : after.runs = session.runs) (pause : Nat) (id : String) :
    after.allowance pause id = session.allowance pause id := by
  rw [allowance, allowance, same]

theorem allowance_of_lookup {id : String} {run : Run}
    (found : session.runs.lookup id = some run) (pause : Nat) :
    session.allowance pause id = run.allowance pause := by
  rw [allowance, found]
  rfl

/-- Forgetting a run leaves no steps to it. -/
theorem allowance_forget (session : Session) (pause : Nat) (id other : String) :
    (session.forget id).allowance pause other =
      if other = id then 0 else session.allowance pause other := by
  split
  · rename_i same
    rw [same, allowance, lookup_forget_self]
    rfl
  · rename_i apart
    rw [allowance, lookup_forget_ne session apart, allowance]

theorem allowance_remember (session : Session) (pause : Nat) (id other : String) (run : Run) :
    (session.remember id run).allowance pause other =
      if other = id then run.allowance pause else session.allowance pause other := by
  split
  · rename_i same
    rw [same, allowance, lookup_remember_self]
    rfl
  · rename_i apart
    rw [allowance, lookup_remember_ne session apart, allowance]

theorem stepsTaken_of_noPoll {request : Request} (noPoll : request.polled = none) (id : String) :
    stepsTaken id request session after = 0 := by
  rw [stepsTaken, noPoll]
  rfl

/-- Polling one run takes no steps of another. -/
theorem stepsTaken_poll (id other : String) (save : Option String) :
    stepsTaken other (.poll id save) session after =
      if other = id then after.world.steps - session.world.steps else 0 := by
  simp only [stepsTaken, Request.polled, Option.some.injEq, eq_comm]

/--
Whatever a session is asked, it stays gated; and during a pause, what a request
takes and leaves to a run is not more than what was left to it before.
-/
theorem IsGated.answer {fuel : Nat} {request : Request} {answer : Answer}
    (gated : session.IsGated)
    (answered : session.answer fuel request = some (answer, after)) :
    after.IsGated ∧ ∀ pause id, session.world.lifecycle.pause = some pause →
      stepsTaken id request session after + after.allowance pause id ≤
        session.allowance pause id := by
  -- What a poll takes is counted as a difference, since nothing lowers the number of steps.
  have taken_le {before after more left : Nat} (grown : before ≤ after)
      (kept : after + more ≤ before + left) : after - before + more ≤ left := by
    omega
  cases course_of_answer World.upkeep_hostless answered with
  | tended noPoll tended =>
      refine ⟨gated.of_runs (tended.world gated.hostless) tended.runs, fun pause id _ => ?_⟩
      refine Nat.le_of_eq ?_
      rw [stepsTaken_of_noPoll noPoll, Nat.zero_add, allowance_congr tended.runs]
  | @launched _ _ between id run noPoll tended launches remembered =>
      subst remembered
      have between := gated.of_runs (tended.world gated.hostless) tended.runs
      refine ⟨between.remember id launches.isGated, fun pause other _ => ?_⟩
      rw [stepsTaken_of_noPoll noPoll, Nat.zero_add, allowance_remember, launches.allowance,
        allowance_congr tended.runs]
      split <;> simp
  | @dropped id =>
      refine ⟨gated.forget id, fun pause other _ => ?_⟩
      rw [stepsTaken_of_noPoll rfl, Nat.zero_add, allowance_forget]
      split <;> simp
  | completed noPoll tended begins completed world runs =>
      have hostless := begins.starts.hostless_complete (tended.world gated.hostless) completed
      have runs := runs.trans tended.runs
      refine ⟨gated.of_runs (world.symm ▸ hostless) runs, fun pause id _ => ?_⟩
      refine Nat.le_of_eq ?_
      rw [stepsTaken_of_noPoll noPoll, Nat.zero_add, allowance_congr runs]
  | unknown missing =>
      refine ⟨gated, fun pause id _ => ?_⟩
      refine Nat.le_of_eq ?_
      rw [stepsTaken_poll, Nat.sub_self, ite_self, Nat.zero_add]
  | @suspended id save run rest interpreter found polled =>
      obtain ⟨hostless, restGated, more, left⟩ :=
        Interpreter.gated_poll gated.hostless (gated.of_lookup found) polled
      have between : IsGated { session with interpreter := interpreter } := ⟨hostless, gated.runs⟩
      refine ⟨between.remember id restGated, fun pause other paused => ?_⟩
      rw [stepsTaken_poll, allowance_remember]
      split
      · rename_i same
        rw [same, allowance_of_lookup found]
        exact taken_le more (left pause paused)
      · exact Nat.le_of_eq (Nat.zero_add _)
  | @ended id save run verdict interpreter after found polled world runs =>
      obtain ⟨hostless, -, more, left⟩ :=
        Interpreter.gated_poll gated.hostless (gated.of_lookup found) polled
      refine ⟨(gated.forget id).of_runs (world.symm ▸ hostless) runs, fun pause other paused => ?_⟩
      rw [stepsTaken_poll, allowance_congr runs, allowance_forget, world]
      split
      · rename_i same
        rw [same, allowance_of_lookup found]
        exact taken_le more (left pause paused)
      · exact Nat.le_of_eq (Nat.zero_add _)

theorem isGated_start (options : Options) (host : Host) (constants : List (String × Datum Value))
    (inputs : List String) :
    (start (.create options host [] constants inputs)).IsGated :=
  ⟨Interpreter.hostless_create options host constants inputs, nofun⟩

/-- Every session is gated that is reached without functions of the host. -/
theorem Reaches.isGated (reached : session.Reaches after) (gated : session.IsGated) :
    after.IsGated := by
  induction reached with
  | start => exact gated
  | answer _ answered inductive_step => exact (inductive_step.answer answered).1
  | takeEvents _ inductive_step => exact inductive_step.of_runs inductive_step.hostless rfl

/--
The number of steps that are taken during a pause when the run with an
identifier is polled, whatever a session is asked meanwhile.  The last poll may
still go on, and need not come to an end.
-/
inductive TakesDuring (pause : Nat) (id : String) : Session → Nat → Prop where
  | nothing {session : Session} :
      TakesDuring pause id session 0
  | answer {session after : Session} {fuel : Nat} {request : Request} {answer : Answer}
      {taken : Nat}
      (paused : session.world.lifecycle.pause = some pause)
      (answered : session.answer fuel request = some (answer, after))
      (rest : TakesDuring pause id after taken) :
      TakesDuring pause id session (stepsTaken id request session after + taken)
  | takeEvents {session : Session} {taken : Nat}
      (rest : TakesDuring pause id session.takeEvents.2 taken) :
      TakesDuring pause id session taken
  | amid {session : Session} {run : Run} {task current : Task} {world : World} {goals : List Goal}
      (paused : session.world.lifecycle.pause = some pause)
      (found : session.runs.lookup id = some run)
      (underway : run.task = some task)
      (ready : run.isReady session.world.lifecycle = true)
      (reached : Task.Reached session.interpreter.options session.interpreter.host
        (fun _ _ => False) session.world task world current goals) :
      TakesDuring pause id session (world.steps - session.world.steps)

/-- During a pause no more steps are taken than the pause leaves. -/
theorem TakesDuring.taken_le {pause taken : Nat} {id : String}
    (takes : TakesDuring pause id session taken) (gated : session.IsGated) :
    taken ≤ session.allowance pause id := by
  induction takes with
  | nothing => exact Nat.zero_le _
  | answer paused answered _ inductive_step =>
      obtain ⟨gated, left⟩ := gated.answer answered
      exact Nat.le_trans (Nat.add_le_add_left (inductive_step gated) _) (left pause id paused)
  | takeEvents _ inductive_step => exact inductive_step (gated.of_runs gated.hostless rfl)
  | amid paused found underway ready reached =>
      have comes := ((gated.of_lookup found) _ underway).comes gated.hostless
      obtain ⟨stage, -, -, -, holds⟩ := reached.comesGated comes
      have held := holds pause _ (Run.holds_of_isReady ready paused)
      rw [allowance_of_lookup found]
      exact Nat.sub_le_of_le_add (Nat.le_trans (Nat.le_add_right _ _)
        (Nat.le_trans held.steps (Nat.le_of_eq (Nat.add_comm _ _))))

/--
A pause holds every run.  In every session without functions of the host,
whatever is asked of it while a pause is in effect, polling the run with some
identifier takes one step at most, and none if the run was not polled before or
waits for the end of this pause.
-/
theorem pause_holds_every_run (options : Options) (host : Host)
    (constants : List (String × Datum Value)) (inputs : List String)
    {session : Session} {pause taken : Nat} {id : String}
    (reached : (start (.create options host [] constants inputs)).Reaches session)
    (takes : TakesDuring pause id session taken) :
    taken ≤ 1 ∧
      ((∀ run, session.runs.lookup id = some run →
          run.reason = none ∨ run.reason = some (.resumed pause)) →
        taken = 0) := by
  have gated := reached.isGated (isGated_start options host constants inputs)
  have taken_le := takes.taken_le gated
  refine ⟨Nat.le_trans taken_le (session.allowance_le pause id), fun held => ?_⟩
  suffices none_left : session.allowance pause id = 0 from Nat.le_zero.mp (none_left ▸ taken_le)
  rw [allowance]
  cases found : session.runs.lookup id with
  | none => rfl
  | some run =>
      rw [Option.elim_some, Run.allowance]
      rcases held run found with reason | reason
      · rw [reason]
        rfl
      · rw [reason]
        exact if_pos rfl

/-- A session after a request, if the fuel suffices for an answer. -/
def asked (fuel : Nat) (session : Session) (request : Request) : Session :=
  match session.answer fuel request with
  | some (_, after) => after
  | none => session

theorem Reaches.asked {between : Session} (reached : session.Reaches between) (fuel : Nat)
    (request : Request) :
    session.Reaches (between.asked fuel request) := by
  rw [Session.asked]
  split
  · rename_i answered
    exact .answer reached answered
  · exact reached

theorem TakesDuring.asked {pause taken : Nat} {id : String} {fuel : Nat} {request : Request}
    (paused : session.world.lifecycle.pause = some pause)
    (rest : TakesDuring pause id (session.asked fuel request) taken) :
    TakesDuring pause id session
      (stepsTaken id request session (session.asked fuel request) + taken) := by
  rw [Session.asked] at rest ⊢
  split at rest
  · rename_i answered
    exact .answer paused answered rest
  · rw [stepsTaken, Nat.sub_self, ite_self, Nat.zero_add]
    exact rest

/-- A session after a pause that no handler waits for. -/
def paused (session : Session) : Session :=
  session.withWorld
    { session.world with
      lifecycle :=
        { session.world.lifecycle with
          pause := some session.world.lifecycle.pauses
          pauses := session.world.lifecycle.pauses + 1 } }

theorem answer_pause (unpaused : session.world.lifecycle.pause = none)
    (unattended : session.world.lifecycle.onPause = []) (fuel : Nat) :
    session.answer fuel (.transition .pause) = some (.silent, session.paused) := by
  rcases session with ⟨⟨options, host, root, world⟩, runs, saved⟩
  rcases world with ⟨store, steps, ⟨isStopped, pause, pauses, onAbort, onPause, onUnpause⟩, rest⟩
  cases unpaused
  cases unattended
  simp [Session.answer, World.transition, Lifecycle.transition, Lifecycle.enter, Lifecycle.settle,
    Lifecycle.isPaused, Lifecycle.take, Lifecycle.waiting, Lifecycle.withWaiting, paused, withWorld,
    Session.world]

/-- A session that yields before every step. -/
def yielding : Session :=
  .start (.create { Options.silent 0 0 with irq := ⟨Float.ofNat 1, .custom true⟩ }
    Host.none [] [] [])

/-- The script `!true;`. -/
def negation : List Node :=
  [.of (.unary .not (.of (.bool true)))]

/--
A run that yields when the pause begins: polled twice, it takes a step the first
time, and then waits for the end of the pause.
-/
theorem pause_holds_every_run_yielding :
    let poll : Request := .poll "negation" none
    let begun := ((yielding.asked 40 (.start "negation" (some negation))).asked 40 poll).paused
    let waiting := begun.asked 40 poll
    let after := waiting.asked 40 poll
    TakesDuring 0 "negation" begun 1 ∧
      stepsTaken "negation" poll begun waiting + stepsTaken "negation" poll waiting after ≤ 1 ∧
      TakesDuring 0 "negation" waiting 0 ∧
      stepsTaken "negation" poll waiting after = 0 := by
  intro poll begun waiting after
  have reached : yielding.Reaches begun :=
    .answer ((Reaches.start.asked 40 _).asked 40 poll) (answer_pause rfl rfl 40)
  have again : TakesDuring 0 "negation" waiting (stepsTaken "negation" poll waiting after + 0) :=
    .asked rfl .nothing
  have both : TakesDuring 0 "negation" begun (stepsTaken "negation" poll begun waiting + _) :=
    .asked rfl again
  obtain ⟨once, -⟩ := pause_holds_every_run _ _ _ _ reached both
  obtain ⟨-, held⟩ := pause_holds_every_run _ _ _ _ (reached.asked 40 poll) again
  have nothing := held fun run found => .inr (by cases found; rfl)
  exact ⟨both, once, again, nothing⟩

end Session

end TreeScript
