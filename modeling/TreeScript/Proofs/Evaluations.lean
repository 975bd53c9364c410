import TreeScript.Proofs.Elsewhere
import TreeScript.Proofs.Permanence

/-!
# What a session evaluates

A request makes a session evaluate one run at most: one that is begun for the request and
polled until it ends, or one that the session remembers, which is polled once.
`Session.Evaluates` holds of the states of a task that the request leads through, each with
the world that it is in.  The store that a session is left with is that of the last of these
states, if there are any.
-/

namespace TreeScript

namespace Session

/-- The states of a task that a session evaluates to answer a request, with their worlds. -/
inductive Evaluates (session : Session) (request : Request) : World → Task → Prop where
  /-- A run is begun for the request, after values have been built for it. -/
  | begins {between : Session} {run : Run} {task : Task}
      (begins : session.Begins request between run)
      (underway : run.task = some task) :
      Evaluates session request between.world task
  /-- A run that is remembered is polled, unless it still waits. -/
  | polls {id : String} {save : Option String} {run : Run} {task : Task}
      (polls : request = .poll id save)
      (remembered : session.runs.lookup id = some run)
      (ready : run.isReady session.world.lifecycle = true)
      (underway : run.task = some task) :
      Evaluates session request session.world task
  | step {world next : World} {task after : Task}
      (evaluates : Evaluates session request world task)
      (running : task.step session.interpreter.options session.interpreter.host world =
        .running next after) :
      Evaluates session request next after
  /-- A run that is polled until it ends is polled again once its wait is over. -/
  | again {world between : World} {task after : Task} {reason : Wait}
      (noPoll : request.polled = none)
      (evaluates : Evaluates session request world task)
      (waiting : task.step session.interpreter.options session.interpreter.host world =
        .waiting between reason after)
      (elapsed : reason.isOver between.lifecycle = true) :
      Evaluates session request between after

variable {session between after : Session} {request : Request} {fuel : Nat}

namespace Evaluates

/-- A run without waiting leads from one state of evaluation to another. -/
theorem of_reached {start world : World} {origin task : Task} {goals : List Goal}
    (evaluates : session.Evaluates request start origin)
    (reached : Task.Reached session.interpreter.options session.interpreter.host
      (fun _ _ => False) start origin world task goals) :
    session.Evaluates request world task := by
  induction reached with
  | start => exact evaluates
  | step _ running inductive_step => exact inductive_step.step running
  | resume _ _ changed => exact changed.elim

/-- What a poll comes to: nothing, or an end or a wait that evaluation comes to. -/
theorem of_poll {polling polled : Interpreter} {run : Run} {result : Polled}
    (same : polling = { session.interpreter with world := polling.world })
    (evaluates : ∀ task, run.task = some task → run.isReady polling.world.lifecycle = true →
      session.Evaluates request polling.world task)
    (answered : polling.poll fuel run = some (result, polled)) :
    (polled = polling ∧
        ∀ rest, result = .pending rest → rest = run ∧ run.isReady polling.world.lifecycle = false) ∨
      ∃ world task, session.Evaluates request world task ∧ polled.world.store = world.store ∧
        ∀ rest, result = .pending rest → ∃ reason next,
          task.step session.interpreter.options session.interpreter.host world =
            .waiting polled.world reason next ∧ rest = ⟨some next, some reason, run.delivers⟩ := by
  cases underway : run.task with
  | none =>
      rw [Interpreter.poll, underway] at answered
      cases answered
      refine .inl ⟨rfl, ?_⟩
      rintro _ ⟨⟩
  | some task =>
      cases ready : run.isReady polling.world.lifecycle with
      | false =>
          rw [Interpreter.poll, underway, ready] at answered
          cases answered
          exact .inl ⟨rfl, fun rest same => ⟨(Polled.pending.inj same).symm, rfl⟩⟩
      | true =>
          have options : polling.options = session.interpreter.options := by rw [same]
          have host : polling.host = session.interpreter.host := by rw [same]
          rw [Interpreter.poll_of_ready polling run underway ready, options, host] at answered
          refine .inr ?_
          split at answered
          · rename_i reached outcome ran
            obtain ⟨world, last, evaluated, finished⟩ := Task.exists_last_of_run
              (session.Evaluates _) ran (evaluates task underway ready) fun first => first.step
            obtain ⟨rfl, -⟩ := Task.eq_of_finished finished
            cases answered
            refine ⟨_, last, evaluated, Interpreter.store_conclude _ _ outcome _, ?_⟩
            rintro _ ⟨⟩
          · rename_i reached reason next ran
            obtain ⟨world, last, evaluated, waiting⟩ := Task.exists_last_of_run
              (session.Evaluates _) ran (evaluates task underway ready) fun first => first.step
            cases answered
            refine ⟨world, last, evaluated, ?_, ?_⟩
            · exact congrArg World.store (Task.eq_of_waiting waiting).1
            · rintro _ ⟨⟩
              exact ⟨reason, next, waiting, rfl⟩
          · cases answered

/-- A run that is begun and polled to its end leaves the store as evaluation leaves it. -/
theorem of_complete {polling polled : Interpreter} {run : Run} {polls : Nat} {verdict : Verdict}
    (noPoll : request.polled = none)
    (same : polling = { session.interpreter with world := polling.world })
    (evaluates : ∀ task, run.task = some task → run.isReady polling.world.lifecycle = true →
      session.Evaluates request polling.world task)
    (completed : polling.complete fuel polls run = some (verdict, polled)) :
    polled.world.store = polling.world.store ∨
      ∃ world task, session.Evaluates request world task ∧ polled.world.store = world.store := by
  induction polls generalizing polling run with
  | zero => cases completed
  | succ polls inductive_step =>
      rw [Interpreter.complete] at completed
      split at completed
      · rename_i answered
        cases completed
        rcases of_poll same evaluates answered with ⟨rfl, -⟩ | ⟨world, task, evaluated, store, -⟩
        · exact .inl rfl
        · exact .inr ⟨world, task, evaluated, store⟩
      · rename_i rest between answered
        split at completed
        · rename_i ready
          rcases of_poll same evaluates answered with
            ⟨rfl, idle⟩ | ⟨world, task, evaluated, store, waits⟩
          · obtain ⟨rfl, notReady⟩ := idle rest rfl
            cases notReady.symm.trans ready
          · obtain ⟨reason, next, waiting, rfl⟩ := waits rest rfl
            have sameAfter : between = { session.interpreter with world := between.world } := by
              rw [Interpreter.eq_of_poll answered, same]
            have goesOn : ∀ task, some next = some task →
                (Run.mk (some next) (some reason) run.delivers).isReady between.world.lifecycle =
                  true →
                session.Evaluates request between.world task := by
              rintro _ ⟨⟩ elapsed
              exact .again noPoll evaluated waiting elapsed
            rcases inductive_step sameAfter goesOn completed with unchanged | later
            · exact .inr ⟨world, task, evaluated, unchanged.trans store⟩
            · exact .inr later
        · cases completed
      · cases completed

end Evaluates

theorem Reaches.trans (first : session.Reaches between)
    (second : between.Reaches after) : session.Reaches after := by
  induction second with
  | start => exact first
  | answer _ answered inductive_step => exact .answer inductive_step answered
  | takeEvents _ inductive_step => exact .takeEvents inductive_step

end Session

end TreeScript
