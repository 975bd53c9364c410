import TreeScript.Proofs.HostManner

/-!
# Entry points

An entry point makes one call and ends with its value.  When the call fails, the entry
point delivers the error: it hands it to the host, and answers with whatever comes back
from there.  `Evaluation.ofGoal_enter` says that it does nothing else.

No other goal delivers errors, since the functions of a host have no way to do so
(`Host.IsDiscreet`).  So an error that is delivered is always that of an entry point,
and it is the last thing that this entry point does (`Evaluation.deliversLast_ofGoal`).
-/

namespace TreeScript

open Rule

namespace Evaluation

/-! ## The process of an entry point -/

/-- The call that an entry point makes; what is not a function cannot be called. -/
def entryCall (callee : Value) (arguments : List Value) (mode : Mode) : Process Outcome :=
  match callee.asFn with
  | .ok function => .call (.apply function arguments (.top mode) none) .done
  | .error error => .done (.error (.error error))

/-- How an entry point answers, given the error that came back from its delivery. -/
def afterDelivery : Option Error → Outcome
  | some error => .error (.error error)
  | none => .ok failedValue

/-- What an entry point does after its call: an error is delivered. -/
def endEntry (outcome : Outcome) : Process Turn :=
  match outcome.expectValue with
  | .ok value => .done (.answer (.ok value))
  | .error error =>
      .act (.deliver error) fun returned => .done (.answer (afterDelivery returned))

/-- An entry point makes its call and delivers the error, if there is one. -/
theorem process_enter (callee : Value) (arguments : List Value) (mode : Mode) :
    process (answering (enter callee arguments mode)) =
      (entryCall callee arguments mode).bind endEntry := by
  have called : (applyValue callee arguments mode).run = entryCall callee arguments mode := by
    unfold entryCall applyValue
    cases callee.asFn <;> rfl
  rw [process_answering, enter, run_outcome_bind, Process.bind_assoc, called]
  refine congrArg (Process.bind _) (funext fun outcome => ?_)
  unfold endEntry
  cases Outcome.expectValue outcome with
  | ok value => rfl
  | error error =>
      refine congrArg (Process.act (.deliver error)) (funext fun returned => ?_)
      cases returned <;> rfl

theorem ofGoal_enter (options : Options) (host : Host) (callee : Value) (arguments : List Value)
    (mode : Mode) :
    ofGoal options host (.enter callee arguments mode) =
      (entryCall callee arguments mode).bind endEntry :=
  process_enter callee arguments mode

end Evaluation

/-! ## Discretion -/

/-- The manner of evaluation that delivers no errors. -/
def Manner.discreet : Manner where
  acts action := ∀ error, action ≠ .deliver error
  replies _ _ := True
  waits _ := True
  calls _ := True
  drives _ := True

/-- A host whose functions do not deliver errors themselves. -/
def Host.IsDiscreet (host : Host) : Prop :=
  host.Minds .discreet

theorem Action.IsQuiet.ne_deliver {action : Action} (quiet : action.IsQuiet) (error : Error) :
    action ≠ .deliver error := by
  rintro rfl
  exact quiet

theorem Manner.plain_discreet (mode : Mode) : discreet.Plain mode where
  acts _ quiet := quiet.ne_deliver
  calls _ _ := trivial
  drives _ _ _ := trivial

/-- A process that delivers an error at its end only, and answers with what comes back. -/
inductive Process.DeliversLast : Process Turn → Prop where
  | done (turn : Turn) : DeliversLast (.done turn)
  | act {action : Action} {next : action.Reply → Process Turn}
      (other : ∀ error, action ≠ .deliver error)
      (rest : ∀ reply, DeliversLast (next reply)) :
      DeliversLast (.act action next)
  | deliver (error : Error) :
      DeliversLast (.act (.deliver error) fun returned =>
        .done (.answer (Evaluation.afterDelivery returned)))
  | wait {reason : Wait} {next : Process Turn}
      (rest : DeliversLast next) :
      DeliversLast (.wait reason next)
  | call {goal : Goal} {next : Outcome → Process Turn}
      (rest : ∀ outcome, DeliversLast (next outcome)) :
      DeliversLast (.call goal next)
  | drive {goal : Goal} {next : Outcome → Process Turn}
      (rest : ∀ outcome, DeliversLast (next outcome)) :
      DeliversLast (.drive goal next)

namespace Process

/-- A discreet process delivers nothing, not even at its end. -/
theorem Uses.deliversLast {process : Process Turn} {holds : Turn → Prop}
    (uses : process.Uses .discreet holds) : process.DeliversLast := by
  induction uses with
  | done given => exact .done _
  | act allowed _ inductive_step => exact .act allowed fun reply => inductive_step reply trivial
  | wait _ _ inductive_step => exact .wait inductive_step
  | call _ _ inductive_step => exact .call inductive_step
  | drive _ _ inductive_step => exact .drive inductive_step

theorem deliversLast_endEntry (outcome : Outcome) :
    (Evaluation.endEntry outcome).DeliversLast := by
  unfold Evaluation.endEntry
  split
  · exact .done _
  · exact .deliver _

end Process

namespace Evaluation

theorem deliversLast_enter (callee : Value) (arguments : List Value) (mode : Mode) :
    (process (answering (enter callee arguments mode))).DeliversLast := by
  rw [process_enter, entryCall]
  split
  · exact .call Process.deliversLast_endEntry
  · exact Process.deliversLast_endEntry _

theorem deliversLast_answering {rule : Rule Value} (minds : rule.Minds .discreet) :
    (process (answering rule)).DeliversLast :=
  (uses_process (uses_answering minds)).deliversLast

/-- No goal delivers an error but an entry point, and that at its end. -/
theorem deliversLast_ofGoal (options : Options) {host : Host} (discreet : host.IsDiscreet)
    (goal : Goal) :
    (ofGoal options host goal).DeliversLast := by
  have serves := Manner.serves_of_minds (Manner.plain_discreet goal.context.mode) discreet
  have ticks : Manner.discreet.acts .tick := fun _ => nofun
  have gated : (gate options.irq).Minds .discreet :=
    minds_gate serves.toPlain (fun _ => nofun) (fun _ => nofun) (fun _ => nofun)
      (fun _ => trivial) options.irq
  cases goal with
  | enter callee arguments mode => exact deliversLast_enter callee arguments mode
  | _ => exact Process.Uses.deliversLast (uses_ofGoal serves ticks (fun _ => gated) rfl)

end Evaluation

/-! ## Tasks -/

namespace Task

variable {options : Options} {host : Host} {world next : World} {task after : Task}

/-- A task all of whose processes deliver errors at their end only. -/
structure DeliversLast (task : Task) : Prop where
  process : task.process.DeliversLast
  frames : ∀ frame ∈ task.stack, ∀ outcome, (frame.resume outcome).DeliversLast

theorem DeliversLast.step (delivers : task.DeliversLast) (discreet : host.IsDiscreet)
    (running : task.step options host world = .running next after) :
    after.DeliversLast := by
  rcases task with ⟨process, stack⟩
  rcases delivers with ⟨last, frames⟩
  have asked (goal : Goal) := Evaluation.deliversLast_ofGoal options discreet goal
  have pushed {resume : Outcome → Process Turn} {isBarrier : Bool}
      (resumes : ∀ outcome, (resume outcome).DeliversLast) :
      ∀ frame ∈ ⟨resume, isBarrier⟩ :: stack, ∀ outcome,
        (frame.resume outcome).DeliversLast :=
    List.forall_mem_cons.mpr ⟨resumes, frames⟩
  cases last with
  | done turn =>
      cases turn with
      | answer outcome =>
          cases stack with
          | nil => cases running
          | cons frame outer =>
              cases running
              obtain ⟨resumes, rest⟩ := List.forall_mem_cons.mp frames
              exact ⟨resumes outcome, rest⟩
      | again goal =>
          cases running
          exact ⟨asked goal, frames⟩
  | act _ rest =>
      cases running
      exact ⟨rest _, frames⟩
  | deliver error =>
      cases running
      exact ⟨.done _, frames⟩
  | wait rest =>
      cases found : barrier? stack with
      | none =>
          rw [step_wait found] at running
          cases running
      | some barrier =>
          rw [step_wait_barrier found] at running
          cases running
          have below := subset_of_barrier? found
          refine ⟨frames _ (below List.mem_cons_self) _, ?_⟩
          exact fun frame mem => frames frame (below (List.mem_cons_of_mem _ mem))
  | call rest =>
      cases running
      exact ⟨asked _, pushed rest⟩
  | drive rest =>
      cases running
      exact ⟨asked _, pushed rest⟩

theorem DeliversLast.resume (delivers : task.DeliversLast) {reason : Wait}
    (waiting : task.step options host world = .waiting next reason after) :
    after.DeliversLast := by
  obtain ⟨-, rest, stack, rfl, rfl⟩ := eq_of_waiting waiting
  rcases delivers with ⟨last, frames⟩
  cases last with
  | wait rest => exact ⟨rest, frames⟩

end Task

end TreeScript
