import TreeScript.Proofs.ClosedGoals
import TreeScript.Proofs.ConstructManner

/-!
# The manner of goals

Closures and the functions of the library mind every plain manner, since that is
a property that the operations of rules keep.  What is left are the places where
a goal does more: the gate and the step in front of a node, the functions of the
host, and the delivery of an error at an entry point.  `uses_ofGoal` says what a
manner has to allow there.
-/

namespace TreeScript

open Rule

namespace Evaluation

variable {manner : Manner} {context : Context}

/-- A call minds a plain manner if the native functions that may be found do so. -/
theorem minds_apply (plain : manner.Plain context.mode) (options : Options) (host : Host)
    (function : FunctionId) (arguments : List Value) (site : Option Position)
    (natives : ∀ (store : Store) (found : Function) (native : Native),
      manner.replies .store store → store.function? function = some found →
      found.body = .native native →
      ((nativeForms host native).apply arguments context site).Minds manner) :
    (apply options host function arguments context site).Minds manner := by
  refine (uses_look (plain.acts .store trivial) fun store replied => ?_).bind
    fun found (known : ∀ (callee : Function) (native : Native), found = some callee →
      callee.body = .native native →
      ((nativeForms host native).apply arguments context site).Minds manner) => ?_
  · exact fun callee native present isNative => natives store callee native replied present isNative
  · split
    · exact closed_applyClosure plain.closed options _ _ _ _ _ arguments site
    · exact known _ _ rfl rfl
    · exact uses_fail _

section Entry

variable {mode : Mode}

theorem minds_applyValue (plain : manner.Plain mode) (callee : Value) (arguments : List Value) :
    (applyValue callee arguments mode).Minds manner :=
  closed_applyValue plain.closed callee arguments

/-- An entry point hands its error to the host, besides. -/
theorem minds_enter (plain : manner.Plain mode) (delivers : ∀ error, manner.acts (.deliver error))
    (callee : Value) (arguments : List Value) :
    (enter callee arguments mode).Minds manner := by
  refine (minds_applyValue plain callee arguments).outcome_bind fun outcome => ?_
  split
  · exact uses_pure trivial
  · refine (minds_perform (delivers _)).bind fun answer _ => ?_
    cases answer with
    | none => exact uses_pure trivial
    | some error => exact uses_fail _

end Entry

/-! ## Goals -/

theorem minds_gate {mode : Mode} (plain : manner.Plain mode) (looksAtPause : manner.acts .pause)
    (looksAtSteps : manner.acts .steps) (yields : manner.acts .yielded)
    (waits : ∀ reason, manner.waits reason) (irq : Irq) :
    (gate irq).Minds manner :=
  closed_gate plain.closed (minds_perform looksAtPause) (minds_perform looksAtSteps)
    (minds_perform yields) (fun reason => minds_wait (waits reason)) irq

theorem uses_answering {rule : Rule Value} (minds : rule.Minds manner) :
    (answering rule).Uses manner (Turn.Minds manner) :=
  Uses.bind minds fun _ _ => uses_pure trivial

theorem uses_process {rule : Rule Turn} (uses : rule.Uses manner (Turn.Minds manner)) :
    (process rule).Uses manner (Turn.Minds manner) := by
  refine Process.Uses.bind uses fun result given => .done ?_
  rcases result with interrupt | turn
  · trivial
  · exact given turn rfl

end Evaluation

/-- A plain manner that the native functions mind which may be found in the store. -/
structure Manner.Serves (manner : Manner) (host : Host) (mode : Mode) : Prop
    extends manner.Plain mode where
  natives : ∀ (store : Store) (function : FunctionId) (found : Function) (native : Native),
    manner.replies .store store → store.function? function = some found →
    found.body = .native native → ∀ (context : Context) (arguments : List Value)
      (site : Option Position), context.mode = mode →
      ((Evaluation.nativeForms host native).apply arguments context site).Minds manner

/-- Where no function of the host is found, a plain manner is all that is needed. -/
theorem Manner.serves_of_hostless {manner : Manner} {mode : Mode} (plain : manner.Plain mode)
    (hostless : ∀ store : Store, manner.replies .store store → store.Hostless) (host : Host) :
    manner.Serves host mode where
  toPlain := plain
  natives := by
    rintro store function found native replied present isNative context arguments site rfl
    refine Evaluation.closed_nativeForms plain.closed native arguments site ?_
    rintro name forms rfl
    have own := hostless store replied function found present
    rw [isNative] at own
    exact own.elim

/-- Whether a goal is the evaluation of a node. -/
def Goal.IsNode : Goal → Prop
  | .evaluate _ _ _ => True
  | _ => False

namespace Evaluation

variable {manner : Manner} {options : Options} {host : Host} {mode : Mode}

/-- A goal other than a node does what its manner allows. -/
theorem uses_ofGoal_of_not_isNode (serves : manner.Serves host mode) {goal : Goal}
    (runs : goal.RunsIn mode) (noNode : ¬ goal.IsNode) :
    (ofGoal options host goal).Uses manner (Turn.Minds manner) := by
  have plain := serves.toPlain
  refine uses_process ?_
  cases goal with
  | evaluate node scope context => exact (noNode trivial).elim
  | loop label statements scope context =>
      cases runs
      exact uses_loopTurn plain label statements
  | times label start limit body scope context =>
      cases runs
      exact uses_timesTurn plain label start limit body
  | range label counter start limit body scope context =>
      cases runs
      exact uses_rangeTurn plain label counter start limit body
  | each label pattern array place body scope context =>
      cases runs
      exact uses_eachTurn plain label pattern array place body
  | apply function arguments context site =>
      cases runs
      refine uses_answering (minds_apply plain options host function arguments site ?_)
      intro store found native replied present isNative
      exact serves.natives store function found native replied present isNative context arguments
        site rfl
  | enter callee arguments mode => exact runs.elim

/-- A goal does what its manner allows, if that includes a step and the gate in front of it. -/
theorem uses_ofGoal (serves : manner.Serves host mode) (ticks : manner.acts .tick)
    (gated : mode = .asynchronous → (gate options.irq).Minds manner) {goal : Goal}
    (runs : goal.RunsIn mode) :
    (ofGoal options host goal).Uses manner (Turn.Minds manner) := by
  by_cases isNode : goal.IsNode
  · cases goal with
    | evaluate node scope context =>
        cases runs
        exact uses_process (uses_answering
          (closed_evaluateNode serves.toPlain.closed (minds_perform ticks) gated node scope
            (minds_definition serves.toPlain node.start) (minds_signal serves.toPlain node.start)))
    | _ => exact isNode.elim
  · exact uses_ofGoal_of_not_isNode serves runs isNode

end Evaluation

/-! ## Tasks -/

namespace Task

variable {manner : Manner} {options : Options} {host : Host}

/-- A task all of whose processes do what a manner allows. -/
structure Minds (manner : Manner) (task : Task) : Prop where
  process : task.process.Uses manner (Turn.Minds manner)
  frames : ∀ frame ∈ task.stack, ∀ outcome,
    (frame.resume outcome).Uses manner (Turn.Minds manner)

/-- The frame of a barrier and those below it are on the stack. -/
theorem subset_of_barrier? {stack outer : List Frame} {frame : Frame}
    (found : barrier? stack = some (frame, outer)) :
    frame :: outer ⊆ stack := by
  induction stack with
  | nil => cases found
  | cons top rest inductive_step =>
      rw [barrier?] at found
      split at found
      · cases found
        exact List.Subset.refl _
      · exact List.subset_cons_of_subset top (inductive_step found)

/-- A step keeps to a manner that the goals it allows keep to. -/
theorem Minds.step {world next : World} {task after : Task} (minds : task.Minds manner)
    (replied : ∀ action, manner.acts action →
      manner.replies action (world.perform options action).1)
    (asked : ∀ goal, manner.calls goal →
      (Evaluation.ofGoal options host goal).Uses manner (Turn.Minds manner))
    (driven : ∀ goal, manner.drives goal →
      (Evaluation.ofGoal options host goal).Uses manner (Turn.Minds manner))
    (running : task.step options host world = .running next after) :
    after.Minds manner := by
  rcases task with ⟨process, stack⟩
  rcases minds with ⟨uses, frames⟩
  have pushed {resume : Outcome → Process Turn} {isBarrier : Bool}
      (resumes : ∀ outcome, (resume outcome).Uses manner (Turn.Minds manner)) :
      ∀ frame ∈ ⟨resume, isBarrier⟩ :: stack, ∀ outcome,
        (frame.resume outcome).Uses manner (Turn.Minds manner) :=
    List.forall_mem_cons.mpr ⟨resumes, frames⟩
  cases uses with
  | @done turn given =>
      cases turn with
      | answer outcome =>
          cases stack with
          | nil => cases running
          | cons frame outer =>
              cases running
              obtain ⟨resumes, rest⟩ := List.forall_mem_cons.mp frames
              exact ⟨resumes outcome, rest⟩
      | again goal =>
          cases running
          exact ⟨asked goal given, frames⟩
  | act allowed rest =>
      cases running
      exact ⟨rest _ (replied _ allowed), frames⟩
  | wait allowed rest =>
      cases found : barrier? stack with
      | none =>
          rw [step_wait found] at running
          cases running
      | some barrier =>
          rw [step_wait_barrier found] at running
          cases running
          have below := subset_of_barrier? found
          refine ⟨frames _ (below List.mem_cons_self) _, ?_⟩
          exact fun frame mem => frames frame (below (List.mem_cons_of_mem _ mem))
  | call allowed rest =>
      cases running
      exact ⟨asked _ allowed, pushed rest⟩
  | drive allowed rest =>
      cases running
      exact ⟨driven _ allowed, pushed rest⟩

end Task

end TreeScript
