import TreeScript.Lifecycle

/-!
# Transitions of the lifecycle

A transition settles the handlers that it takes, and each of these may cause
another transition.  Evaluation that has been stopped stays so.  An abort does
the same whether a pause is in effect or not, unless one of the handlers that
wait for it pauses or resumes: that is the only place where the pause matters.
-/

namespace TreeScript

/-- A response that has nothing to do with the pause. -/
def Response.IsCalm : Response → Prop
  | .cause .pause => False
  | .cause .unpause => False
  | _ => True

namespace Lifecycle

/-! ## Stopping -/

theorem isStopped_register {lifecycle : Lifecycle} (stopped : lifecycle.isStopped = true)
    (transition : Transition) (handler : Handler) :
    (lifecycle.register transition handler).isStopped = true := by
  cases transition <;> exact stopped

/-- No transition lets evaluation go on that has been stopped. -/
theorem isStopped_enter {lifecycle : Lifecycle} (stopped : lifecycle.isStopped = true)
    (transition : Transition) :
    (lifecycle.enter transition).1.isStopped = true := by
  cases transition with
  | abort =>
      rw [enter, if_pos stopped]
      exact stopped
  | pause =>
      rw [enter]
      split <;> exact stopped
  | unpause =>
      rw [enter]
      split <;> exact stopped

theorem isStopped_settle {lifecycle : Lifecycle} (handlers : List Handler)
    (stopped : lifecycle.isStopped = true) :
    (lifecycle.settle handlers).1.isStopped = true := by
  fun_induction settle lifecycle handlers with
  | case1 lifecycle => exact stopped
  | case2 lifecycle handler rest response settled tags same inductive_step =>
      rw [same] at inductive_step
      exact inductive_step stopped
  | case3 lifecycle handler rest transition response settled tags same inductive_step =>
      rw [same] at inductive_step
      exact inductive_step (isStopped_enter stopped transition)
  | case4 lifecycle handler rest transition response settled tags same inductive_step =>
      rw [same] at inductive_step
      exact inductive_step (isStopped_register stopped transition handler)

theorem isStopped_abort (lifecycle : Lifecycle) :
    (lifecycle.transition .abort).1.isStopped = true := by
  refine isStopped_settle _ ?_
  rw [enter]
  split
  · assumption
  · rfl

/-! ## Aborting with and without a pause -/

/-- A lifecycle without its pause. -/
def unpaused (lifecycle : Lifecycle) : Lifecycle :=
  { lifecycle with pause := none, pauses := 0 }

/-- No handler that waits for an abort pauses or resumes. -/
def AbortsCalmly (lifecycle : Lifecycle) : Prop :=
  ∀ handler ∈ lifecycle.onAbort, handler.response.IsCalm

theorem isStopped_of_unpaused {lifecycle other : Lifecycle}
    (same : lifecycle.unpaused = other.unpaused) :
    lifecycle.isStopped = other.isStopped :=
  show lifecycle.unpaused.isStopped = other.unpaused.isStopped from congrArg _ same

theorem onAbort_of_unpaused {lifecycle other : Lifecycle}
    (same : lifecycle.unpaused = other.unpaused) :
    lifecycle.onAbort = other.onAbort :=
  show lifecycle.unpaused.onAbort = other.unpaused.onAbort from congrArg _ same

theorem unpaused_register (lifecycle : Lifecycle) (transition : Transition) (handler : Handler) :
    (lifecycle.register transition handler).unpaused =
      lifecycle.unpaused.register transition handler := by
  cases transition <;> rfl

theorem AbortsCalmly.register {lifecycle : Lifecycle} (calmly : lifecycle.AbortsCalmly)
    (transition : Transition) {handler : Handler} (calm : handler.response.IsCalm) :
    (lifecycle.register transition handler).AbortsCalmly := by
  cases transition with
  | abort => exact List.forall_mem_cons.mpr ⟨calm, calmly⟩
  | pause | unpause => exact calmly

/-- An abort takes the same handlers whatever the pause, and all that it takes are calm. -/
theorem enter_abort {lifecycle other : Lifecycle} (same : lifecycle.unpaused = other.unpaused)
    (calmly : lifecycle.AbortsCalmly) :
    (lifecycle.enter .abort).1.unpaused = (other.enter .abort).1.unpaused ∧
      (lifecycle.enter .abort).2 = (other.enter .abort).2 ∧
      (lifecycle.enter .abort).1.AbortsCalmly ∧
      ∀ handler ∈ (lifecycle.enter .abort).2, handler.response.IsCalm := by
  have stopped := isStopped_of_unpaused same
  have waiting := onAbort_of_unpaused same
  cases isStopped : lifecycle.isStopped with
  | true =>
      rw [enter, enter, if_pos isStopped, if_pos (stopped.symm.trans isStopped)]
      exact ⟨same, rfl, calmly, List.forall_mem_nil _⟩
  | false =>
      rw [enter, enter, if_neg (ne_true_of_eq_false isStopped),
        if_neg (ne_true_of_eq_false (stopped.symm.trans isStopped))]
      refine ⟨?_, congrArg List.reverse waiting, List.forall_mem_nil _, fun handler mem => ?_⟩
      · exact congrArg (fun rest : Lifecycle => { rest with isStopped := true, onAbort := [] }) same
      · exact calmly handler (List.mem_reverse.mp mem)

/-- Calm handlers settle in the same way whatever the pause. -/
theorem settle_calm {lifecycle other : Lifecycle} (handlers : List Handler)
    (same : lifecycle.unpaused = other.unpaused)
    (calmly : lifecycle.AbortsCalmly)
    (calm : ∀ handler ∈ handlers, handler.response.IsCalm) :
    (lifecycle.settle handlers).1.unpaused = (other.settle handlers).1.unpaused ∧
      (lifecycle.settle handlers).2 = (other.settle handlers).2 ∧
      (lifecycle.settle handlers).1.AbortsCalmly := by
  fun_induction settle lifecycle handlers generalizing other with
  | case1 lifecycle =>
      rw [settle]
      exact ⟨same, rfl, calmly⟩
  | case2 lifecycle handler rest response settled tags settles inductive_step =>
      rw [settles] at inductive_step
      obtain ⟨-, rest⟩ := List.forall_mem_cons.mp calm
      obtain ⟨lifecycles, fired, calmly⟩ := inductive_step same calmly rest
      rw [settle, response]
      exact ⟨lifecycles, congrArg (handler.tag :: ·) fired, calmly⟩
  | case3 lifecycle handler rest transition response settled tags settles inductive_step =>
      rw [settles] at inductive_step
      obtain ⟨first, rest⟩ := List.forall_mem_cons.mp calm
      rw [response] at first
      cases transition with
      | pause | unpause => exact first.elim
      | abort =>
          obtain ⟨lifecycles, taken, calmly, calmlyTaken⟩ := enter_abort same calmly
          have pending := List.forall_mem_append.mpr ⟨calmlyTaken, rest⟩
          obtain ⟨lifecycles, fired, calmly⟩ := inductive_step lifecycles calmly pending
          rw [settle, response]
          dsimp only
          rw [← taken]
          exact ⟨lifecycles, congrArg (handler.tag :: ·) fired, calmly⟩
  | case4 lifecycle handler rest transition response settled tags settles inductive_step =>
      rw [settles] at inductive_step
      obtain ⟨first, rest⟩ := List.forall_mem_cons.mp calm
      have registered : (lifecycle.register transition handler).unpaused =
          (other.register transition handler).unpaused := by
        rw [unpaused_register, unpaused_register, same]
      obtain ⟨lifecycles, fired, calmly⟩ :=
        inductive_step registered (calmly.register transition first) rest
      rw [settle, response]
      exact ⟨lifecycles, congrArg (handler.tag :: ·) fired, calmly⟩

/-- A calm abort fires the same handlers whatever the pause. -/
theorem transition_abort {lifecycle other : Lifecycle}
    (same : lifecycle.unpaused = other.unpaused) (calmly : lifecycle.AbortsCalmly) :
    (lifecycle.transition .abort).1.unpaused = (other.transition .abort).1.unpaused ∧
      (lifecycle.transition .abort).2 = (other.transition .abort).2 ∧
      (lifecycle.transition .abort).1.AbortsCalmly := by
  obtain ⟨lifecycles, taken, calmly, calm⟩ := enter_abort same calmly
  have settled := settle_calm _ lifecycles calmly calm
  rw [transition, transition, ← taken]
  exact settled

end Lifecycle

end TreeScript
