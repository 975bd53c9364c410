import TreeScript.Proofs.Reach

/-!
# The limit of steps

Only a tick counts as a step, and a tick beyond the limit ends the script: its
error is caught nowhere, and nothing takes a further step on the way out.  So
however long a script runs, it never takes more than one step beyond the limit.
-/

namespace TreeScript

/-- Whether an error is that of a step beyond the limit. -/
def Cause.IsStepLimit (cause : Cause) : Prop :=
  cause = .stepLimit

namespace Task

variable {options : Options} {host : Host} {mode : Mode}

/-- A task that is about to end with the error of a step beyond the limit. -/
def IsExhausted (task : Task) : Prop :=
  ∃ error : Error, error.cause.IsStepLimit ∧ task.process = .done (.answer (.error (.error error)))

/-- The steps so far: within a bound, or one more in a task that is about to end. -/
def Paced (bound : Nat) (world : World) (task : Task) : Prop :=
  world.steps ≤ bound ∨ (world.steps ≤ bound + 1 ∧ task.IsExhausted)

theorem Paced.le {bound : Nat} {world : World} {task : Task} (paced : Paced bound world task) :
    world.steps ≤ bound + 1 :=
  paced.elim Nat.le_succ_of_le And.left

/-- What is about to end with an error that nothing catches still is after a step. -/
theorem Lawful.exhausted {world next : World} {task after : Task} {goals : List Goal}
    (lawful : Lawful options Cause.IsStepLimit mode world task goals)
    (exhausted : task.IsExhausted)
    (running : task.step options host world = .running next after) :
    next = world ∧ after.IsExhausted := by
  rcases task with ⟨process, stack⟩
  rcases exhausted with ⟨error, isStepLimit, rfl : process = _⟩
  cases lawful.frames with
  | foot => cases running
  | barrier atOnce =>
      cases running
      exact ⟨rfl, error, isStepLimit, rfl⟩
  | push keeps rest =>
      obtain ⟨turn, gave, ends⟩ :=
        keeps.propagates error ((Law.givesUp_of _).mpr isStepLimit)
      rcases Turn.gaveUp_iff.mp gave with ⟨final, rfl, given⟩
      rw [step_answer] at running
      cases running
      exact ⟨rfl, final, (Law.givesUp_of _).mp given, ends⟩

/-- The pace is kept by every step. -/
theorem Lawful.paced {bound : Nat} {world next : World} {task after : Task} {goals : List Goal}
    (lawful : Lawful options Cause.IsStepLimit mode world task goals)
    (limited : 0 < options.stepLimit)
    (within : options.stepLimit ≤ bound)
    (paced : Paced bound world task)
    (running : task.step options host world = .running next after) :
    Paced bound next after := by
  rcases paced with few | ⟨few, exhausted⟩
  · cases lawful.move running with
    | @act _ action _ _ plain =>
        refine .inl ?_
        rw [(World.perform_keeps options action plain.hostless).1 plain.ne_tick]
        exact few
    | tick stops =>
        by_cases accepted : world.steps + 1 ≤ options.stepLimit
        · exact .inl (Nat.le_trans accepted within)
        · rcases stops rfl with ⟨error, given, ends⟩
          have refused : (world.perform options .tick).1 = false := by
            show (options.stepLimit == 0 || decide (world.steps + 1 ≤ options.stepLimit)) = false
            simp [accepted, Nat.pos_iff_ne_zero.mp limited]
          refine .inr ⟨Nat.succ_le_succ few, error, given, ?_⟩
          rw [refused]
          exact ends
    | answer | again | call | drive => exact .inl few
  · rcases lawful.exhausted exhausted running with ⟨rfl, after⟩
    exact .inr ⟨few, after⟩

/-- A synchronous script takes at most one step beyond the limit. -/
theorem Reached.steps_le {start world : World} {root : Scope} {script : List Node} {task : Task}
    {goals : List Goal}
    (limited : 0 < options.stepLimit)
    (hostless : start.store.Hostless)
    (reached : Reached options host KeepsFunctions start
      (ofScript root script .synchronous) world task goals) :
    world.steps ≤ max start.steps options.stepLimit + 1 := by
  have paced : Paced (max start.steps options.stepLimit) world task :=
    reached.always Cause.IsStepLimit hostless (.inl (Nat.le_max_left _ _))
      fun lawful paced running =>
        lawful.paced limited (Nat.le_max_right _ _) paced running
  exact paced.le

end Task

end TreeScript
