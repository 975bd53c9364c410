import TreeScript.Proofs.Entry
import TreeScript.Proofs.Execution
import TreeScript.Proofs.GoalComparison

/-!
# How evaluation ends

A task takes steps, has frames and may be suspended again and again.  Where only
the end of an evaluation matters, `Process.Ends` says without steps and frames
how a process comes to its end: what it asks for comes to an end first, and then
the process goes on with it.  A process below a barrier may not wait, and if it
wants to, it ends without a result.

`Task.ends_iff` says that this is how tasks end.  `Rule.Ends` is the same for
rules, with one lemma for each operation that rules are written with, so that
what a rule comes to can be read off the rule.
-/

namespace TreeScript

open Rule

variable {α β : Type}

namespace Turn

/-- To go on with a turn: with the outcome, or by asking for the other goal. -/
def andThen (turn : Turn) (next : Outcome → Process α) : Process α :=
  match turn with
  | .answer outcome => next outcome
  | .again goal => .call goal next

/-- To go on with a turn of a goal that is run to its end at once. -/
def andThenAtOnce (turn : Turn) (next : Outcome → Process α) : Process α :=
  match turn with
  | .answer outcome => next outcome
  | .again goal => .drive goal next

theorem bind_andThen (turn : Turn) (next : Outcome → Process α) (continuation : α → Process β) :
    (turn.andThen next).bind continuation =
      turn.andThen fun outcome => (next outcome).bind continuation := by
  cases turn <;> rfl

theorem bind_andThenAtOnce (turn : Turn) (next : Outcome → Process α)
    (continuation : α → Process β) :
    (turn.andThenAtOnce next).bind continuation =
      turn.andThenAtOnce fun outcome => (next outcome).bind continuation := by
  cases turn <;> rfl

end Turn

namespace Process

/--
How a process ends, polled again whenever what it waits for is over.  Unless it
is free to wait, it ends without a result as soon as it wants to.
-/
inductive Ends (options : Options) (host : Host) :
    Bool → {α : Type} → World → Process α → World → Option α → Prop where
  | done {free : Bool} {α : Type} {world : World} {result : α} :
      Ends options host free world (.done result) world (some result)
  | act {free : Bool} {α : Type} {world reached : World} {action : Action}
      {next : action.Reply → Process α} {result : Option α}
      (rest : Ends options host free (world.perform options action).2
        (next (world.perform options action).1) reached result) :
      Ends options host free world (.act action next) reached result
  | wait {α : Type} {world reached : World} {reason : Wait} {next : Process α}
      {result : Option α}
      (ended : reason.isOver world.lifecycle = true)
      (rest : Ends options host true world next reached result) :
      Ends options host true world (.wait reason next) reached result
  | refused {α : Type} {world : World} {reason : Wait} {next : Process α} :
      Ends options host false world (.wait reason next) world none
  | call {free : Bool} {α : Type} {world between reached : World} {goal : Goal}
      {next : Outcome → Process α} {turn : Turn} {result : Option α}
      (asked : Ends options host free world (Evaluation.ofGoal options host goal) between
        (some turn))
      (rest : Ends options host free between (turn.andThen next) reached result) :
      Ends options host free world (.call goal next) reached result
  | callRefused {free : Bool} {α : Type} {world reached : World} {goal : Goal}
      {next : Outcome → Process α}
      (asked : Ends options host free world (Evaluation.ofGoal options host goal) reached none) :
      Ends options host free world (.call goal next) reached none
  | drive {free : Bool} {α : Type} {world between reached : World} {goal : Goal}
      {next : Outcome → Process α} {turn : Turn} {result : Option α}
      (asked : Ends options host false world (Evaluation.ofGoal options host goal) between
        (some turn))
      (rest : Ends options host free between (turn.andThenAtOnce next) reached result) :
      Ends options host free world (.drive goal next) reached result
  | driveRefused {free : Bool} {α : Type} {world between reached : World} {goal : Goal}
      {next : Outcome → Process α} {result : Option α}
      (asked : Ends options host false world (Evaluation.ofGoal options host goal) between none)
      (rest : Ends options host free between (next Task.cannotWait) reached result) :
      Ends options host free world (.drive goal next) reached result

variable {options : Options} {host : Host} {free : Bool} {world between next reached : World}

theorem ends_done_iff {given : α} {result : Option α} :
    Ends options host free world (.done given) reached result ↔
      reached = world ∧ result = some given := by
  constructor
  · rintro ⟨⟩
    exact ⟨rfl, rfl⟩
  · rintro ⟨rfl, rfl⟩
    exact .done

theorem ends_act_iff {action : Action} {proceed : action.Reply → Process α} {result : Option α} :
    Ends options host free world (.act action proceed) reached result ↔
      Ends options host free (world.perform options action).2
        (proceed (world.perform options action).1) reached result :=
  ⟨fun ends => by cases ends; assumption, .act⟩

/-- What goes on after a process ends where both parts do, one after the other. -/
theorem Ends.bind {process : Process α} {continuation : α → Process β} {given : α}
    {result : Option β}
    (first : process.Ends options host free world between (some given))
    (second : (continuation given).Ends options host free between reached result) :
    (process.bind continuation).Ends options host free world reached result := by
  generalize ended : some given = middle at first
  induction first with
  | done =>
      cases ended
      exact second
  | act _ inductive_step => exact .act (inductive_step second ended)
  | wait passed _ inductive_step => exact .wait passed (inductive_step second ended)
  | refused | callRefused => cases ended
  | call asked _ _ inductive_step =>
      exact .call asked (Turn.bind_andThen .. ▸ inductive_step second ended)
  | drive asked _ _ inductive_step =>
      exact .drive asked (Turn.bind_andThenAtOnce .. ▸ inductive_step second ended)
  | driveRefused asked _ _ inductive_step => exact .driveRefused asked (inductive_step second ended)

/-- What goes on after a process that ends without a result does not get there either. -/
theorem Ends.bind_none {process : Process α} {continuation : α → Process β}
    (stuck : process.Ends options host free world reached none) :
    (process.bind continuation).Ends options host free world reached none := by
  generalize ended : none = middle at stuck
  induction stuck with
  | done => cases ended
  | act _ inductive_step => exact .act (inductive_step ended)
  | wait passed _ inductive_step => exact .wait passed (inductive_step ended)
  | refused => exact .refused
  | call asked _ _ inductive_step =>
      exact .call asked (Turn.bind_andThen .. ▸ inductive_step ended)
  | callRefused asked => exact .callRefused asked
  | drive asked _ _ inductive_step =>
      exact .drive asked (Turn.bind_andThenAtOnce .. ▸ inductive_step ended)
  | driveRefused asked _ _ inductive_step => exact .driveRefused asked (inductive_step ended)

/-- After a process that is done, nothing is left but what goes on. -/
theorem Ends.of_done_bind {given : α} {continuation : α → Process β} {both : Process β}
    {result : Option β} (whole : (Process.done given).bind continuation = both)
    (ends : both.Ends options host free world reached result) :
    ∃ between other, (Process.done given).Ends options host free world between (some other) ∧
      (continuation other).Ends options host free between reached result :=
  ⟨world, given, .done, (done_bind given continuation).symm.trans whole ▸ ends⟩

/-- How one process after another ends. -/
theorem ends_bind_iff {process : Process α} {continuation : α → Process β} {result : Option β} :
    (process.bind continuation).Ends options host free world reached result ↔
      (∃ between given, process.Ends options host free world between (some given) ∧
        (continuation given).Ends options host free between reached result) ∨
      result = none ∧ process.Ends options host free world reached none := by
  constructor
  · intro ends
    generalize whole : process.bind continuation = both at ends
    induction ends generalizing process with
    | done =>
        cases process with
        | done given => exact .inl (Ends.of_done_bind whole .done)
        | _ => cases whole
    | act rest inductive_step =>
        cases process with
        | done given => exact .inl (Ends.of_done_bind whole (.act rest))
        | act action next =>
            cases whole
            rcases inductive_step rfl with ⟨between, given, first, second⟩ | ⟨rfl, stuck⟩
            · exact .inl ⟨between, given, .act first, second⟩
            · exact .inr ⟨rfl, .act stuck⟩
        | _ => cases whole
    | wait passed rest inductive_step =>
        cases process with
        | done given => exact .inl (Ends.of_done_bind whole (.wait passed rest))
        | wait reason next =>
            cases whole
            rcases inductive_step rfl with ⟨between, given, first, second⟩ | ⟨rfl, stuck⟩
            · exact .inl ⟨between, given, .wait passed first, second⟩
            · exact .inr ⟨rfl, .wait passed stuck⟩
        | _ => cases whole
    | refused =>
        cases process with
        | done given => exact .inl (Ends.of_done_bind whole .refused)
        | wait reason next => exact .inr ⟨rfl, .refused⟩
        | _ => cases whole
    | call asked rest _ inductive_step =>
        cases process with
        | done given => exact .inl (Ends.of_done_bind whole (.call asked rest))
        | call goal next =>
            cases whole
            rcases inductive_step (Turn.bind_andThen ..) with
              ⟨between, given, first, second⟩ | ⟨rfl, stuck⟩
            · exact .inl ⟨between, given, .call asked first, second⟩
            · exact .inr ⟨rfl, .call asked stuck⟩
        | _ => cases whole
    | callRefused asked =>
        cases process with
        | done given => exact .inl (Ends.of_done_bind whole (.callRefused asked))
        | call goal next =>
            cases whole
            exact .inr ⟨rfl, .callRefused asked⟩
        | _ => cases whole
    | drive asked rest _ inductive_step =>
        cases process with
        | done given => exact .inl (Ends.of_done_bind whole (.drive asked rest))
        | drive goal next =>
            cases whole
            rcases inductive_step (Turn.bind_andThenAtOnce ..) with
              ⟨between, given, first, second⟩ | ⟨rfl, stuck⟩
            · exact .inl ⟨between, given, .drive asked first, second⟩
            · exact .inr ⟨rfl, .drive asked stuck⟩
        | _ => cases whole
    | driveRefused asked rest _ inductive_step =>
        cases process with
        | done given => exact .inl (Ends.of_done_bind whole (.driveRefused asked rest))
        | drive goal next =>
            cases whole
            rcases inductive_step rfl with ⟨between, given, first, second⟩ | ⟨rfl, stuck⟩
            · exact .inl ⟨between, given, .driveRefused asked first, second⟩
            · exact .inr ⟨rfl, .driveRefused asked stuck⟩
        | _ => cases whole
  · rintro (⟨between, given, first, second⟩ | ⟨rfl, stuck⟩)
    · exact first.bind second
    · exact stuck.bind_none

/-- A process ends in one way at most. -/
theorem Ends.unique {process : Process α} {next : World} {result other : Option α}
    (first : process.Ends options host free world reached result)
    (second : process.Ends options host free world next other) :
    reached = next ∧ result = other := by
  induction first generalizing next with
  | done =>
      cases second
      exact ⟨rfl, rfl⟩
  | act _ inductive_step =>
      cases second with
      | act rest => exact inductive_step rest
  | wait _ _ inductive_step =>
      cases second with
      | wait _ rest => exact inductive_step rest
  | refused =>
      cases second
      exact ⟨rfl, rfl⟩
  | call _ _ asks inductive_step =>
      cases second with
      | call asked rest =>
          obtain ⟨rfl, ⟨⟩⟩ := asks asked
          exact inductive_step rest
      | callRefused asked => cases (asks asked).2
  | callRefused _ asks =>
      cases second with
      | call asked rest => cases (asks asked).2
      | callRefused asked => exact ⟨(asks asked).1, rfl⟩
  | drive _ _ asks inductive_step =>
      cases second with
      | drive asked rest =>
          obtain ⟨rfl, ⟨⟩⟩ := asks asked
          exact inductive_step rest
      | driveRefused asked _ => cases (asks asked).2
  | driveRefused _ _ asks inductive_step =>
      cases second with
      | drive asked rest => cases (asks asked).2
      | driveRefused asked rest =>
          obtain ⟨rfl, -⟩ := asks asked
          exact inductive_step rest

/-- What every action does to the world, a process does up to its end. -/
theorem Ends.related (related : World → World → Prop)
    (refl : ∀ world, related world world)
    (trans : ∀ {world between next}, related world between → related between next →
      related world next)
    (acts : ∀ world action, related world (world.perform options action).2)
    {process : Process α} {result : Option α}
    (ends : process.Ends options host free world reached result) :
    related world reached := by
  induction ends with
  | done | refused => exact refl _
  | act _ inductive_step => exact trans (acts _ _) inductive_step
  | wait _ _ inductive_step | callRefused _ inductive_step => exact inductive_step
  | call _ _ asks inductive_step | drive _ _ asks inductive_step
  | driveRefused _ _ asks inductive_step => exact trans asks inductive_step

/-- What is free to wait ends with a result, if it ends. -/
theorem Ends.exists_of_free {process : Process α} {result : Option α}
    (ends : process.Ends options host true world reached result) :
    ∃ given, result = some given := by
  generalize isFree : true = free at ends
  induction ends with
  | done => exact ⟨_, rfl⟩
  | act _ inductive_step | wait _ _ inductive_step | call _ _ _ inductive_step
  | drive _ _ _ inductive_step | driveRefused _ _ _ inductive_step =>
      exact inductive_step isFree
  | refused => cases isFree
  | callRefused _ inductive_step =>
      obtain ⟨turn, ⟨⟩⟩ := inductive_step isFree

end Process

/-! ## Tasks -/

/-- Whether a process above some frames is free to wait. -/
def Frame.leaveFree (stack : List Frame) : Bool :=
  (Task.barrier? stack).isNone

section Definitions

variable (options : Options) (host : Host)

/--
How frames end one after the other, when the process above them has made a turn
or has ended without one, since it wanted to wait below a barrier.
-/
inductive Frame.End : World → Option Turn → List Frame → World → Outcome → Prop where
  | foot {world : World} {outcome : Outcome} :
      End world (some (.answer outcome)) [] world outcome
  | again {world between reached : World} {goal : Goal} {turn : Option Turn}
      {stack : List Frame} {outcome : Outcome}
      (asked : (Evaluation.ofGoal options host goal).Ends options host (leaveFree stack) world
        between turn)
      (rest : End between turn stack reached outcome) :
      End world (some (.again goal)) stack reached outcome
  | resume {world between reached : World} {given outcome : Outcome} {turn : Option Turn}
      {frame : Frame} {outer : List Frame}
      (first : (frame.resume given).Ends options host (leaveFree outer) world between turn)
      (rest : End between turn outer reached outcome) :
      End world (some (.answer given)) (frame :: outer) reached outcome
  | skip {world reached : World} {outcome : Outcome} {frame : Frame} {outer : List Frame}
      (isOpen : frame.isBarrier = false)
      (rest : End world none outer reached outcome) :
      End world none (frame :: outer) reached outcome
  | stop {world between reached : World} {outcome : Outcome} {turn : Option Turn}
      {frame : Frame} {outer : List Frame}
      (isBarrier : frame.isBarrier = true)
      (first : (frame.resume Task.cannotWait).Ends options host (leaveFree outer) world between
        turn)
      (rest : End between turn outer reached outcome) :
      End world none (frame :: outer) reached outcome

/-- How a task comes to its end: its process first, and then its frames. -/
def Task.Concludes (world : World) (task : Task) (reached : World) (outcome : Outcome) : Prop :=
  ∃ between turn,
    task.process.Ends options host (Frame.leaveFree task.stack) world between turn ∧
      Frame.End options host between turn task.stack reached outcome

end Definitions

section Tasks

variable {options : Options} {host : Host} {free : Bool} {world between next reached : World}
variable {task after : Task} {stack outer : List Frame} {outcome : Outcome}

namespace Frame

/-- A frame for a goal that is asked for goes on when the goal has made its turns. -/
theorem End.of_call {turn : Option Turn} {resume : Outcome → Process Turn}
    (ends : End options host world turn (⟨resume, false⟩ :: stack) reached outcome) :
    ∃ between turn',
      (∀ {start : World} {goal : Goal},
        (Evaluation.ofGoal options host goal).Ends options host (leaveFree stack) start world
          turn →
        (Process.call goal resume).Ends options host (leaveFree stack) start between turn') ∧
        End options host between turn' stack reached outcome := by
  generalize frames : (⟨resume, false⟩ :: stack : List Frame) = whole at ends
  induction ends with
  | foot => cases frames
  | @again world between _ goal turn _ _ asked rest inductive_step =>
      cases frames
      obtain ⟨last, turn', continues, ends⟩ := inductive_step rfl
      exact ⟨last, turn', fun first => .call first (continues asked), ends⟩
  | resume first rest _ =>
      cases frames
      exact ⟨_, _, fun asked => .call asked first, rest⟩
  | skip _ rest _ =>
      cases frames
      exact ⟨_, _, fun asked => .callRefused asked, rest⟩
  | stop isBarrier _ _ _ =>
      cases frames
      cases isBarrier

/-- A frame for a goal that is driven is a barrier. -/
theorem End.of_drive {turn : Option Turn} {resume : Outcome → Process Turn}
    (ends : End options host world turn (⟨resume, true⟩ :: stack) reached outcome) :
    ∃ between turn',
      (∀ {start : World} {goal : Goal},
        (Evaluation.ofGoal options host goal).Ends options host false start world turn →
        (Process.drive goal resume).Ends options host (leaveFree stack) start between turn') ∧
        End options host between turn' stack reached outcome := by
  generalize frames : (⟨resume, true⟩ :: stack : List Frame) = whole at ends
  induction ends with
  | foot => cases frames
  | @again world between _ goal turn _ _ asked rest inductive_step =>
      cases frames
      obtain ⟨last, turn', continues, ends⟩ := inductive_step rfl
      exact ⟨last, turn', fun first => .drive first (continues asked), ends⟩
  | resume first rest _ =>
      cases frames
      exact ⟨_, _, fun asked => .drive asked first, rest⟩
  | skip isOpen _ _ =>
      cases frames
      cases isOpen
  | stop _ first rest _ =>
      cases frames
      exact ⟨_, _, fun asked => .driveRefused asked first, rest⟩

/-- What wants to wait below a barrier goes on there with an error. -/
theorem End.of_barrier {frame : Frame} (barrier : Task.barrier? stack = some (frame, outer))
    {turn : Option Turn}
    (first : (frame.resume Task.cannotWait).Ends options host (leaveFree outer) world between turn)
    (rest : End options host between turn outer reached outcome) :
    End options host world none stack reached outcome := by
  induction stack with
  | nil => cases barrier
  | cons top below inductive_step =>
      rw [Task.barrier?] at barrier
      split at barrier
      · rename_i isBarrier
        cases barrier
        exact .stop isBarrier first rest
      · rename_i isOpen
        exact .skip (eq_false_of_ne_true isOpen) (inductive_step barrier)

end Frame

namespace Task

/-- If a task concludes after a step, then it does so before it. -/
theorem Concludes.of_running
    (running : task.step options host world = .running next after)
    (concludes : after.Concludes options host next reached outcome) :
    task.Concludes options host world reached outcome := by
  rcases task with ⟨process, stack⟩
  rcases concludes with ⟨between, turn, ends, frames⟩
  cases process with
  | done given =>
      cases given with
      | answer answered =>
          cases stack with
          | nil => cases running
          | cons frame outer =>
              cases running
              exact ⟨_, _, .done, .resume ends frames⟩
      | again goal =>
          cases running
          exact ⟨_, _, .done, .again ends frames⟩
  | act action proceed =>
      cases running
      exact ⟨_, _, .act ends, frames⟩
  | wait reason proceed =>
      cases found : barrier? stack with
      | none =>
          rw [step_wait found] at running
          cases running
      | some barrier =>
          rw [step_wait_barrier found] at running
          cases running
          refine ⟨_, none, ?_, .of_barrier found ends frames⟩
          show Process.Ends options host (barrier? stack).isNone _ _ _ _
          rw [found]
          exact .refused
  | call goal proceed =>
      cases running
      obtain ⟨last, turn', continues, rest⟩ := frames.of_call
      exact ⟨last, turn', continues ends, rest⟩
  | drive goal proceed =>
      cases running
      obtain ⟨last, turn', continues, rest⟩ := frames.of_drive
      exact ⟨last, turn', continues ends, rest⟩

/-- A task that ends concludes. -/
theorem Ends.concludes (ends : task.Ends options host world reached outcome) :
    task.Concludes options host world reached outcome := by
  induction ends with
  | finish finished =>
      obtain ⟨rfl, rfl⟩ := eq_of_finished finished
      exact ⟨_, _, .done, .foot⟩
  | step running _ inductive_step => exact .of_running running inductive_step
  | resume waiting ended _ inductive_step =>
      have noBarrier := barrier?_of_waiting waiting
      obtain ⟨rfl, proceed, stack, rfl, rfl⟩ := eq_of_waiting waiting
      rcases inductive_step with ⟨between, turn, ends, frames⟩
      have free : Frame.leaveFree stack = true := by rw [Frame.leaveFree, noBarrier]; rfl
      refine ⟨between, turn, ?_, frames⟩
      rw [free] at ends ⊢
      exact .wait ended ends

theorem step_drive (world : World) (goal : Goal) (next : Outcome → Process Turn)
    (stack : List Frame) :
    step options host world ⟨.drive goal next, stack⟩ =
      .running world ⟨Evaluation.ofGoal options host goal, ⟨next, true⟩ :: stack⟩ := rfl

/-- Tasks that take the same step end alike. -/
theorem Ends.of_running {other : Task}
    (ends : other.Ends options host world reached outcome)
    (running : other.step options host world = .running next after)
    (same : task.step options host world = .running next after) :
    task.Ends options host world reached outcome := by
  cases ends with
  | finish finished => cases running.symm.trans finished
  | step stepped rest =>
      cases running.symm.trans stepped
      exact .step same rest
  | resume waiting _ _ => cases running.symm.trans waiting

/-- How a task goes on when what is on top of its frames has ended. -/
def GoesOnFrom (options : Options) (host : Host) (world : World) (stack : List Frame)
    (continuation : α → Process Turn) (reached : World) (outcome : Outcome) : Option α → Prop
  | some given => Task.Ends options host world ⟨continuation given, stack⟩ reached outcome
  | none => ∀ frame outer, barrier? stack = some (frame, outer) →
      Task.Ends options host world ⟨frame.resume cannotWait, outer⟩ reached outcome

/-- A turn that is made above a frame lets the process go on that waits there. -/
theorem ends_of_andThen {turn : Turn} {proceed : Outcome → Process α}
    {continuation : α → Process Turn}
    (ends : Task.Ends options host world ⟨(turn.andThen proceed).bind continuation, stack⟩ reached
      outcome) :
    Task.Ends options host world
      ⟨.done turn, ⟨fun given => (proceed given).bind continuation, false⟩ :: stack⟩ reached
      outcome := by
  cases turn with
  | answer given => exact .step (step_answer world given _ stack) ends
  | again goal => exact ends.of_running (step_call world goal _ stack) (step_again world goal _)

theorem ends_of_andThenAtOnce {turn : Turn} {proceed : Outcome → Process α}
    {continuation : α → Process Turn}
    (ends : Task.Ends options host world ⟨(turn.andThenAtOnce proceed).bind continuation, stack⟩
      reached outcome) :
    Task.Ends options host world
      ⟨.done turn, ⟨fun given => (proceed given).bind continuation, true⟩ :: stack⟩ reached
      outcome := by
  cases turn with
  | answer given => exact .step (step_answer world given _ stack) ends
  | again goal => exact ends.of_running (step_drive world goal _ stack) (step_again world goal _)

/-- A task ends if its process does and the task goes on from there to its end. -/
theorem ends_of_process {process : Process α} {given : Option α}
    (ends : process.Ends options host free world between given)
    {continuation : α → Process Turn}
    (freed : Frame.leaveFree stack = free)
    (goesOn : GoesOnFrom options host between stack continuation reached outcome given) :
    Task.Ends options host world ⟨process.bind continuation, stack⟩ reached outcome := by
  -- The stack stays general, since what is asked for ends above one frame more.
  induction ends generalizing stack with
  | done => exact goesOn
  | act _ inductive_step =>
      exact .step (step_act _ _ _ stack) (inductive_step freed goesOn)
  | wait ended _ inductive_step =>
      have noBarrier : barrier? stack = none := Option.isNone_iff_eq_none.mp freed
      exact .resume (step_wait noBarrier _ _ _) ended (inductive_step freed goesOn)
  | refused =>
      cases found : barrier? stack with
      | none =>
          rw [Frame.leaveFree, found] at freed
          cases freed
      | some barrier =>
          exact .step (step_wait_barrier found _ _ _) (goesOn barrier.1 barrier.2 found)
  | @call _ _ _ _ _ goal _ turn _ _ _ asks inductive_step =>
      refine .step (step_call _ goal _ stack) ?_
      rw [← (Evaluation.ofGoal options host goal).bind_done]
      exact asks freed (ends_of_andThen (inductive_step freed goesOn))
  | @callRefused _ _ _ _ goal _ _ asks =>
      refine .step (step_call _ goal _ stack) ?_
      rw [← (Evaluation.ofGoal options host goal).bind_done]
      exact asks freed fun frame outer found => goesOn frame outer found
  | @drive _ _ _ _ _ goal _ turn _ _ _ asks inductive_step =>
      refine .step (step_drive _ goal _ stack) ?_
      rw [← (Evaluation.ofGoal options host goal).bind_done]
      exact asks rfl (ends_of_andThenAtOnce (inductive_step freed goesOn))
  | @driveRefused _ _ _ _ _ goal _ _ _ _ asks inductive_step =>
      refine .step (step_drive _ goal _ stack) ?_
      rw [← (Evaluation.ofGoal options host goal).bind_done]
      refine asks rfl fun frame outer found => ?_
      cases found
      exact inductive_step freed goesOn

/-- Frames that end one after the other bring the task to its end. -/
theorem goesOnFrom_of_end {turn : Option Turn}
    (ends : Frame.End options host world turn stack reached outcome) :
    GoesOnFrom options host world stack .done reached outcome turn := by
  induction ends with
  | foot => exact .finish rfl
  | @again _ _ _ goal _ stack _ asked _ inductive_step =>
      refine .step (step_again _ goal stack) ?_
      rw [← (Evaluation.ofGoal options host goal).bind_done]
      exact ends_of_process asked rfl inductive_step
  | resume first _ inductive_step =>
      refine .step (step_answer _ _ _ _) ?_
      rw [← Process.bind_done (Frame.resume _ _)]
      exact ends_of_process first rfl inductive_step
  | skip isOpen _ inductive_step =>
      intro frame outer found
      rw [barrier?, isOpen] at found
      exact inductive_step frame outer found
  | stop isBarrier first _ inductive_step =>
      intro frame outer found
      rw [barrier?, isBarrier] at found
      cases found
      rw [← Process.bind_done (Frame.resume _ _)]
      exact ends_of_process first rfl inductive_step

/-- A task ends precisely as its process and its frames come to their ends. -/
theorem ends_iff :
    task.Ends options host world reached outcome ↔
      task.Concludes options host world reached outcome := by
  refine ⟨Ends.concludes, ?_⟩
  rintro ⟨between, turn, ends, frames⟩
  have goesOn := ends_of_process ends rfl (goesOnFrom_of_end frames)
  rwa [Process.bind_done] at goesOn

end Task

end Tasks

end TreeScript
