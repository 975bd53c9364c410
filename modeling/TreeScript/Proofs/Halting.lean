import TreeScript.Proofs.Spinning

/-!
# Scripts that end

Under a limit of steps a synchronous script ends unless it comes to a loop
without statements, or its calls nest without bound.

The proof follows the rules: a goal returns if the goals that it asks for do.
The evaluation of a node takes a step first, so that fewer are left for
everything below it; a loop with a body evaluates a node in every turn; and a
function has nodes evaluated, or calls functions one call further in.  So
either fewer steps are left, or the goal is of a lower rank.
-/

namespace TreeScript

/-! ## Turns of loops -/

namespace Process

variable {α β : Type}

/-- A process that has a node evaluated before it ends, unless it ends with certain results. -/
inductive Earns (idle : α → Prop) : Process α → Prop where
  | done {result : α}
      (isIdle : idle result) :
      Earns idle (.done result)
  | act {action : Action} {next : action.Reply → Process α}
      (rest : ∀ reply, Earns idle (next reply)) :
      Earns idle (.act action next)
  | call {node : Node} {scope : Scope} {context : Context} {next : Outcome → Process α} :
      Earns idle (.call (.evaluate node scope context) next)

theorem Earns.bind {idle : α → Prop} {idleAfter : β → Prop} {process : Process α}
    (earns : process.Earns idle) {continuation : α → Process β}
    (goesOn : ∀ result, idle result → (continuation result).Earns idleAfter) :
    (process.bind continuation).Earns idleAfter := by
  induction earns with
  | done isIdle => exact goesOn _ isIdle
  | act _ inductive_step => exact .act inductive_step
  | call => exact .call

end Process

namespace Goal

/-- Whether a goal is the evaluation of a node. -/
def IsEvaluation : Goal → Prop
  | .evaluate _ _ _ => True
  | _ => False

/-- Whether a goal is a loop. -/
def IsLoop : Goal → Prop
  | .loop _ _ _ _ => True
  | .times _ _ _ _ _ _ => True
  | .range _ _ _ _ _ _ _ => True
  | .each _ _ _ _ _ _ _ => True
  | _ => False

theorem IsLoop.not_isEvaluation {goal : Goal} (isLoop : goal.IsLoop) : ¬ goal.IsEvaluation := by
  cases goal with
  | evaluate node scope context => exact isLoop.elim
  | _ => exact id

/-- A loop asks for nothing but the evaluation of nodes. -/
theorem IsLoop.asks {options : Options} {goal other : Goal} (isLoop : goal.IsLoop)
    (asks : goal.Asks options other) :
    other.IsEvaluation := by
  cases asks with
  | loop node scope => trivial
  | times node scope => trivial
  | range node scope => trivial
  | each node scope => trivial
  | _ => exact isLoop.elim

/-- How far a goal is from the evaluation of nodes, when calls nest no deeper than a bound. -/
def rank (bound : Nat) : Goal → Nat
  | .evaluate _ _ _ => 0
  | .apply _ _ context _ => 2 + (bound - context.depth)
  | _ => 1

/-- A loop is the only goal that has another one take its place. -/
theorem Continues.isLoop {goal next : Goal} (continues : goal.Continues next) : goal.IsLoop := by
  cases continues with
  | _ => trivial

theorem rank_enter_lt {bound : Nat} {function callee : FunctionId} {arguments values : List Value}
    {context : Context} {name : String} {site place inner : Option Position}
    (within : (context.enter name site).depth ≤ bound) :
    (Goal.apply callee values (context.enter name site) inner).rank bound <
      (Goal.apply function arguments context place).rank bound := by
  have deeper : (context.enter name site).depth = context.depth + 1 := rfl
  show 2 + (bound - (context.enter name site).depth) < 2 + (bound - context.depth)
  omega

theorem rank_lt_of_isLoop {goal other : Goal} (isLoop : goal.IsLoop)
    (isEvaluation : other.IsEvaluation) (bound : Nat) :
    other.rank bound < goal.rank bound := by
  cases other with
  | evaluate node scope context =>
      cases goal with
      | apply function arguments context site => exact isLoop.elim
      | evaluate node scope context => exact isLoop.elim
      | _ => exact Nat.zero_lt_one
  | _ => exact isEvaluation.elim

end Goal

namespace Evaluation

variable (options : Options) (host : Host)

theorem earns_evaluateClause (body : Node) (scope : Scope) (context : Context) :
    (evaluateClause body scope context).run.Earns fun _ => False := by
  unfold evaluateClause
  split
  · exact .act fun _ => .call
  · exact .call

omit options host in
/-- What is done after the body of a loop comes after the evaluation of a node. -/
theorem earns_turnAfter {body : Rule Value} (earns : body.run.Earns fun _ => False)
    (label : Option String) (rest : Goal) :
    (process (turnAfter label rest body)).Earns Turn.IsAnswer := by
  unfold process turnAfter
  rw [Rule.run_outcome_bind]
  have turned {next : Outcome → Process (Except Interrupt Turn)} :
      (body.run.bind next).Earns fun _ => False := earns.bind nofun
  exact turned.bind nofun

omit options host in
theorem earns_look {α : Type} {view : Store → α} {next : α → Rule Turn}
    (earns : ∀ store, (process (next (view store))).Earns Turn.IsAnswer) :
    (process (Rule.look view >>= next)).Earns Turn.IsAnswer :=
  .act earns

/--
A turn of a loop either ends the loop at once, or asks whether evaluation is
stopped, ends the loop if it is, and has a node evaluated before the next turn
if it is not and there is one.
-/
theorem earns_loop {goal : Goal} (isLoop : goal.IsLoop) :
    ofGoal options host goal = .done finished ∨
      ∃ next : Bool → Process Turn,
        ofGoal options host goal = .act .isStopped next ∧ next true = .done finished ∧
          (¬ goal.IsEmptyLoop → (next false).Earns Turn.IsAnswer) := by
  cases goal with
  | loop label statements scope context =>
      refine .inr ⟨_, rfl, rfl, fun notEmpty => ?_⟩
      cases statements with
      | nil => exact (notEmpty trivial).elim
      | cons statement rest => exact .act fun _ => .act fun _ => .call
  | times label count limit body scope context =>
      have earns := earns_turnAfter (earns_evaluateClause body scope context) label
        (.times label (count + Float.ofNat 1) limit body scope context)
      have shape : ofGoal options host (.times label count limit body scope context) =
          process (timesTurn label count limit body scope context) := rfl
      rw [shape]
      unfold timesTurn
      split
      · exact .inl rfl
      · refine .inr ⟨fun stopped => process (if stopped then return finished else _), rfl, rfl, ?_⟩
        exact fun _ => earns
  | range label counter count limit body scope context =>
      have earns (inner : Scope) := earns_turnAfter (earns_evaluateClause body inner context) label
        (.range label counter (count + Float.ofNat 1) limit body scope context)
      have shape : ofGoal options host (.range label counter count limit body scope context) =
          process (rangeTurn label counter count limit body scope context) := rfl
      rw [shape]
      unfold rangeTurn
      split
      · exact .inl rfl
      · refine .inr ⟨fun stopped => process (if stopped then return finished else _), rfl, rfl, ?_⟩
        exact fun _ => .act fun layer => earns (.child layer scope)
  | each label pattern array place body scope context =>
      refine .inr ⟨_, rfl, rfl, fun _ => earns_look fun store => ?_⟩
      split
      · exact .done trivial
      · refine .act fun layer => .act fun defined => ?_
        cases defined with
        | error error => exact .done trivial
        | ok result => exact .call
  | _ => exact isLoop.elim

/-- The evaluation of a node in synchronous mode: nothing, or a step and then the rest. -/
theorem ofGoal_evaluate (node : Node) (scope : Scope) (calls : List Call) :
    ∃ (first : Bool → Process Turn) (second : Bool → Process Turn) (error : Error),
      ofGoal options host (.evaluate node scope ⟨calls, .synchronous⟩) = .act .isStopped first ∧
        first true = .done (.answer (.ok .null)) ∧ first false = .act .tick second ∧
        error.cause.IsStepLimit ∧ second false = .done (.answer (.error (.error error))) :=
  ⟨_, _, (Error.of .stepLimit).locate node.start calls, rfl, rfl, rfl, rfl, rfl⟩

end Evaluation

/-! ## Goals that return -/

namespace Task

variable (options : Options) (host : Host) (start : World) (root : Scope) (script : List Node)

/-- The states of a synchronous script. -/
abbrev ReachedAtOnce : World → Task → List Goal → Prop :=
  Reached options host KeepsFunctions start
    (ofScript root script .synchronous)

/-- A script that comes to no loop without statements, and whose calls nest to a bound. -/
structure Tame (bound : Nat) : Prop where
  limited : 0 < options.stepLimit
  hostless : start.store.Hostless
  loops : ∀ {world task goal outer},
    ReachedAtOnce options host start root script world task (goal :: outer) →
      goal.IsEmptyLoop → world.lifecycle.isStopped = true
  depth : ∀ {world task goal outer},
    ReachedAtOnce options host start root script world task (goal :: outer) →
      goal.context.depth ≤ bound

/-- The number of steps that are left. -/
def left (world : World) : Nat :=
  options.stepLimit - world.steps

/--
The evaluation of a node has taken a step, unless evaluation is stopped or no
step is left.
-/
def Spent (world reached : World) (outcome : Outcome) : Prop :=
  left options reached < left options world ∨ world.lifecycle.isStopped = true ∨
    ∃ error : Error, error.cause.IsStepLimit ∧ outcome = .error (.error error)

/-- A goal returns: the task halts if it does so after every outcome of the goal. -/
def Returns (world : World) (goal : Goal) (stack : List Frame) (outer : List Goal) : Prop :=
  (∀ reached outcome final,
    left options reached ≤ left options world →
    (goal.IsEvaluation → Spent options world reached outcome) →
    ReachedAtOnce options host start root script reached ⟨.done (.answer outcome), stack⟩
      (final :: outer) →
    Halts options host reached ⟨.done (.answer outcome), stack⟩) →
  Halts options host world ⟨Evaluation.ofGoal options host goal, stack⟩

variable {options host start root script}
variable {world : World} {stack : List Frame} {goals : List Goal}

theorem left_perform_le (action : Action) (hostless : action.Hostless) :
    left options (world.perform options action).2 ≤ left options world := by
  unfold left
  by_cases isTick : action = .tick
  · subst isTick
    exact Nat.sub_le_sub_left (Nat.le_succ _) _
  · have kept : (world.perform options action).2.steps = world.steps :=
      (World.perform_keeps options action hostless).1 isTick
    exact Nat.le_of_eq (congrArg (options.stepLimit - ·) kept)

/-- A step within the limit leaves fewer steps. -/
theorem left_tick_lt (limited : 0 < options.stepLimit)
    (accepted : (world.perform options .tick).1 = true) :
    left options (world.perform options .tick).2 < left options world := by
  have within : (options.stepLimit == 0 || decide (world.steps + 1 ≤ options.stepLimit)) = true :=
    accepted
  have isLimited : (options.stepLimit == 0) = false := by
    rw [beq_eq_false_iff_ne]
    omega
  rw [isLimited, Bool.false_or, decide_eq_true_iff] at within
  show options.stepLimit - (world.steps + 1) < options.stepLimit - world.steps
  omega

/-- Only a loop has another goal take its place. -/
theorem Reached.isAnswer {turn : Turn} {goal : Goal} {outer : List Goal}
    (reached : ReachedAtOnce options host start root script world ⟨.done turn, stack⟩
      (goal :: outer))
    (hostless : start.store.Hostless)
    (noLoop : ¬ goal.IsLoop) :
    ∃ outcome, turn = .answer outcome := by
  have obeys := (reached.lawful Cause.IsStepLimit hostless).process
  cases turn with
  | answer outcome => exact ⟨outcome, rfl⟩
  | again next =>
      cases obeys with
      | done ended =>
          have continues : goal.Continues next := ended.resolve_left id
          exact (noLoop continues.isLoop).elim

/-- A process that keeps to a law halts, if what it asks for returns. -/
theorem halts_of_obeys {law : Law} {gaveUp ends : Turn → Prop} {process : Process Turn}
    (obeys : Process.Obeys law gaveUp ends process)
    (atOnce : law.mode = .synchronous)
    (hostless : start.store.Hostless)
    {most : Nat} (within : left options world ≤ most)
    (asked : ∀ world goal stack,
      ReachedAtOnce options host start root script world
        ⟨Evaluation.ofGoal options host goal, stack⟩ (goal :: goals) →
      left options world ≤ most → law.asks goal →
      Returns options host start root script world goal stack goals)
    (reached : ReachedAtOnce options host start root script world ⟨process, stack⟩ goals)
    (goesOn : ∀ turn next,
      left options next ≤ left options world →
      ReachedAtOnce options host start root script next ⟨.done turn, stack⟩ goals →
      Halts options host next ⟨.done turn, stack⟩) :
    Halts options host world ⟨process, stack⟩ := by
  induction obeys generalizing world with
  | done _ => exact goesOn _ world (Nat.le_refl _) reached
  | @act action next plain rest inductive_step =>
      have fewer : left options (world.perform options action).2 ≤ left options world :=
        left_perform_le action plain.hostless
      have storeHostless := (reached.lawful Cause.IsStepLimit hostless).hostless
      refine .of_running (step_act world action next stack) ?_
      refine inductive_step _ (World.expected_perform options action storeHostless)
        (Nat.le_trans fewer within) (reached.step (step_act world action next stack)) ?_
      exact fun turn next fewest => goesOn turn next (Nat.le_trans fewest fewer)
  | @tick next rest _ inductive_step =>
      have fewer : left options (world.perform options .tick).2 ≤ left options world :=
        left_perform_le .tick trivial
      refine .of_running (step_act world .tick next stack) ?_
      refine inductive_step _ (Nat.le_trans fewer within)
        (reached.step (step_act world .tick next stack)) ?_
      exact fun turn next fewest => goesOn turn next (Nat.le_trans fewest fewer)
  | wait suspends _ _ => cases suspends.symm.trans atOnce
  | call asks _ _ inductive_step | drive _ asks _ _ inductive_step =>
      refine .of_running rfl ?_
      refine asked world _ _ (reached.step rfl) within asks ?_
      intro next outcome final fewer _ answered
      refine .of_running rfl ?_
      refine inductive_step outcome (Nat.le_trans fewer within) (answered.step rfl) ?_
      exact fun turn next fewest => goesOn turn next (Nat.le_trans fewest fewer)

/--
A turn of a loop halts, if what it asks for returns.  Before the next turn a
node has been evaluated, and that has taken a step.
-/
theorem halts_of_earns {law : Law} {process : Process Turn}
    (earns : process.Earns Turn.IsAnswer)
    {ends : Turn → Prop}
    (obeys : Process.Obeys law (Turn.GaveUp law.comparison) ends process)
    (atOnce : law.mode = .synchronous)
    (exhausts : ∀ error : Error, error.cause.IsStepLimit → law.comparison.givesUp error.cause)
    (hostless : start.store.Hostless)
    (unstopped : world.lifecycle.isStopped = false)
    {most : Nat} (within : left options world ≤ most)
    (asked : ∀ world goal stack,
      ReachedAtOnce options host start root script world
        ⟨Evaluation.ofGoal options host goal, stack⟩ (goal :: goals) →
      left options world ≤ most → law.asks goal →
      Returns options host start root script world goal stack goals)
    (reached : ReachedAtOnce options host start root script world ⟨process, stack⟩ goals)
    (goesOn : ∀ turn next,
      left options next ≤ left options world →
      (turn.IsAnswer ∨ left options next < left options world) →
      ReachedAtOnce options host start root script next ⟨.done turn, stack⟩ goals →
      Halts options host next ⟨.done turn, stack⟩) :
    Halts options host world ⟨process, stack⟩ := by
  induction earns generalizing world with
  | done isAnswer => exact goesOn _ world (Nat.le_refl _) (.inl isAnswer) reached
  | @act action next _ inductive_step =>
      have actionHostless : action.Hostless := by
        cases obeys with
        | act plain _ => exact plain.hostless
        | tick _ _ => trivial
      have fewer : left options (world.perform options action).2 ≤ left options world :=
        left_perform_le action actionHostless
      have storeHostless := (reached.lawful Cause.IsStepLimit hostless).hostless
      have rest : Process.Obeys law (Turn.GaveUp law.comparison) ends
          (next (world.perform options action).1) := by
        cases obeys with
        | act _ rest => exact rest _ (World.expected_perform options action storeHostless)
        | tick rest _ => exact rest _
      have stillUnstopped : (world.perform options action).2.lifecycle.isStopped = false := by
        rw [(World.perform_keeps options action actionHostless).2.1]
        exact unstopped
      refine .of_running (step_act world action next stack) ?_
      refine inductive_step _ rest stillUnstopped (Nat.le_trans fewer within)
        (reached.step (step_act world action next stack)) ?_
      exact fun turn next fewest spent =>
        goesOn turn next (Nat.le_trans fewest fewer) (spent.imp_right (Nat.lt_of_lt_of_le · fewer))
  | @call node scope context next =>
      cases obeys with
      | call asks rest propagates =>
          refine .of_running rfl ?_
          refine asked world _ _ (reached.step rfl) within asks ?_
          intro after outcome final fewer spent answered
          refine .of_running rfl ?_
          rcases spent trivial with less | stopped | ⟨error, isStepLimit, rfl⟩
          · refine halts_of_obeys (rest outcome) atOnce hostless (Nat.le_trans fewer within) asked
              (answered.step rfl) ?_
            exact fun turn next fewest =>
              goesOn turn next (Nat.le_trans fewest fewer) (.inr (Nat.lt_of_le_of_lt fewest less))
          · rw [unstopped] at stopped
            cases stopped
          · rcases propagates error (exhausts error isStepLimit) with ⟨turn, gave, ends⟩
            rcases Turn.gaveUp_iff.mp gave with ⟨final, rfl, -⟩
            have resumed : ReachedAtOnce options host start root script after
                ⟨next (.error (.error error)), stack⟩ goals := answered.step rfl
            show Halts options host after ⟨next (.error (.error error)), stack⟩
            rw [ends] at resumed ⊢
            exact goesOn _ after fewer (.inl trivial) resumed

/--
A loop returns, if it has statements or evaluation is stopped, if the nodes in
it return, and if it returns itself once fewer steps are left.
-/
theorem returns_of_isLoop {goal : Goal} (isLoop : goal.IsLoop) {outer : List Goal}
    (hostless : start.store.Hostless)
    (notEmpty : world.lifecycle.isStopped = false → ¬ goal.IsEmptyLoop)
    (reached : ReachedAtOnce options host start root script world
      ⟨Evaluation.ofGoal options host goal, stack⟩ (goal :: outer))
    (asked : ∀ next other stack,
      ReachedAtOnce options host start root script next
        ⟨Evaluation.ofGoal options host other, stack⟩ (other :: goal :: outer) →
      left options next ≤ left options world → other.IsEvaluation →
      Returns options host start root script next other stack (goal :: outer))
    (again : ∀ next rest,
      ReachedAtOnce options host start root script next
        ⟨Evaluation.ofGoal options host rest, stack⟩ (rest :: outer) →
      left options next < left options world →
      Returns options host start root script next rest stack outer) :
    Returns options host start root script world goal stack outer := by
  intro goesOn
  have noNode {next : World} {outcome : Outcome} (isEvaluation : goal.IsEvaluation) :
      Spent options world next outcome :=
    (isLoop.not_isEvaluation isEvaluation).elim
  rcases Evaluation.earns_loop options host isLoop with ended | ⟨next, shape, stops, earns⟩
  · rw [ended] at reached ⊢
    exact goesOn world _ goal (Nat.le_refl _) noNode reached
  rw [shape] at reached ⊢
  have stepped := reached.step (step_act world .isStopped next stack)
  refine .of_running (step_act world .isStopped next stack) ?_
  cases stopped : world.lifecycle.isStopped with
  | true =>
      rw [show (world.perform options .isStopped).1 = true from stopped, stops] at stepped ⊢
      exact goesOn world _ goal (Nat.le_refl _) noNode stepped
  | false =>
      rw [show (world.perform options .isStopped).1 = false from stopped] at stepped ⊢
      refine halts_of_earns (earns (notEmpty stopped))
        (stepped.lawful Cause.IsStepLimit hostless).process rfl
        (fun _ => (Law.givesUp_of _).mpr) hostless stopped (Nat.le_refl _) ?_ stepped ?_
      · intro after other frames comes fewer asks
        exact asked after other frames comes fewer (isLoop.asks asks)
      · intro turn after fewer spent comes
        cases turn with
        | answer outcome => exact goesOn after outcome goal fewer noNode comes
        | again rest =>
            refine .of_running rfl (again after rest (comes.step rfl) (spent.resolve_left id) ?_)
            intro last outcome final fewest _ answered
            exact goesOn last outcome final (Nat.le_trans fewest fewer) noNode answered

/-- The evaluation of a node returns, if what it asks for does once fewer steps are left. -/
theorem returns_evaluate {node : Node} {scope : Scope} {calls : List Call} {outer : List Goal}
    (limited : 0 < options.stepLimit)
    (hostless : start.store.Hostless)
    (reached : ReachedAtOnce options host start root script world
      ⟨Evaluation.ofGoal options host (.evaluate node scope ⟨calls, .synchronous⟩), stack⟩
      (.evaluate node scope ⟨calls, .synchronous⟩ :: outer))
    (asked : ∀ next other stack,
      ReachedAtOnce options host start root script next
        ⟨Evaluation.ofGoal options host other, stack⟩
        (other :: .evaluate node scope ⟨calls, .synchronous⟩ :: outer) →
      left options next < left options world →
      Returns options host start root script next other stack
        (.evaluate node scope ⟨calls, .synchronous⟩ :: outer)) :
    Returns options host start root script world
      (.evaluate node scope ⟨calls, .synchronous⟩) stack outer := by
  intro goesOn
  obtain ⟨first, second, error, shape, stops, ticks, isStepLimit, refuses⟩ :=
    Evaluation.ofGoal_evaluate options host node scope calls
  rw [shape] at reached ⊢
  have stepped := reached.step (step_act world .isStopped first stack)
  refine .of_running (step_act world .isStopped first stack) ?_
  cases stopped : world.lifecycle.isStopped with
  | true =>
      rw [show (world.perform options .isStopped).1 = true from stopped, stops] at stepped ⊢
      exact goesOn world _ _ (Nat.le_refl _) (fun _ => .inr (.inl stopped)) stepped
  | false =>
      rw [show (world.perform options .isStopped).1 = false from stopped, ticks] at stepped ⊢
      have ticked := stepped.step (step_act world .tick second stack)
      refine .of_running (step_act world .tick second stack) ?_
      have fewer : left options (world.perform options .tick).2 ≤ left options world :=
        left_perform_le .tick trivial
      cases accepted : (world.perform options .tick).1 with
      | false =>
          rw [accepted] at ticked
          rw [refuses] at ticked ⊢
          exact goesOn _ _ _ fewer (fun _ => .inr (.inr ⟨error, isStepLimit, rfl⟩)) ticked
      | true =>
          have less := left_tick_lt limited accepted
          rw [accepted] at ticked
          refine halts_of_obeys (ticked.lawful Cause.IsStepLimit hostless).process rfl
            hostless (Nat.le_refl _) ?_ ticked ?_
          · intro after other frames comes fewest asks
            exact asked after other frames comes (Nat.lt_of_le_of_lt fewest less)
          · intro turn after fewest comes
            rcases comes.isAnswer hostless nofun with ⟨outcome, rfl⟩
            exact goesOn after outcome _ (Nat.le_trans fewest fewer)
              (fun _ => .inl (Nat.lt_of_le_of_lt fewest less)) comes

/-- A call returns, if what it asks for does. -/
theorem returns_apply {function : FunctionId} {arguments : List Value} {context : Context}
    {site : Option Position} {outer : List Goal}
    (hostless : start.store.Hostless)
    (reached : ReachedAtOnce options host start root script world
      ⟨Evaluation.ofGoal options host (.apply function arguments context site), stack⟩
      (.apply function arguments context site :: outer))
    (asked : ∀ next other stack,
      ReachedAtOnce options host start root script next
        ⟨Evaluation.ofGoal options host other, stack⟩
        (other :: .apply function arguments context site :: outer) →
      left options next ≤ left options world →
      (Goal.apply function arguments context site).Asks options other →
      Returns options host start root script next other stack
        (.apply function arguments context site :: outer)) :
    Returns options host start root script world
      (.apply function arguments context site) stack outer := by
  intro goesOn
  refine halts_of_obeys (reached.lawful Cause.IsStepLimit hostless).process rfl hostless
    (Nat.le_refl _) asked reached ?_
  intro turn after fewer comes
  rcases comes.isAnswer hostless nofun with ⟨outcome, rfl⟩
  exact goesOn after outcome _ fewer False.elim comes

/-- In a tame script every goal returns. -/
theorem Tame.returns {bound : Nat} (tame : Tame options host start root script bound)
    {goal : Goal} {outer : List Goal}
    (reached : ReachedAtOnce options host start root script world
      ⟨Evaluation.ofGoal options host goal, stack⟩ (goal :: outer)) :
    Returns options host start root script world goal stack outer := by
  -- Lexicographic: first the steps that are left, then the rank of the goal.
  induction remaining : left options world using Nat.strongRecOn
    generalizing world goal stack outer with
  | ind most fewerLeft =>
  induction ranked : goal.rank bound using Nat.strongRecOn
    generalizing world goal stack outer with
  | ind rank lowerRank =>
  subst remaining ranked
  have asked : ∀ next other frames,
      ReachedAtOnce options host start root script next
        ⟨Evaluation.ofGoal options host other, frames⟩ (other :: goal :: outer) →
      left options next ≤ left options world → other.rank bound < goal.rank bound →
      Returns options host start root script next other frames (goal :: outer) := by
    intro next other frames comes fewer lower
    rcases Nat.lt_or_eq_of_le fewer with less | same
    · exact fewerLeft _ less comes rfl
    · exact lowerRank _ lower comes same rfl
  have ofLoop (isLoop : goal.IsLoop) :
      Returns options host start root script world goal stack outer := by
    refine returns_of_isLoop isLoop tame.hostless ?_ reached ?_ ?_
    · intro unstopped isEmptyLoop
      cases unstopped.symm.trans (tame.loops reached isEmptyLoop)
    · intro next other frames comes fewer isEvaluation
      exact asked next other frames comes fewer (Goal.rank_lt_of_isLoop isLoop isEvaluation bound)
    · exact fun next rest comes less => fewerLeft _ less comes rfl
  obtain ⟨⟨calls, mode⟩, rfl, inside⟩ :=
    (reached.lawful Cause.IsStepLimit tame.hostless).chain.inside
  cases inside with
  | evaluate node scope =>
      exact returns_evaluate tame.limited tame.hostless reached
        fun next other frames comes less => fewerLeft _ less comes rfl
  | apply function arguments site =>
      refine returns_apply tame.hostless reached ?_
      intro next other frames comes fewer asks
      refine asked next other frames comes fewer ?_
      -- A function of a function is called one call further in.
      have deepest := tame.depth comes
      cases asks with
      | body room name node scope =>
          exact Nat.lt_of_lt_of_le Nat.zero_lt_two (Nat.le_add_right 2 _)
      | back callee values => exact Goal.rank_enter_lt deepest
  | loop label statements scope => exact ofLoop trivial
  | times label count limit body scope => exact ofLoop trivial
  | range label counter count limit body scope => exact ofLoop trivial
  | each label pattern array place body scope => exact ofLoop trivial

/-- A tame script ends. -/
theorem Tame.halts {bound : Nat} (tame : Tame options host start root script bound) :
    (ofScript root script .synchronous).Halts options host start := by
  have obeys := Evaluation.obeys_script Cause.IsStepLimit root script .synchronous
  refine halts_of_obeys obeys rfl tame.hostless (Nat.le_refl _) ?_ .start ?_
  · exact fun _ _ _ comes _ _ => tame.returns comes
  · intro turn next _ comes
    cases turn with
    | answer outcome => exact .of_running (step_answer next outcome _ []) (.of_finished rfl)
    | again goal =>
        cases (comes.lawful Cause.IsStepLimit tame.hostless).process with
        | done ended => exact (ended.elim id id).elim

end Task

/-! ## Runs that end -/

theorem Store.callers_lt (store : Store) (goal : Goal) (outer : List Goal) :
    store.callers (goal :: outer) < (goal :: outer).length := by
  induction outer generalizing goal with
  | nil => exact Nat.zero_lt_one
  | cons caller rest inductive_step =>
      rw [callers]
      split
      · exact Nat.succ_lt_succ (inductive_step caller)
      · exact Nat.succ_pos _

theorem Store.natives_le (store : Store) (goals : List Goal) :
    store.natives goals ≤ goals.length := by
  cases goals with
  | nil => exact Nat.zero_le _
  | cons goal outer =>
      exact Nat.le_trans (Nat.add_le_add_left (Bool.toNat_le _) _) (store.callers_lt goal outer)

namespace Interpreter

/-- A script that ends when it is run without waiting, with a value or an error. -/
def EndsAtOnce (interpreter : Interpreter) (script : List Node) : Prop :=
  ∃ fuel verdict reached,
    interpreter.poll fuel (interpreter.startAtOnce script) = some (.ended verdict, reached)

/-- The states of a synchronous script of an interpreter. -/
abbrev ReachedAtOnce (interpreter : Interpreter) (script : List Node) :
    World → Task → List Goal → Prop :=
  Task.ReachedAtOnce interpreter.options interpreter.host interpreter.world interpreter.root script

variable (interpreter : Interpreter)

/-- A script ends if its task does; an empty one is not even started. -/
theorem endsAtOnce_iff_halts (script : List Node) :
    interpreter.EndsAtOnce script ↔
      (Task.ofScript interpreter.root script .synchronous).Halts interpreter.options
        interpreter.host interpreter.world := by
  cases script with
  | nil =>
      refine ⟨fun _ => ⟨6, _, _, rfl⟩, fun _ => ?_⟩
      exact ⟨0, .ok none, interpreter, rfl⟩
  | cons statement rest =>
      have polled (fuel : Nat) :=
        interpreter.poll_of_ready (interpreter.startAtOnce (statement :: rest)) rfl rfl fuel
      constructor
      · rintro ⟨fuel, verdict, reached, ended⟩
        rw [polled] at ended
        split at ended
        · rename_i world outcome ran
          exact ⟨fuel, world, outcome, ran⟩
        · cases ended
        · cases ended
      · rintro ⟨fuel, world, outcome, ran⟩
        refine ⟨fuel, ?_⟩
        have polled := polled fuel
        rw [show Task.run interpreter.options interpreter.host fuel interpreter.world
          (.ofRuleAtOnce (Evaluation.runScript interpreter.root (statement :: rest) .synchronous)) =
            some (.finished world outcome) from ran] at polled
        exact ⟨_, _, polled⟩

/--
Under a limit of steps a synchronous script takes at most one step more than
the limit.  It ends if and only if it comes to no loop without statements,
except when evaluation is stopped, and native functions are on top of each
other only up to some number.
-/
theorem endsAtOnce_iff (limited : 0 < interpreter.options.stepLimit)
    (nesting : 0 < interpreter.options.depthLimit)
    (hostless : interpreter.world.store.Hostless)
    (script : List Node) :
    (∀ {world task goals}, interpreter.ReachedAtOnce script world task goals →
      world.steps ≤ max interpreter.world.steps interpreter.options.stepLimit + 1) ∧
    (interpreter.EndsAtOnce script ↔
      (∀ {world task goal outer}, interpreter.ReachedAtOnce script world task (goal :: outer) →
        goal.IsEmptyLoop → world.lifecycle.isStopped = true) ∧
      ∃ bound, ∀ {world task goals}, interpreter.ReachedAtOnce script world task goals →
        world.store.natives goals ≤ bound) := by
  refine ⟨fun reached => reached.steps_le limited hostless, ?_⟩
  rw [endsAtOnce_iff_halts]
  constructor
  · intro halts
    refine ⟨fun {world task goal outer} reached isEmptyLoop => ?_, ?_⟩
    · cases stopped : world.lifecycle.isStopped with
      | true => rfl
      | false => exact (reached.not_halts hostless isEmptyLoop stopped halts).elim
    · rcases halts with ⟨fuel, final, outcome, ran⟩
      refine ⟨fuel, fun {world task goals} reached => ?_⟩
      rcases reached.of_run hostless ran with ⟨rest, within, -⟩
      have few := world.store.natives_le goals
      omega
  · rintro ⟨loops, bound, few⟩
    have tame : Task.Tame interpreter.options interpreter.host interpreter.world interpreter.root
        script (interpreter.options.depthLimit + bound) :=
      { limited := limited
        hostless := hostless
        loops := loops
        depth := by
          intro world task goal outer reached
          rcases Task.Reached.frames_eq nesting hostless reached with ⟨within, deep⟩
          have natives := few reached
          have own : goal.context.depth ≤ world.store.frames (goal :: outer) :=
            Nat.le_add_right _ _
          omega }
    exact tame.halts

/-- An interpreter with a limit of ten steps. -/
def bounded : Interpreter :=
  create (.silent 10 Options.defaultDepthLimit) Host.none [] [] []

/-- The script `loop { null; }`. -/
def busyLoop : List Node :=
  [.of (.loop none [.of .null])]

/-- The script `loop {}`. -/
def emptyLoop : List Node :=
  [.of (.loop none [])]

/-- A loop with a statement ends at the limit of steps. -/
theorem endsAtOnce_iff_busyLoop :
    (∀ {world task goals}, bounded.ReachedAtOnce busyLoop world task goals → world.steps ≤ 11) ∧
      bounded.EndsAtOnce busyLoop ∧
      ∃ bound, ∀ {world task goals}, bounded.ReachedAtOnce busyLoop world task goals →
        world.store.natives goals ≤ bound := by
  obtain ⟨few, ends⟩ :=
    bounded.endsAtOnce_iff (by decide) (by decide) (hostless_create _ _ _ _) busyLoop
  have ended : bounded.EndsAtOnce busyLoop := ⟨97, _, _, rfl⟩
  exact ⟨few, ended, (ends.mp ended).2⟩

/-- A loop without statements does not end, whatever the limit of steps. -/
theorem not_endsAtOnce_emptyLoop : ¬ bounded.EndsAtOnce emptyLoop := by
  rw [endsAtOnce_iff_halts]
  have reached : bounded.ReachedAtOnce emptyLoop _ _ _ := Task.Reached.start.stateAfter 5
  exact reached.not_halts (hostless_create _ _ _ _) trivial rfl

end Interpreter

end TreeScript
