import TreeScript.Proofs.GoalComparison

/-!
# What the process of a goal may do

A process that is compared with itself does nothing but what the comparison
allows.  `Process.Obeys` says so of one process alone: it performs hostless
actions, asks for goals of its law, waits only when evaluation is asynchronous
and drives goals only when it is synchronous, and it lets errors through that
are not to be caught.

The law of a goal is given by `Goal.Asks`: a node asks for goals in its own
context, a loop for the evaluation of nodes, and a function either for the
evaluation of the statements of its body, one call further in, or for further
functions.
-/

namespace TreeScript

/-- What a process may do. -/
structure Law where
  /-- The goals that may be asked for. -/
  asks : Goal → Prop
  /-- The causes of errors that are not caught. -/
  givesUp : Cause → Prop
  mode : Mode

namespace Law

/-- Comparing a process with itself. -/
def comparison (law : Law) : Comparison where
  goal goal other := goal = other ∧ law.asks goal
  givesUp := law.givesUp
  modes mode other := mode = law.mode ∧ other = law.mode

end Law

namespace Process

variable {α β : Type}

/-- A process that keeps to a law and ends with certain results. -/
inductive Obeys (law : Law) (gaveUp ends : α → Prop) : Process α → Prop where
  | done {result : α}
      (ended : gaveUp result ∨ ends result) :
      Obeys law gaveUp ends (.done result)
  | act {action : Action} {next : action.Reply → Process α}
      (plain : action.Plain)
      (rest : ∀ reply, action.Expected reply → Obeys law gaveUp ends (next reply)) :
      Obeys law gaveUp ends (.act action next)
  | tick {next : Bool → Process α}
      (rest : ∀ within, Obeys law gaveUp ends (next within))
      (stops : law.givesUp .stepLimit → ∃ result, gaveUp result ∧ next false = .done result) :
      Obeys law gaveUp ends (.act .tick next)
  | wait {reason : Wait} {next : Process α}
      (mode : law.mode = .asynchronous)
      (rest : Obeys law gaveUp ends next) :
      Obeys law gaveUp ends (.wait reason next)
  | call {goal : Goal} {next : Outcome → Process α}
      (asks : law.asks goal)
      (rest : ∀ outcome, Obeys law gaveUp ends (next outcome))
      (propagates : Propagates law.comparison gaveUp next) :
      Obeys law gaveUp ends (.call goal next)
  | drive {goal : Goal} {next : Outcome → Process α}
      (mode : law.mode = .synchronous)
      (asks : law.asks goal)
      (rest : ∀ outcome, Obeys law gaveUp ends (next outcome))
      (propagates : Propagates law.comparison gaveUp next) :
      Obeys law gaveUp ends (.drive goal next)

/-- The first of two processes that are compared under a law obeys it. -/
theorem Follows.obeys {law : Law} {gaveUp ends : α → Prop} {same : α → β → Prop}
    {first : Process α} {second : Process β}
    (follows : Follows law.comparison gaveUp same first second)
    (results : ∀ result other, same result other → ends result) :
    Obeys law gaveUp ends first := by
  induction follows with
  | done alike => exact .done (.inr (results _ _ alike))
  | giveUp given => exact .done (.inl given)
  | act plain _ inductive_step => exact .act plain inductive_step
  | tick _ stops inductive_step => exact .tick inductive_step stops
  | wait modes _ inductive_step => exact .wait modes.1.symm inductive_step
  | call goals _ propagates inductive_step => exact .call goals.2 inductive_step propagates
  | drive modes goals _ propagates inductive_step =>
      exact .drive modes.1.symm goals.2 inductive_step propagates
  | driveCall modes goals _ propagates inductive_step =>
      exact .drive modes.1.symm goals.2 inductive_step propagates
  | lookAtPause _ inductive_step => exact inductive_step
  | lookAtSteps _ inductive_step => exact inductive_step 0
  | tellYield _ inductive_step => exact inductive_step
  | awaitPoll _ inductive_step => exact inductive_step

end Process

/-! ## Goals -/

namespace Goal

theorem Alike.eq {context : Context} {goal other : Goal}
    (alike : Goal.Alike context context goal other) :
    goal = other := by
  cases alike <;> rfl

/-- What the process of a goal may ask for. -/
inductive Asks (options : Options) : Goal → Goal → Prop where
  | node {node : Node} {scope : Scope} {context : Context} {goal : Goal}
      (inside : Goal.Alike context context goal goal) :
      Asks options (.evaluate node scope context) goal
  | loop {label : Option String} {statements : List Node} {outer : Scope} {context : Context}
      (node : Node) (scope : Scope) :
      Asks options (.loop label statements outer context) (.evaluate node scope context)
  | times {label : Option String} {count limit : Float} {body : Node} {outer : Scope}
      {context : Context} (node : Node) (scope : Scope) :
      Asks options (.times label count limit body outer context) (.evaluate node scope context)
  | range {label : Option String} {counter : String} {count limit : Float} {body : Node}
      {outer : Scope} {context : Context} (node : Node) (scope : Scope) :
      Asks options (.range label counter count limit body outer context)
        (.evaluate node scope context)
  | each {label : Option String} {pattern : Node} {array : ArrayId} {place : Nat} {body : Node}
      {outer : Scope} {context : Context} (node : Node) (scope : Scope) :
      Asks options (.each label pattern array place body outer context)
        (.evaluate node scope context)
  | body {function : FunctionId} {arguments : List Value} {context : Context}
      {site : Option Position}
      (room : options.depthLimit = 0 ∨ context.depth < options.depthLimit)
      (name : String) (node : Node) (scope : Scope) :
      Asks options (.apply function arguments context site)
        (.evaluate node scope (context.enter name site))
  | back {function : FunctionId} {arguments : List Value} {context : Context}
      {site : Option Position} (callee : FunctionId) (values : List Value) :
      Asks options (.apply function arguments context site)
        (.apply callee values (context.enter "<native>" site) none)

/-- The goal that takes the place of a loop after one turn. -/
inductive Continues : Goal → Goal → Prop where
  | loop (label : Option String) (statements : List Node) (scope : Scope) (context : Context) :
      Continues (.loop label statements scope context) (.loop label statements scope context)
  | times (label : Option String) (count limit : Float) (body : Node) (scope : Scope)
      (context : Context) :
      Continues (.times label count limit body scope context)
        (.times label (count + Float.ofNat 1) limit body scope context)
  | range (label : Option String) (counter : String) (count limit : Float) (body : Node)
      (scope : Scope) (context : Context) :
      Continues (.range label counter count limit body scope context)
        (.range label counter (count + Float.ofNat 1) limit body scope context)
  | each (label : Option String) (pattern : Node) (array : ArrayId) (place : Nat) (body : Node)
      (scope : Scope) (context : Context) :
      Continues (.each label pattern array place body scope context)
        (.each label pattern array (place + 1) body scope context)

/-- What takes the place of a goal may be asked for as well. -/
theorem Asks.continues {options : Options} {outer goal next : Goal}
    (asks : outer.Asks options goal)
    (continues : goal.Continues next) :
    outer.Asks options next := by
  cases continues with
  | loop => exact asks
  | times label count limit body scope context =>
      cases asks with
      | node inside =>
          cases inside
          exact .node (.times label _ limit body scope)
  | range label counter count limit body scope context =>
      cases asks with
      | node inside =>
          cases inside
          exact .node (.range label counter _ limit body scope)
  | each label pattern array place body scope context =>
      cases asks with
      | node inside =>
          cases inside
          exact .node (.each label pattern array _ body scope)

/-- The law of a goal in a context. -/
def law (options : Options) (givesUp : Cause → Prop) (mode : Mode) (goal : Goal) : Law :=
  ⟨goal.Asks options, givesUp, mode⟩

end Goal

/-- How the process of a goal may end: with an outcome, or with the rest of a loop. -/
def Turn.Continues (goal : Goal) : Turn → Prop
  | .answer _ => True
  | .again next => goal.Continues next

/-- Whether a turn is an outcome. -/
def Turn.IsAnswer : Turn → Prop
  | .answer _ => True
  | .again _ => False

namespace Evaluation

variable (options : Options) (host : Host) (givesUp : Cause → Prop)

/-- The process of a goal follows itself under the law of the goal. -/
theorem follows_law {context : Context} {goal : Goal}
    (inside : Goal.Alike context context goal goal) :
    Process.Follows (goal.law options givesUp context.mode).comparison
      (Turn.GaveUp (goal.law options givesUp context.mode).comparison)
      (Turn.Same fun next _ => goal.Continues next)
      (ofGoal options host goal) (ofGoal options host goal) := by
  cases inside with
  | evaluate node scope =>
      have contexts : ((Goal.evaluate node scope context).law options givesUp
          context.mode).comparison.Contexts context context := by
        intro goal other alike
        rcases alike.eq with rfl
        exact ⟨rfl, .node alike⟩
      exact follows_process (follows_answering
        (follows_evaluateNode options contexts rfl (.together _ ⟨rfl, rfl⟩) node scope))
  | loop label statements scope =>
      refine follows_process (follows_loopTurn ?_ label statements scope ?_)
      · exact fun node scope => ⟨rfl, .loop node scope⟩
      · exact .loop label statements scope context
  | times label count limit body scope =>
      refine follows_process (follows_timesTurn ?_ label count limit body scope ?_)
      · exact fun node scope => ⟨rfl, .times node scope⟩
      · exact .times label count limit body scope context
  | range label counter count limit body scope =>
      refine follows_process (follows_rangeTurn ?_ label counter count limit body scope ?_)
      · exact fun node scope => ⟨rfl, .range node scope⟩
      · exact .range label counter count limit body scope context
  | each label pattern array place body scope =>
      refine follows_process (follows_eachTurn ?_ label pattern array place body scope ?_)
      · exact fun node scope => ⟨rfl, .each node scope⟩
      · exact .each label pattern array place body scope context
  | apply function arguments site =>
      refine follows_process (follows_answering (follows_apply options host ⟨rfl, ?_, ?_, ?_⟩
        function arguments))
      · exact .together context.mode ⟨rfl, rfl⟩
      · exact fun room name node scope => ⟨rfl, .body room name node scope⟩
      · exact fun callee values => ⟨rfl, .back callee values⟩

/-- The process of a goal keeps to the law of the goal. -/
theorem obeys_ofGoal {context : Context} {goal : Goal}
    (inside : Goal.Alike context context goal goal) :
    Process.Obeys (goal.law options givesUp context.mode)
      (Turn.GaveUp (goal.law options givesUp context.mode).comparison)
      (Turn.Continues goal) (ofGoal options host goal) := by
  refine (follows_law options host givesUp inside).obeys ?_
  intro turn other same
  cases turn with
  | answer outcome => trivial
  | again next =>
      cases other with
      | answer outcome => exact same.elim
      | again other => exact same

omit options host givesUp in
/-- A rule that follows itself under a law keeps to it. -/
theorem obeys_answering {law : Law} {rule : Rule Value}
    (follows : Rule.Follows law.comparison Eq rule rule) :
    Process.Obeys law (Turn.GaveUp law.comparison) Turn.IsAnswer (process (answering rule)) := by
  have same : Process.Follows law.comparison (Turn.GaveUp law.comparison)
      (Turn.Same fun _ _ => False) (process (answering rule)) (process (answering rule)) :=
    follows_process (follows_answering follows)
  refine same.obeys ?_
  intro turn other alike
  cases turn with
  | answer outcome => trivial
  | again next => cases other <;> exact alike.elim

/-- The law of a script: it has nodes evaluated outside of all calls. -/
def scriptLaw (mode : Mode) : Law where
  asks goal := ∃ node scope, goal = .evaluate node scope (.top mode)
  givesUp := givesUp
  mode := mode

/-- The process of a script keeps to the law of a script. -/
theorem obeys_script (root : Scope) (script : List Node) (mode : Mode) :
    Process.Obeys (scriptLaw givesUp mode) (Turn.GaveUp (scriptLaw givesUp mode).comparison)
      Turn.IsAnswer (process (answering (runScript root script mode))) := by
  have evaluates : (scriptLaw givesUp mode).comparison.Evaluates (.top mode) (.top mode) :=
    fun node scope => ⟨rfl, node, scope, rfl⟩
  exact obeys_answering (follows_runScript evaluates root script)

end Evaluation

end TreeScript
