import TreeScript.Proofs.Bindings
import TreeScript.Proofs.FatalErrors
import TreeScript.Proofs.Guests
import TreeScript.Proofs.LexicalFrame

/-!
# How mutable bindings are made

A definition makes its bindings as mutable as it is written: with `let` they are not, with
`var` they are.  The members of namespaces, the counter of a loop over numbers and the
variables of a loop over elements are never mutable.

For the process of a goal this is a matter of its manner (`Manner.binding`).  Since every
process of a task works on the innermost goal under way, or on the script around them
(`Task.BindsIn`), it holds of all bindings that a run makes (`Task.BindsIn.isMutable`).
-/

namespace TreeScript

open Rule

/-! ## Actions -/

/-- An action that makes no bindings but such as are as mutable as given. -/
def Action.BindsAs (isMutable : Bool) : Action → Prop
  | .define _ asked _ _ => asked = isMutable
  | .newLayer bindings =>
      ∀ name bound, bindings.find? name = some bound → bound.isMutable = isMutable
  | _ => True

namespace Store

/-- Nothing but a new layer changes how many there are. -/
theorem withstands_size (adds : LayerId → String → Bool → Prop) :
    Withstands adds fun before after => after.layers.size = before.layers.size where
  same same := congrArg Array.size same
  trans first second := second.trans first
  add _ _ _ _ _ _ := Array.size_modify
  assign _ _ _ _ _ _ _ := Array.size_modify

theorem size_describe (store : Store) (layer : LayerId) (name : String)
    (attributes : List Attribute) :
    (store.describe layer name attributes).layers.size = store.layers.size := by
  unfold describe
  split
  · exact Array.size_modify
  · rfl

theorem layers_setAttributes (store : Store) (value : Value) (attributes : List Attribute) :
    (store.setAttributes value attributes).layers = store.layers := by
  cases value <;> rfl

/-- The bindings of a new layer are those that it is made with; no other layer changes. -/
theorem find?_newLayer {store : Store} {created : Dict Variable} {layer : LayerId} {name : String}
    {later : Variable}
    (missing : (store.bindings layer).find? name = none)
    (found : ((store.newLayer created).1.bindings layer).find? name = some later) :
    created.find? name = some later := by
  have inside := index_lt_of_find?_bindings found
  rw [newLayer, Array.size_push] at inside
  rcases Nat.lt_succ_iff_lt_or_eq.mp inside with earlier | isNew
  · rw [bindings_newLayer store created earlier, missing] at found
    cases found
  · obtain rfl : layer = (store.newLayer created).2 := congrArg LayerId.mk isNew
    rwa [bindings_newLayer_self] at found

end Store

namespace World

variable (options : Options) (world : World)

theorem size_layers_decorate (scope : Scope) (target : Node) (value : Value)
    (attributes : List Attribute) :
    Edit.Relates (fun before after => after.layers.size = before.layers.size)
      (Edit.decorate scope target value attributes) := by
  have withstands := Store.withstands_size fun _ _ _ => True
  unfold Edit.decorate
  split
  · exact Edit.relates_pure withstands ()
  · have attributed : Edit.Relates (fun before after => after.layers.size = before.layers.size)
        (modify fun world => world.mapStore fun store => store.setAttributes value attributes) :=
      fun world => congrArg Array.size (world.store.layers_setAttributes value attributes)
    refine Edit.relates_bind withstands attributed fun _ => ?_
    split
    · exact fun world => world.store.size_describe _ _ _
    · exact Edit.relates_pure withstands ()

theorem size_layers_perform {action : Action}
    (noLayer : ∀ bindings, action ≠ .newLayer bindings) :
    (world.perform options action).2.store.layers.size = world.store.layers.size :=
  relates_perform options (Store.withstands_size _) (fun same => (noLayer _ same).elim)
    (fun _ => size_layers_decorate _ _ _ _) world

/-- A binding that an action makes is as mutable as the action makes them. -/
theorem isMutable_of_perform {action : Action} {isMutable : Bool}
    (binds : action.BindsAs isMutable) {layer : LayerId} {name : String} {later : Variable}
    (missing : (world.store.bindings layer).find? name = none)
    (found : ((world.perform options action).2.store.bindings layer).find? name = some later) :
    later.isMutable = isMutable := by
  by_cases isLayer : ∃ bindings, action = .newLayer bindings
  · obtain ⟨bindings, rfl⟩ := isLayer
    exact binds name later (Store.find?_newLayer missing found)
  · have inside := Store.index_lt_of_find?_bindings found
    rw [world.size_layers_perform options fun bindings same => isLayer ⟨bindings, same⟩] at inside
    have adds := (world.grows_perform options action).added layer name later inside missing found
    cases action with
    | define scope asked pattern value => exact adds.1.trans binds
    | _ => exact adds.elim

end World

/-! ## Rules -/

/-- The manner of what makes bindings that are as mutable as given, whatever else it does. -/
def Manner.binding (isMutable : Bool) : Manner where
  acts := Action.BindsAs isMutable
  replies _ _ := True
  waits _ := True
  calls _ := True
  drives _ := True

namespace Evaluation

variable {isMutable : Bool} {scope : Scope} {context : Context}

theorem binds_evaluate (node : Node) :
    (evaluate node scope context).Minds (.binding isMutable) :=
  minds_call trivial

theorem binds_evaluateAttributes (attributes : List (String × Node)) :
    (evaluateAttributes scope context attributes).Minds (.binding isMutable) :=
  (minds_traverse (fun entry => (binds_evaluate entry.2).bind fun _ _ => uses_pure trivial)
    attributes).bind fun _ _ => uses_pure trivial

theorem binds_openScope {bindings : Dict Variable}
    (binds : ∀ name bound, bindings.find? name = some bound → bound.isMutable = isMutable) :
    (openScope scope bindings).Minds (.binding isMutable) :=
  (minds_perform binds).bind fun _ _ => uses_pure trivial

/-- A scope without bindings is opened in any manner. -/
theorem binds_openScope_empty : (openScope scope .empty).Minds (.binding isMutable) :=
  binds_openScope fun name bound found => (Dict.find?_empty_ne_some name bound found).elim

theorem binds_evaluateClause (node : Node) :
    (evaluateClause node scope context).Minds (.binding isMutable) := by
  unfold evaluateClause
  split
  · exact binds_openScope_empty.bind fun _ _ => binds_evaluate node
  · exact binds_evaluate node

theorem binds_runFrom (last : Value) (statements : List Node) :
    (runFrom scope context last statements).Minds (.binding isMutable) := by
  induction statements generalizing last with
  | nil => exact (minds_perform trivial).bind fun _ _ => uses_pure trivial
  | cons statement rest inductive_step =>
      refine (binds_evaluate statement).outcome_bind fun outcome => ?_
      rcases outcome with (signal | error) | value
      · exact (minds_perform trivial).bind fun _ _ => uses_throw _
      · exact uses_throw _
      · exact inductive_step value

theorem binds_runAll (statements : List Node) :
    (runAll scope context statements).Minds (.binding isMutable) :=
  (minds_perform trivial).bind fun _ _ => binds_runFrom .null statements

theorem binds_defining (pattern : Node) (value : Value) :
    (attempt (perform (.define scope isMutable pattern value))).Minds (.binding isMutable) :=
  sequential_minds.attempt (minds_perform rfl)

theorem binds_decorating (target : Node) (value : Value) (attributes : List Attribute) :
    (attempt (perform (.decorate scope target value attributes))).Minds (.binding isMutable) :=
  sequential_minds.attempt (minds_perform trivial)

theorem binds_nameLiteral (target literal : Node) (value : Value) :
    (nameLiteral scope target literal value).Minds (.binding isMutable) := by
  unfold nameLiteral
  split
  · exact minds_perform trivial
  · exact uses_pure trivial

/-- A definition makes its bindings as mutable as it is written. -/
theorem binds_define (target literal : Node) (attributes : List (String × Node)) :
    (define target literal isMutable attributes scope context).Minds (.binding isMutable) := by
  refine (binds_evaluate literal).bind fun value _ => ?_
  refine (binds_evaluateAttributes attributes).bind fun attributes _ => ?_
  refine (binds_nameLiteral target literal value).bind fun _ _ => ?_
  refine (binds_defining target value).bind fun _ _ => ?_
  exact (binds_decorating target value attributes).bind fun _ _ => uses_pure trivial

/-! ## Loops -/

theorem binds_turnAfter {body : Rule Value} (binds : body.Minds (.binding isMutable))
    (label : Option String) (rest : Goal) :
    (turnAfter label rest body).Minds (.binding isMutable) := by
  refine binds.outcome_bind fun outcome => ?_
  split
  · exact uses_pure trivial
  · exact uses_pure trivial
  · exact uses_throw _

theorem binds_unlessStopped {turn : Rule Turn} (binds : turn.Minds (.binding isMutable)) :
    (do
      if ← perform .isStopped then return finished
      turn).Minds (.binding isMutable) := by
  refine (minds_perform trivial).bind fun stopped _ => ?_
  cases stopped with
  | true => exact uses_pure trivial
  | false => exact binds

/-- The counter of a loop over numbers is not mutable. -/
theorem binds_rangeTurn (label : Option String) (counter : String) (count limit : Float)
    (body : Node) :
    (rangeTurn label counter count limit body scope context).Minds (.binding false) := by
  have constant (name : String) (bound : Variable)
      (found : (Dict.empty.insert counter (.constant (.num count))).find? name = some bound) :
      bound.isMutable = false := by
    rcases Dict.eq_or_find?_of_insert found with rfl | found
    · rfl
    · exact (Dict.find?_empty_ne_some name bound found).elim
  unfold rangeTurn
  split
  · exact uses_pure trivial
  · refine binds_unlessStopped ?_
    exact (binds_openScope constant).bind fun _ _ =>
      binds_turnAfter (binds_evaluateClause body) label _

/-- The bounds of a loop over numbers are evaluated without binding anything. -/
theorem binds_rangeLoop (label : Option String) (counter : String) (start : Option Node)
    (count body : Node) :
    (rangeLoop label counter start count body scope context).Minds (.binding isMutable) := by
  have rest (first : Value) : (do
      let count ← evaluate count scope context
      let first ← first.asNum
      let limit := first + (← count.asNum)
      call (.range label counter first limit body scope context) : Rule Value).Minds
        (.binding isMutable) := by
    refine (binds_evaluate count).bind fun count _ => ?_
    refine (minds_ofExcept first.asNum).bind fun first _ => ?_
    exact (minds_ofExcept count.asNum).bind fun _ _ => minds_call trivial
  unfold rangeLoop
  cases start with
  | none => exact rest _
  | some node => exact (binds_evaluate node).bind fun first _ => rest first

/-- The array of a loop over elements is evaluated without binding anything. -/
theorem binds_eachLoop (label : Option String) (pattern items body : Node) :
    (eachLoop label pattern items body scope context).Minds (.binding isMutable) := by
  refine (binds_evaluate items).bind fun items _ => ?_
  exact (minds_ofExcept items.asArr).bind fun _ _ => minds_call trivial

/-- The variables of a loop over elements are not mutable. -/
theorem binds_eachTurn (label : Option String) (pattern : Node) (array : ArrayId) (place : Nat)
    (body : Node) :
    (eachTurn label pattern array place body scope context).Minds (.binding false) := by
  refine binds_unlessStopped ?_
  refine (uses_look trivial fun _ _ => trivial : Rule.Minds _ _).bind fun item _ => ?_
  cases item with
  | none => exact uses_pure trivial
  | some item =>
      refine binds_openScope_empty.bind fun inner _ => ?_
      refine (binds_defining pattern item).bind fun _ _ => ?_
      exact binds_turnAfter (binds_evaluate body) label _

/-! ## Namespaces and scripts -/

variable {mode : Mode}

theorem binds_expectingValue {rule : Rule Value} (binds : rule.Minds (.binding isMutable)) :
    (expectingValue rule).Minds (.binding isMutable) :=
  binds.outcome_bind fun _ => minds_ofExcept _

theorem binds_expectingAttributes {rule : Rule (List Attribute)}
    (binds : rule.Minds (.binding isMutable)) :
    (expectingAttributes rule).Minds (.binding isMutable) := by
  refine binds.outcome_bind fun outcome => ?_
  rcases outcome with (signal | error) | attributes
  · exact uses_fail _
  · exact uses_fail _
  · exact uses_pure trivial

/-- Members of namespaces are not mutable. -/
theorem binds_defineMember (outer inner : Scope) (position : Position) (target literal : Node)
    (isMutable : Bool) (attributes : List (String × Node)) :
    (defineMember outer inner mode position target literal isMutable attributes).Minds
      (.binding false) := by
  unfold defineMember
  split
  · cases isMutable with
    | true => exact uses_fail _
    | false =>
        refine (binds_expectingValue (binds_evaluate literal)).bind fun value _ => ?_
        refine (binds_expectingAttributes (binds_evaluateAttributes attributes)).bind
          fun attributes _ => ?_
        refine (binds_nameLiteral target literal value).bind fun _ _ => ?_
        refine ((binds_defining target value).mapError _).bind fun _ _ => ?_
        exact binds_decorating target value attributes
  · exact uses_fail _

theorem binds_defineMembers (outer inner : Scope) (members : List Node) :
    (defineMembers outer inner mode members).Minds (.binding false) := by
  induction members with
  | nil => exact uses_pure trivial
  | cons member rest inductive_step =>
      rw [defineMembers]
      split
      · exact (binds_defineMember outer inner member.start _ _ _ _).bind fun _ _ => inductive_step
      · exact inductive_step
      · exact (uses_fail _ : Rule.Minds _ (Rule.fail _ : Rule Unit)).bind fun _ _ => inductive_step

mutual

theorem binds_collectNode :
    ∀ (scope : Scope) (node : Node), (collectNode mode scope node).Minds (.binding false)
  | scope, .mk shape span => by
      cases shape with
      | namespaceBlock name members =>
          have empty (name : String) (bound : Variable)
              (found : Dict.empty.find? name = some bound) : bound.isMutable = false :=
            (Dict.find?_empty_ne_some name bound found).elim
          have made : (perform (.newLayer .empty)).Minds (.binding false) := minds_perform empty
          refine made.bind fun layer _ => ?_
          refine (binds_collect (.member layer name scope) members).bind fun _ _ => ?_
          exact binds_defineMembers scope (.member layer name scope) members
      | _ => exact uses_pure trivial

theorem binds_collect :
    ∀ (scope : Scope) (nodes : List Node), (collect mode scope nodes).Minds (.binding false)
  | _, [] => uses_pure trivial
  | scope, node :: rest => (binds_collectNode scope node).bind fun _ _ => binds_collect scope rest

end

/-- What a script binds outside of its statements is not mutable. -/
theorem binds_runScript (root : Scope) (script : List Node) :
    (runScript root script mode).Minds (.binding false) := by
  refine (binds_collect root script).bind fun _ _ => ?_
  refine (binds_expectingValue (binds_runAll script)).bind fun value _ => ?_
  exact (minds_perform trivial).bind fun _ _ => uses_pure trivial

theorem binds_applyValue (callee : Value) (arguments : List Value) :
    (applyValue callee arguments mode).Minds (.binding isMutable) :=
  (minds_ofExcept callee.asFn).bind fun _ _ => minds_call trivial

/-- An entry point makes no bindings itself. -/
theorem binds_enter (callee : Value) (arguments : List Value) :
    (enter callee arguments mode).Minds (.binding isMutable) := by
  refine (binds_applyValue callee arguments).outcome_bind fun outcome => ?_
  split
  · exact uses_pure trivial
  · refine (minds_perform trivial).bind fun answer _ => ?_
    cases answer with
    | some error => exact uses_fail _
    | none => exact uses_pure trivial

/-! ## Nodes -/

theorem binds_gate (irq : Irq) : (gate irq).Minds (.binding isMutable) := by
  have yielding (sleep : Sleep) : (yieldNow sleep).Minds (.binding isMutable) := by
    unfold yieldNow
    split
    · exact minds_wait trivial
    · refine (minds_perform trivial).bind fun _ _ => ?_
      split
      · exact minds_wait trivial
      · exact uses_pure trivial
  have rest : (do
      if irq.isDue (← perform .steps) then
        yieldNow irq.sleep : Rule Unit).Minds (.binding isMutable) := by
    refine (minds_perform trivial).bind fun steps _ => ?_
    split
    · exact yielding irq.sleep
    · exact uses_pure trivial
  refine (minds_perform trivial).bind fun pause _ => ?_
  cases pause with
  | none => exact rest
  | some pause => exact (minds_wait trivial).bind fun _ _ => rest

/-- In front of a node nothing is bound. -/
theorem binds_evaluateNode (options : Options) {node : Node}
    (binds : (construct scope context node.start node.shape).Minds (.binding isMutable)) :
    (evaluateNode options node scope context).Minds (.binding isMutable) := by
  have ticked : (do
      if ← perform .tick then
        construct scope context node.start node.shape
      else fail (.of .stepLimit) : Rule Value).Minds (.binding isMutable) := by
    refine (minds_perform trivial).bind fun within _ => ?_
    cases within with
    | true => exact binds
    | false => exact uses_fail _
  refine Uses.mapError ?_ _
  refine (minds_perform trivial).bind fun stopped _ => ?_
  cases stopped with
  | true => exact uses_pure trivial
  | false =>
      rcases context with ⟨calls, mode⟩
      cases mode with
      | asynchronous => exact (binds_gate options.irq).bind fun _ _ => ticked
      | synchronous => exact ticked

end Evaluation

/-! ## Goals -/

/--
How mutable a construct makes its bindings: a definition as it is written, and loops over
numbers and over elements not at all.  No other construct binds anything itself.
-/
def Shape.binding? : Shape → Option Bool
  | .definition _ _ isMutable _ => some isMutable
  | .range _ _ _ _ _ => some false
  | .each _ _ _ _ => some false
  | _ => none

/--
How mutable bindings are made while some goals are under way, innermost first.  For the nodes
that bind something this is a matter of their constructs, and the rounds of their loops make
bindings like them; scripts make none that are mutable around all goals.  Of other goals
nothing is said: parameters and functions of the host bind as they please.
-/
def Goal.binding? : List Goal → Option Bool
  | [] => some false
  | .evaluate node _ _ :: _ => node.shape.binding?
  | .range _ _ _ _ _ _ _ :: _ => some false
  | .each _ _ _ _ _ _ _ :: _ => some false
  | _ => none

/-- The manner in which the innermost of some goals binds names. -/
def Manner.ofGoals (goals : List Goal) : Manner :=
  match Goal.binding? goals with
  | some isMutable => .binding isMutable
  | none => .free

theorem Manner.replies_ofGoals (goals : List Goal) (action : Action) (reply : action.Reply) :
    (ofGoals goals).replies action reply := by
  unfold ofGoals
  split <;> trivial

/-! ## Tasks -/

/-- A process that binds names as the innermost of some goals does, or the script around them. -/
def Process.BindsIn (goals : List Goal) (process : Process Turn) : Prop :=
  process.Uses (.ofGoals goals) (Turn.EndsIn goals)

/-- Frames each of which goes on with the goal below the one that it waits for. -/
inductive Frame.BindIn : List Frame → List Goal → Prop where
  | foot : BindIn [] []
  | barrier : BindIn [⟨fun outcome => .done (.answer outcome), true⟩] []
  | push {frame : Frame} {outer : List Frame} {goal : Goal} {goals : List Goal}
      (resumes : ∀ outcome, (frame.resume outcome).BindsIn goals)
      (below : BindIn outer goals) :
      BindIn (frame :: outer) (goal :: goals)

/-- A task all of whose processes bind names as the goals do that they work on. -/
structure Task.BindsIn (task : Task) (goals : List Goal) : Prop where
  process : task.process.BindsIn goals
  frames : Frame.BindIn task.stack goals

/-- A rule around all goals. -/
theorem Evaluation.bindsIn_answering {rule : Rule Value} (binds : rule.Minds (.binding false)) :
    (process (answering rule)).BindsIn [] := by
  rw [process_answering]
  exact Process.Uses.bind binds fun _ _ => .done trivial

/-- The process of a goal binds names as the goal does. -/
theorem Evaluation.bindsIn_ofGoal (options : Options) (host : Host) (goal : Goal)
    (goals : List Goal) :
    (ofGoal options host goal).BindsIn (goal :: goals) := by
  have settled : ∀ isMutable ∈ Goal.binding? (goal :: goals),
      (turn options host goal).Minds (.binding isMutable) := by
    intro isMutable same
    cases goal with
    | evaluate node scope context =>
        obtain ⟨shape, span⟩ := node
        cases shape with
        | definition target literal asked attributes =>
            cases same
            exact (binds_evaluateNode options (binds_define target literal attributes)).bind
              fun _ _ => uses_pure trivial
        | range label counter start count body =>
            cases same
            exact (binds_evaluateNode options (binds_rangeLoop label counter start count body)).bind
              fun _ _ => uses_pure trivial
        | each label pattern items body =>
            cases same
            exact (binds_evaluateNode options (binds_eachLoop label pattern items body)).bind
              fun _ _ => uses_pure trivial
        | _ => cases same
    | range label counter count limit body scope context =>
        cases same
        exact binds_rangeTurn label counter count limit body
    | each label pattern array place body scope context =>
        cases same
        exact binds_eachTurn label pattern array place body
    | _ => cases same
  unfold Process.BindsIn Manner.ofGoals
  cases binding : Goal.binding? (goal :: goals) with
  | none => exact Process.uses_free (fun _ => trivial) _
  | some isMutable =>
      exact Process.Uses.bind (settled isMutable binding) fun _ _ => .done trivial

/-- Unwinding to a barrier leaves the frames of the goals that are left. -/
theorem Frame.BindIn.unwind {stack outer : List Frame} {frame : Frame} {goals : List Goal}
    (bind : Frame.BindIn stack goals) (found : Task.barrier? stack = some (frame, outer)) :
    (∀ outcome, (frame.resume outcome).BindsIn (goals.drop (stack.length - outer.length))) ∧
      Frame.BindIn outer (goals.drop (stack.length - outer.length)) := by
  induction bind with
  | foot => cases found
  | barrier =>
      cases found
      exact ⟨fun _ => .done trivial, .foot⟩
  | @push top rest goal goals resumes below inductive_step =>
      rcases Task.barrier?_cons goal goals found with ⟨rfl, rfl, left⟩ | ⟨deeper, left⟩
      · rw [left]
        exact ⟨resumes, below⟩
      · rw [left]
        exact inductive_step deeper

namespace Task

variable {options : Options} {host : Host} {world next : World} {task after : Task}
  {goals : List Goal}

/-- A goal that is asked for binds names as it does, and the frame goes on with what asked. -/
theorem BindsIn.ask {goal : Goal} {resume : Outcome → Process Turn} {isBarrier : Bool}
    {stack : List Frame} (resumes : ∀ outcome, (resume outcome).BindsIn goals)
    (frames : Frame.BindIn stack goals) :
    BindsIn ⟨Evaluation.ofGoal options host goal, ⟨resume, isBarrier⟩ :: stack⟩
      (goal :: goals) :=
  ⟨Evaluation.bindsIn_ofGoal options host goal goals, .push resumes frames⟩

theorem BindsIn.step (binds : task.BindsIn goals)
    (running : task.step options host world = .running next after) :
    after.BindsIn (task.goalsAfter goals) := by
  obtain ⟨process, stack⟩ := task
  obtain ⟨uses, frames⟩ := binds
  cases uses with
  | @done turn ended =>
      cases turn with
      | answer outcome =>
          cases frames with
          | foot => cases running
          | barrier =>
              cases running
              exact ⟨.done trivial, .foot⟩
          | push resumes below =>
              cases running
              exact ⟨resumes outcome, below⟩
      | again goal =>
          cases running
          cases frames with
          | foot | barrier => exact ended.elim
          | push resumes below =>
              exact ⟨Evaluation.bindsIn_ofGoal options host goal _, .push resumes below⟩
  | act _ rest =>
      cases running
      exact ⟨rest _ (Manner.replies_ofGoals _ _ _), frames⟩
  | wait _ rest =>
      cases found : barrier? stack with
      | none =>
          rw [step_wait found] at running
          cases running
      | some barrier =>
          rw [step_wait_barrier found] at running
          cases running
          obtain ⟨resumes, below⟩ := frames.unwind found
          rw [goalsAfter, found]
          exact ⟨resumes _, below⟩
  | call _ rest =>
      cases running
      exact .ask rest frames
  | drive _ rest =>
      cases running
      exact .ask rest frames

/-- A step that makes a binding makes it as mutable as the innermost goal makes them. -/
theorem BindsIn.isMutable (binds : task.BindsIn goals)
    (running : task.step options host world = .running next after) {isMutable : Bool}
    (settled : isMutable ∈ Goal.binding? goals) {layer : LayerId} {name : String}
    {later : Variable}
    (missing : (world.store.bindings layer).find? name = none)
    (found : (next.store.bindings layer).find? name = some later) :
    later.isMutable = isMutable := by
  obtain ⟨process, stack⟩ := task
  have unchanged (same : next.store = world.store) : later.isMutable = isMutable := by
    rw [same, missing] at found
    cases found
  cases binds.process with
  | @act action _ allowed _ =>
      cases running
      rw [Manner.ofGoals, Option.mem_def.mp settled] at allowed
      exact world.isMutable_of_perform options allowed missing found
  | @done turn _ =>
      cases turn with
      | answer outcome =>
          cases stack with
          | nil => cases running
          | cons frame outer =>
              cases running
              exact unchanged rfl
      | again goal =>
          cases running
          exact unchanged rfl
  | wait _ _ =>
      cases innermost : barrier? stack with
      | none =>
          rw [step_wait innermost] at running
          cases running
      | some barrier =>
          rw [step_wait_barrier innermost] at running
          cases running
          exact unchanged rfl
  | call _ _ | drive _ _ =>
      cases running
      exact unchanged rfl

/-- In every state that a task reaches, its processes bind names as the goals under way do. -/
theorem Reached.bindsIn {meanwhile : World → World → Prop} {start : World} {origin : Task}
    (reached : Reached options host meanwhile start origin world task goals)
    (begins : origin.BindsIn []) :
    task.BindsIn goals := by
  induction reached with
  | start => exact begins
  | step _ running inductive_step => exact inductive_step.step running
  | resume _ waiting _ inductive_step =>
      obtain ⟨-, rest, stack, rfl, rfl⟩ := eq_of_waiting waiting
      obtain ⟨uses, frames⟩ := inductive_step
      cases uses with
      | wait _ rest => exact ⟨rest, frames⟩

end Task

/-- What an interpreter starts makes no mutable bindings around all goals. -/
theorem Interpreter.Starts.bindsIn {interpreter : Interpreter} {run : Run}
    (starts : interpreter.Starts run) {task : Task} (underway : run.task = some task) :
    task.BindsIn [] := by
  cases starts with
  | script script =>
      cases script with
      | nil => cases underway
      | cons statement rest =>
          cases underway
          exact ⟨Evaluation.bindsIn_answering (Evaluation.binds_runScript _ _), .foot⟩
  | scriptAtOnce script =>
      cases script with
      | nil => cases underway
      | cons statement rest =>
          cases underway
          exact ⟨Evaluation.bindsIn_answering (Evaluation.binds_runScript _ _), .barrier⟩
  | call callee arguments style =>
      cases style with
      | asynchronous =>
          cases underway
          exact ⟨Evaluation.bindsIn_answering (Evaluation.binds_enter callee arguments), .foot⟩
      | synchronous =>
          cases underway
          exact ⟨Evaluation.bindsIn_answering (Evaluation.binds_enter callee arguments), .barrier⟩
      | simple =>
          cases underway
          exact ⟨Evaluation.bindsIn_answering (Evaluation.binds_applyValue callee arguments), .foot⟩

end TreeScript
