import TreeScript.Proofs.Endings

/-!
# How rules end

`Rule.Ends` says how a rule ends: with a result, or interrupted.  For each of the
operations that rules are written with there is one lemma that says when a rule
made with it ends, so that how a rule ends can be read off the rule.

Where evaluation in a mode is free to wait precisely if the mode is
asynchronous, `Evaluation.ends_evaluate_iff` says how the evaluation of a node
ends: what happens in front of the node is over once no pause is in effect.
-/

namespace TreeScript

open Rule

variable {options : Options} {host : Host} {free : Bool} {world between reached : World}
variable {α β : Type}

/-- Change the error that an interrupt is. -/
def Interrupt.mapError (change : Error → Error) : Interrupt → Interrupt
  | .signal given => .signal given
  | .error given => .error (change given)

namespace Rule

/-- How a rule ends in a world. -/
def Ends (options : Options) (host : Host) (free : Bool) (world : World) (rule : Rule α)
    (reached : World) (result : Except Interrupt α) : Prop :=
  rule.run.Ends options host free world reached (some result)

theorem ends_pure_iff {given : α} {result : Except Interrupt α} :
    Ends options host free world (pure given) reached result ↔
      reached = world ∧ result = .ok given :=
  Process.ends_done_iff.trans (and_congr_right' Option.some_inj)

theorem ends_pure (given : α) : Ends options host free world (pure given) world (.ok given) :=
  ends_pure_iff.mpr ⟨rfl, rfl⟩

theorem ends_throw_iff {interrupt : Interrupt} {result : Except Interrupt α} :
    Ends options host free world (throw interrupt) reached result ↔
      reached = world ∧ result = .error interrupt :=
  Process.ends_done_iff.trans (and_congr_right' Option.some_inj)

theorem ends_fail_iff {error : Error} {result : Except Interrupt α} :
    Ends options host free world (fail error) reached result ↔
      reached = world ∧ result = .error (.error error) :=
  ends_throw_iff

theorem ends_ofExcept_iff {given : Except Error α} {result : Except Interrupt α} :
    Ends options host free world (ofExcept given) reached result ↔
      reached = world ∧ result = given.mapError .error := by
  cases given with
  | ok value => exact ends_pure_iff
  | error error => exact ends_fail_iff

/-- What has succeeded is taken without an effect. -/
theorem ends_ofExcept_ok {given : Except Error α} {value : α} (succeeded : given = .ok value) :
    Ends options host free world (ofExcept given) world (.ok value) := by
  rw [succeeded]
  exact ends_pure value

theorem ends_perform_iff {action : Action} {result : Except Interrupt action.Reply} :
    Ends options host free world (perform action) reached result ↔
      reached = (world.perform options action).2 ∧
        result = .ok (world.perform options action).1 :=
  Process.ends_act_iff.trans ends_pure_iff

/-- A rule that looks at how another one ends. -/
theorem ends_outcome_bind_iff {rule : Rule α} {continuation : Except Interrupt α → Rule β}
    {result : Except Interrupt β} :
    Ends options host free world (outcome rule >>= continuation) reached result ↔
      ∃ between given, rule.Ends options host free world between given ∧
        (continuation given).Ends options host free between reached result := by
  rw [Ends, run_outcome_bind, Process.ends_bind_iff]
  exact or_iff_left fun stuck => nomatch stuck.1

/-- A rule after another one goes on with what that gives, or ends as it does. -/
theorem ends_run_bind_iff {rule : Rule α} {continuation : α → Rule β}
    {result : Option (Except Interrupt β)} :
    (rule >>= continuation).run.Ends options host free world reached result ↔
      (∃ between given, rule.Ends options host free world between (.ok given) ∧
        (continuation given).run.Ends options host free between reached result) ∨
      ∃ interrupt : Option Interrupt,
        rule.run.Ends options host free world reached (interrupt.map .error) ∧
          result = interrupt.map .error := by
  have split : (rule >>= continuation).run = rule.run.bind (ExceptT.bindCont continuation) := rfl
  rw [split, Process.ends_bind_iff]
  constructor
  · rintro (⟨between, given, first, second⟩ | ⟨rfl, stuck⟩)
    · cases given with
      | ok value => exact .inl ⟨between, value, first, second⟩
      | error interrupt =>
          obtain ⟨rfl, rfl⟩ := Process.ends_done_iff.mp second
          exact .inr ⟨some interrupt, first, rfl⟩
    · exact .inr ⟨none, stuck, rfl⟩
  · rintro (⟨between, value, first, second⟩ | ⟨interrupt | interrupt, first, rfl⟩)
    · exact .inl ⟨between, .ok value, first, second⟩
    · exact .inr ⟨rfl, first⟩
    · exact .inl ⟨reached, .error interrupt, first, .done⟩

/-- A rule that goes on after another one, unless that is interrupted. -/
theorem ends_bind_iff {rule : Rule α} {continuation : α → Rule β}
    {result : Except Interrupt β} :
    Ends options host free world (rule >>= continuation) reached result ↔
      (∃ between given, rule.Ends options host free world between (.ok given) ∧
        (continuation given).Ends options host free between reached result) ∨
      ∃ interrupt, rule.Ends options host free world reached (.error interrupt) ∧
        result = .error interrupt := by
  refine ends_run_bind_iff.trans (or_congr_right ⟨?_, ?_⟩)
  · rintro ⟨_ | interrupt, first, same⟩
    · cases same
    · exact ⟨interrupt, first, Option.some.inj same⟩
  · rintro ⟨interrupt, first, rfl⟩
    exact ⟨some interrupt, first, rfl⟩

/-- A rule goes on with what another one has given. -/
theorem Ends.andThen {rule : Rule α} {continuation : α → Rule β} {given : α}
    {result : Except Interrupt β}
    (first : rule.Ends options host free world between (.ok given))
    (second : (continuation given).Ends options host free between reached result) :
    (rule >>= continuation).Ends options host free world reached result :=
  ends_bind_iff.mpr (.inl ⟨between, given, first, second⟩)

/-- A rule that succeeds after another one has. -/
theorem ends_bind_ok_iff {rule : Rule α} {continuation : α → Rule β} {result : β} :
    Ends options host free world (rule >>= continuation) reached (.ok result) ↔
      ∃ between given, rule.Ends options host free world between (.ok given) ∧
        (continuation given).Ends options host free between reached (.ok result) := by
  refine ends_bind_iff.trans (or_iff_left ?_)
  rintro ⟨_, -, ⟨⟩⟩

/-- A rule that goes on after an action. -/
theorem ends_perform_bind_iff {action : Action} {continuation : action.Reply → Rule α}
    {result : Except Interrupt α} :
    Ends options host free world (perform action >>= continuation) reached result ↔
      (continuation (world.perform options action).1).Ends options host free
        (world.perform options action).2 reached result :=
  Process.ends_act_iff

/-- Looking at the store changes nothing. -/
theorem ends_look (view : Store → α) :
    (look view).Ends options host free world world (.ok (view world.store)) :=
  ends_perform_bind_iff.mpr (ends_pure _)

/-- Rules made of parts that end alike. -/
theorem ends_bind_congr {rule other : Rule α} {continuation continuation' : α → Rule β}
    (first : ∀ {reached result}, rule.Ends options host free world reached result ↔
      other.Ends options host free world reached result)
    (goesOn : ∀ {between given reached result},
      (continuation given).Ends options host free between reached result ↔
        (continuation' given).Ends options host free between reached result)
    {result : Except Interrupt β} :
    Ends options host free world (rule >>= continuation) reached result ↔
      Ends options host free world (other >>= continuation') reached result := by
  simp only [ends_bind_iff, first, goesOn]

theorem ends_traverse_congr {step step' : α → Rule β} {elements : List α}
    (same : ∀ element ∈ elements, ∀ {world reached result},
      (step element).Ends options host free world reached result ↔
        (step' element).Ends options host free world reached result)
    {result : Except Interrupt (List β)} :
    Ends options host free world (traverse step elements) reached result ↔
      Ends options host free world (traverse step' elements) reached result := by
  induction elements generalizing world reached result with
  | nil => exact .rfl
  | cons element rest inductive_step =>
      rw [traverse_cons, traverse_cons]
      refine ends_bind_congr (same element (.head rest)) (ends_bind_congr ?_ .rfl)
      exact inductive_step fun element inside => same element (.tail _ inside)

/-- A definition that is attempted. -/
theorem ends_attempt_define_iff {scope : Scope} {isMutable : Bool} {pattern : Node} {value : Value}
    {result : Except Interrupt Unit} :
    Ends options host free world (attempt (perform (.define scope isMutable pattern value))) reached
        result ↔
      reached = (world.perform options (.define scope isMutable pattern value)).2 ∧
        result =
          (world.perform options (.define scope isMutable pattern value)).1.mapError .error :=
  Process.ends_act_iff.trans ends_ofExcept_iff

/-- An attempt to put attributes on what has been defined. -/
theorem ends_attempt_decorate_iff {scope : Scope} {target : Node} {value : Value}
    {attributes : List Attribute} {result : Except Interrupt Unit} :
    Ends options host free world (attempt (perform (.decorate scope target value attributes)))
        reached result ↔
      reached = (world.perform options (.decorate scope target value attributes)).2 ∧
        result = (world.perform options (.decorate scope target value attributes)).1.mapError
          .error :=
  Process.ends_act_iff.trans ends_ofExcept_iff

theorem ends_mapError_iff {rule : Rule α} {change : Error → Error}
    {result : Except Interrupt α} :
    Ends options host free world (mapError change rule) reached result ↔
      ∃ given, rule.Ends options host free world reached given ∧
        result = given.mapError (Interrupt.mapError change) := by
  refine ends_outcome_bind_iff.trans ⟨?_, ?_⟩
  · rintro ⟨between, (signal | error) | value, first, second⟩
    · obtain ⟨rfl, rfl⟩ := ends_throw_iff.mp second
      exact ⟨_, first, rfl⟩
    · obtain ⟨rfl, rfl⟩ := ends_fail_iff.mp second
      exact ⟨_, first, rfl⟩
    · obtain ⟨rfl, rfl⟩ := ends_pure_iff.mp second
      exact ⟨_, first, rfl⟩
  · rintro ⟨(signal | error) | value, first, rfl⟩
    · exact ⟨reached, _, first, ends_throw_iff.mpr ⟨rfl, rfl⟩⟩
    · exact ⟨reached, _, first, ends_fail_iff.mpr ⟨rfl, rfl⟩⟩
    · exact ⟨reached, _, first, ends_pure_iff.mpr ⟨rfl, rfl⟩⟩

/-- To change errors makes no difference to success. -/
theorem ends_mapError_ok_iff {rule : Rule α} {change : Error → Error} {result : α} :
    Ends options host free world (mapError change rule) reached (.ok result) ↔
      rule.Ends options host free world reached (.ok result) := by
  refine ends_mapError_iff.trans ⟨?_, fun ends => ⟨_, ends, rfl⟩⟩
  rintro ⟨interrupt | given, ends, same⟩
  · cases same
  · cases same
    exact ends

/-- A rule ends in one way at most. -/
theorem Ends.unique {rule : Rule α} {next : World} {result other : Except Interrupt α}
    (first : rule.Ends options host free world reached result)
    (second : rule.Ends options host free world next other) :
    reached = next ∧ result = other := by
  obtain ⟨rfl, same⟩ := Process.Ends.unique first second
  exact ⟨rfl, Option.some.inj same⟩

/-- Once it is known what a rule gives, it only matters what follows it. -/
theorem Ends.run_bind_iff {rule : Rule α} {continuation : α → Rule β} {given : α}
    {result : Option (Except Interrupt β)}
    (first : rule.Ends options host free world between (.ok given)) :
    (rule >>= continuation).run.Ends options host free world reached result ↔
      (continuation given).run.Ends options host free between reached result := by
  refine ends_run_bind_iff.trans ⟨?_, fun second => .inl ⟨between, given, first, second⟩⟩
  rintro (⟨other, value, ends, second⟩ | ⟨_ | interrupt, ends, -⟩)
  · obtain ⟨rfl, ⟨⟩⟩ := ends.unique first
    exact second
  · cases (Process.Ends.unique ends first).2
  · cases (Process.Ends.unique ends first).2

end Rule

/-! ## Rules as tasks -/

namespace Evaluation

/-- A goal that a rule answers is answered as the rule ends. -/
theorem ends_answering_iff {rule : Rule Value} {turn : Turn} :
    (process (answering rule)).Ends options host free world reached (some turn) ↔
      ∃ outcome, rule.Ends options host free world reached outcome ∧ turn = .answer outcome := by
  rw [process_answering, Process.ends_bind_iff]
  constructor
  · rintro (⟨between, outcome, first, second⟩ | ⟨⟨⟩, -⟩)
    obtain ⟨rfl, same⟩ := Process.ends_done_iff.mp second
    exact ⟨outcome, first, Option.some.inj same⟩
  · rintro ⟨outcome, first, rfl⟩
    exact .inl ⟨reached, outcome, first, .done⟩

/-- To call a goal that a rule answers is to follow the rule. -/
theorem ends_call_iff {goal : Goal} {rule : Rule Value} {outcome : Outcome}
    (answered : turn options host goal = answering rule) :
    (Rule.call goal).Ends options host free world reached outcome ↔
      rule.Ends options host free world reached outcome := by
  constructor
  · intro ends
    cases ends with
    | call asked rest =>
        rw [ofGoal, answered] at asked
        obtain ⟨given, ends, rfl⟩ := ends_answering_iff.mp asked
        obtain ⟨rfl, same⟩ := Process.ends_done_iff.mp rest
        cases same
        exact ends
  · intro ends
    have asked := ends_answering_iff.mpr ⟨outcome, ends, rfl⟩
    rw [← answered] at asked
    exact .call asked .done

end Evaluation

namespace Task

/-- A task that may be suspended ends as its rule does. -/
theorem ends_ofRule_iff {rule : Rule Value} {outcome : Outcome} :
    (Task.ofRule rule).Ends options host world reached outcome ↔
      rule.Ends options host true world reached outcome := by
  rw [ends_iff]
  constructor
  · rintro ⟨between, turn, first, frames⟩
    obtain ⟨turn, rfl⟩ := first.exists_of_free
    obtain ⟨given, ends, rfl⟩ := Evaluation.ends_answering_iff.mp first
    cases frames
    exact ends
  · intro ends
    exact ⟨reached, _, Evaluation.ends_answering_iff.mpr ⟨outcome, ends, rfl⟩, .foot⟩

/-- A task that must not wait ends as its rule does, or fails where the rule wants to wait. -/
theorem ends_ofRuleAtOnce_iff {rule : Rule Value} {outcome : Outcome} :
    (Task.ofRuleAtOnce rule).Ends options host world reached outcome ↔
      rule.Ends options host false world reached outcome ∨
        rule.run.Ends options host false world reached none ∧ outcome = cannotWait := by
  rw [ends_iff]
  constructor
  · rintro ⟨between, turn, first, frames⟩
    cases turn with
    | some turn =>
        obtain ⟨given, ends, rfl⟩ := Evaluation.ends_answering_iff.mp first
        cases frames with
        | resume given rest =>
            cases given
            cases rest
            exact .inl ends
    | none =>
        have stuck : rule.run.Ends options host false world between none := by
          rw [show (ofRuleAtOnce rule).process = _ from Evaluation.process_answering rule,
            Process.ends_bind_iff] at first
          rcases first with ⟨last, given, -, ⟨⟩⟩ | ⟨-, stuck⟩
          exact stuck
        cases frames with
        | skip isOpen _ => cases isOpen
        | stop _ given rest =>
            cases given
            cases rest
            exact .inr ⟨stuck, rfl⟩
  · rintro (ends | ⟨stuck, rfl⟩)
    · exact ⟨reached, _, Evaluation.ends_answering_iff.mpr ⟨outcome, ends, rfl⟩,
        .resume .done .foot⟩
    · refine ⟨reached, none, ?_, .stop rfl .done .foot⟩
      rw [show (ofRuleAtOnce rule).process = _ from Evaluation.process_answering rule]
      exact stuck.bind_none

end Task

/-- How a rule ends that is run, with fuel, without being suspended. -/
theorem Rule.ends_of_run (options : Options) (host : Host) (world : World) (rule : Rule α)
    (fuel : Nat) {reached : World} {outcome : Outcome}
    (ran : (Task.ofRule (rule >>= fun _ => pure .null)).run options host fuel world =
      some (.finished reached outcome)) :
    ∃ result, rule.Ends options host true world reached result ∧
      outcome = result.map fun _ => .null := by
  have ends := Task.ends_ofRule_iff.mp (.of_run ran .finish)
  rcases ends_bind_iff.mp ends with ⟨between, given, first, second⟩ | ⟨interrupt, first, rfl⟩
  · obtain ⟨rfl, rfl⟩ := ends_pure_iff.mp second
    exact ⟨.ok given, first, rfl⟩
  · exact ⟨.error interrupt, first, rfl⟩

/-! ## Nodes -/

/-- Whether evaluation in a mode is free to wait. -/
def Mode.isFree : Mode → Bool
  | .asynchronous => true
  | .synchronous => false

namespace World

/-- The world after a yield, if it is time for one. -/
def afterYield (irq : Irq) (world : World) : World :=
  if irq.isDue world.steps then
    match irq.sleep with
    | .timed _ => world
    | .custom _ => world.record (.yielded world.steps)
  else world

/-- What happens in front of a node that is entered, up to the step into it. -/
def Arrives (options : Options) (mode : Mode) (world next : World) : Prop :=
  match mode with
  | .asynchronous => world.lifecycle.pause = none ∧ next = world.afterYield options.irq
  | .synchronous => next = world

end World

namespace Evaluation

theorem ends_yieldNow_iff {sleep : Sleep} {result : Except Interrupt Unit} :
    (yieldNow sleep).Ends options host true world reached result ↔
      (reached = match sleep with
        | .timed _ => world
        | .custom _ => world.record (.yielded world.steps)) ∧ result = .ok () := by
  have waits {world : World} : (Rule.wait .nextPoll).Ends options host true world reached result ↔
      reached = world ∧ result = .ok () := by
    constructor
    · intro ends
      cases ends with
      | wait _ rest => exact ends_pure_iff.mp rest
    · exact fun given => .wait rfl (ends_pure_iff.mpr given)
  cases sleep with
  | timed milliseconds => exact waits
  | custom suspends =>
      refine ends_perform_bind_iff.trans ?_
      cases suspends with
      | true => exact waits
      | false => exact ends_pure_iff

/-- The gate in front of a node is passed precisely when no pause is in effect. -/
theorem ends_gate_iff {irq : Irq} {result : Except Interrupt Unit} :
    (gate irq).Ends options host true world reached result ↔
      world.lifecycle.pause = none ∧ reached = world.afterYield irq ∧ result = .ok () := by
  have yields : (yieldWhenDue irq).Ends options host true world reached result ↔
      reached = world.afterYield irq ∧ result = .ok () := by
    refine ends_perform_bind_iff.trans ?_
    rw [World.afterYield]
    show Rule.Ends options host true world (if irq.isDue world.steps then _ else _) _ _ ↔ _
    split
    · exact ends_yieldNow_iff
    · exact ends_pure_iff
  refine ends_perform_bind_iff.trans ?_
  show Rule.Ends options host true world _ _ _ ↔ _
  cases paused : world.lifecycle.pause with
  | none =>
      rw [show (world.perform options .pause).1 = none from paused]
      exact yields.trans (and_iff_right rfl).symm
  | some pause =>
      rw [show (world.perform options .pause).1 = some pause from paused]
      refine iff_of_false (fun ends => ?_) nofun
      cases ends with
      | wait ended _ => simp [Wait.isOver, paused] at ended

/-- What is left of entering a node behind the gate. -/
theorem ends_tick_iff {node : Node} {scope : Scope} {context : Context} {outcome : Outcome} :
    Rule.Ends options host free world (do
        if ← perform .tick then construct scope context node.start node.shape
        else fail (.of .stepLimit)) reached outcome ↔
      (if (world.tick options).1 then construct scope context node.start node.shape
        else fail (.of .stepLimit)).Ends options host free (world.tick options).2 reached
        outcome :=
  ends_perform_bind_iff

/-- How a node is entered and how its rule ends. -/
theorem ends_enterNode_iff {node : Node} {scope : Scope} {context : Context} {outcome : Outcome} :
    (enterNode options node scope context).Ends options host context.mode.isFree world reached
        outcome ↔
      world.lifecycle.isStopped = true ∧ reached = world ∧ outcome = .ok .null ∨
      world.lifecycle.isStopped = false ∧ ∃ entered, world.Arrives options context.mode entered ∧
        (if (entered.tick options).1 then construct scope context node.start node.shape
          else fail (.of .stepLimit)).Ends options host context.mode.isFree
            (entered.tick options).2 reached outcome := by
  refine ends_perform_bind_iff.trans ?_
  show Rule.Ends options host context.mode.isFree world
    (if world.lifecycle.isStopped then _ else _) reached outcome ↔ _
  cases stopped : world.lifecycle.isStopped with
  | true =>
      refine ends_pure_iff.trans ?_
      simp
  | false =>
      rcases context with ⟨calls, mode⟩
      cases mode with
      | synchronous =>
          refine ends_tick_iff.trans ?_
          simp [World.Arrives]
      | asynchronous =>
          have gated : Rule.Ends options host true world (gate options.irq >>= fun _ => do
                if ← perform .tick then construct scope ⟨calls, .asynchronous⟩ node.start node.shape
                else fail (.of .stepLimit)) reached outcome ↔ _ := ends_bind_iff
          refine gated.trans ⟨?_, ?_⟩
          · rintro (⟨between, ⟨⟩, first, second⟩ | ⟨interrupt, first, -⟩)
            · obtain ⟨unpaused, rfl, -⟩ := ends_gate_iff.mp first
              exact .inr ⟨rfl, _, ⟨unpaused, rfl⟩, ends_tick_iff.mp second⟩
            · cases (ends_gate_iff.mp first).2.2
          · rintro (⟨⟨⟩, -⟩ | ⟨-, entered, ⟨unpaused, rfl⟩, second⟩)
            exact .inl ⟨_, (), ends_gate_iff.mpr ⟨unpaused, rfl, rfl⟩, ends_tick_iff.mpr second⟩

/-- A node that is evaluated is entered, and its errors are located. -/
theorem ends_evaluate_iff {node : Node} {scope : Scope} {context : Context} {outcome : Outcome} :
    (evaluate node scope context).Ends options host free world reached outcome ↔
      ∃ given, (enterNode options node scope context).Ends options host free world reached given ∧
        outcome = given.mapError (Interrupt.mapError fun error =>
          error.locate node.start context.calls) := by
  have asks : (evaluate node scope context).Ends options host free world reached outcome ↔
      (evaluateNode options node scope context).Ends options host free world reached outcome :=
    ends_call_iff rfl
  exact asks.trans ends_mapError_iff

/-- How a node outside of all calls is evaluated. -/
theorem ends_evaluate_top_iff {node : Node} {scope : Scope} {mode : Mode} {outcome : Outcome} :
    (evaluate node scope (.top mode)).Ends options host mode.isFree world reached outcome ↔
      world.lifecycle.isStopped = true ∧ reached = world ∧ outcome = .ok .null ∨
      world.lifecycle.isStopped = false ∧ ∃ entered given, world.Arrives options mode entered ∧
        (if (entered.tick options).1 then construct scope (.top mode) node.start node.shape
          else fail (.of .stepLimit)).Ends options host mode.isFree (entered.tick options).2
            reached given ∧
        outcome = given.mapError (Interrupt.mapError fun error => error.locate node.start []) := by
  constructor
  · intro ends
    obtain ⟨given, enters, rfl⟩ := ends_evaluate_iff.mp ends
    have enters : (enterNode options node scope (.top mode)).Ends options host
        (Context.top mode).mode.isFree world reached given := enters
    rcases ends_enterNode_iff.mp enters with ⟨stopped, rfl, rfl⟩ | ⟨running, entered, arrives, ends⟩
    · exact .inl ⟨stopped, rfl, rfl⟩
    · exact .inr ⟨running, entered, given, arrives, ends, rfl⟩
  · intro given
    have enters {outcome : Outcome} (ends : (enterNode options node scope (.top mode)).Ends options
        host (Context.top mode).mode.isFree world reached outcome) :
        (evaluate node scope (.top mode)).Ends options host mode.isFree world reached
          (outcome.mapError (Interrupt.mapError fun error => error.locate node.start [])) :=
      ends_evaluate_iff.mpr ⟨_, ends, rfl⟩
    rcases given with ⟨stopped, rfl, rfl⟩ | ⟨running, entered, given, arrives, ends, rfl⟩
    · exact enters (ends_enterNode_iff.mpr (.inl ⟨stopped, rfl, rfl⟩))
    · exact enters (ends_enterNode_iff.mpr (.inr ⟨running, entered, arrives, ends⟩))

end Evaluation

/-- The value of a literal that has no parts. -/
def Shape.literal? : Shape → Option Value
  | .null => some .null
  | .bool truth => some (.bool truth)
  | .num number => some (.num number)
  | .str text => some (.str text)
  | _ => none

namespace Evaluation

theorem construct_literal {shape : Shape} {value : Value} (literal : shape.literal? = some value)
    (scope : Scope) (context : Context) (start : Position) :
    construct scope context start shape = pure value := by
  cases shape <;> cases literal <;> rfl

/-- A literal does not depend on the scope. -/
theorem ends_literal_congr {node : Node} {value : Value}
    (literal : node.shape.literal? = some value) {scope other : Scope} {mode : Mode}
    {outcome : Outcome} :
    (evaluate node scope (.top mode)).Ends options host mode.isFree world reached outcome ↔
      (evaluate node other (.top mode)).Ends options host mode.isFree world reached outcome := by
  rw [ends_evaluate_top_iff, ends_evaluate_top_iff, construct_literal literal,
    construct_literal literal]

/-! ## Members of namespaces -/

/-- What is done for a member with a plain name. -/
theorem defineMember_identifier {outer inner : Scope} {mode : Mode} {position : Position}
    {target literal : Node} {name : String} {attributes : List (String × Node)}
    (named : target.shape = .identifier name) :
    defineMember outer inner mode position target literal false attributes = (do
      let value ← expectingValue (evaluate literal inner (.top mode))
      let attributes ← expectingAttributes (evaluateAttributes outer (.top mode) attributes)
      nameLiteral inner target literal value
      (attempt (perform (.define inner false target value))).mapError
        fun error => error.positioned position
      attempt (perform (.decorate inner target value attributes))) := by
  rw [defineMember, named]
  rfl

/-- Where a value is expected, a signal is an error. -/
theorem ends_expectingValue_iff {rule : Rule Value} {result : Outcome} :
    (expectingValue rule).Ends options host free world reached result ↔
      ∃ given, rule.Ends options host free world reached given ∧
        result = (Outcome.expectValue given).mapError .error := by
  refine ends_outcome_bind_iff.trans ⟨?_, ?_⟩
  · rintro ⟨between, given, first, second⟩
    obtain ⟨rfl, rfl⟩ := ends_ofExcept_iff.mp second
    exact ⟨given, first, rfl⟩
  · rintro ⟨given, first, rfl⟩
    exact ⟨reached, given, first, ends_ofExcept_iff.mpr ⟨rfl, rfl⟩⟩

theorem ends_expectingValue_ok_iff {rule : Rule Value} {value : Value} :
    (expectingValue rule).Ends options host free world reached (.ok value) ↔
      rule.Ends options host free world reached (.ok value) := by
  refine ends_expectingValue_iff.trans ⟨?_, fun ends => ⟨_, ends, rfl⟩⟩
  rintro ⟨(signal | error) | given, ends, same⟩
  · cases same
  · cases same
  · cases same
    exact ends

end Evaluation

/-- What is made of an interrupt where attributes are expected. -/
def Interrupt.inAttribute : Interrupt → Interrupt
  | .error given => .error given
  | .signal given => .error (.of (.internal ("Unexpected " ++ given.name ++ " in attribute")))

namespace Evaluation

/-- Where attributes are expected, a signal is an error. -/
theorem ends_expectingAttributes_iff {rule : Rule (List Attribute)}
    {result : Except Interrupt (List Attribute)} :
    (expectingAttributes rule).Ends options host free world reached result ↔
      ∃ given, rule.Ends options host free world reached given ∧
        result = given.mapError Interrupt.inAttribute := by
  refine ends_outcome_bind_iff.trans ⟨?_, ?_⟩
  · rintro ⟨between, (signal | error) | attributes, first, second⟩
    · obtain ⟨rfl, rfl⟩ := ends_fail_iff.mp second
      exact ⟨_, first, rfl⟩
    · obtain ⟨rfl, rfl⟩ := ends_fail_iff.mp second
      exact ⟨_, first, rfl⟩
    · obtain ⟨rfl, rfl⟩ := ends_pure_iff.mp second
      exact ⟨_, first, rfl⟩
  · rintro ⟨(signal | error) | attributes, first, rfl⟩
    · exact ⟨reached, _, first, ends_fail_iff.mpr ⟨rfl, rfl⟩⟩
    · exact ⟨reached, _, first, ends_fail_iff.mpr ⟨rfl, rfl⟩⟩
    · exact ⟨reached, _, first, ends_pure_iff.mpr ⟨rfl, rfl⟩⟩

theorem ends_expectingAttributes_ok_iff {rule : Rule (List Attribute)}
    {attributes : List Attribute} :
    (expectingAttributes rule).Ends options host free world reached (.ok attributes) ↔
      rule.Ends options host free world reached (.ok attributes) := by
  refine ends_expectingAttributes_iff.trans ⟨?_, fun ends => ⟨_, ends, rfl⟩⟩
  rintro ⟨interrupt | given, ends, same⟩
  · cases same
  · cases same
    exact ends

/-- What is refused never succeeds. -/
theorem not_ends_refuseMember {position : Position} {message : String} {rest : Unit → Rule Unit} :
    ¬ (refuseMember position message >>= rest).Ends options host free world reached (.ok ()) := by
  intro ends
  obtain ⟨_, _, refused, -⟩ := ends_bind_ok_iff.mp ends
  cases (ends_fail_iff.mp refused).2

/-- Putting attributes on something never fails. -/
theorem ends_attempt_decorate_ok_iff {scope : Scope} {target : Node} {value : Value}
    {attributes : List Attribute} :
    (attempt (perform (.decorate scope target value attributes))).Ends options host free world
        reached (.ok ()) ↔
      reached = (world.perform options (.decorate scope target value attributes)).2 := by
  refine ends_attempt_decorate_iff.trans (and_iff_left ?_)
  rw [World.perform, Edit.decorate]
  split
  · rfl
  · cases target.shape <;> rfl

theorem ends_attempt_define_ok_iff {scope : Scope} {isMutable : Bool} {target : Node}
    {value : Value} :
    (attempt (perform (.define scope isMutable target value))).Ends options host free world reached
        (.ok ()) ↔
      (Edit.define options scope isMutable target value).run.run world = (.ok (), reached) := by
  refine ends_attempt_define_iff.trans ?_
  show reached = ((Edit.define options scope isMutable target value).run.run world).2 ∧
    _ = ((Edit.define options scope isMutable target value).run.run world).1.mapError _ ↔ _
  rcases (Edit.define options scope isMutable target value).run.run world with ⟨error | ⟨⟩, after⟩
  · refine iff_of_false ?_ ?_
    · rintro ⟨-, ⟨⟩⟩
    · rintro ⟨⟩
  · constructor
    · rintro ⟨rfl, -⟩
      rfl
    · rintro ⟨⟩
      exact ⟨rfl, rfl⟩

/-- To define a plain name is to declare it. -/
theorem define_identifier {scope : Scope} {isMutable : Bool} {target : Node} {name : String}
    (named : target.shape = .identifier name) (value : Value) :
    Edit.define options scope isMutable target value =
      Edit.declare options scope name (.plain isMutable value) := by
  rcases target with ⟨shape, span⟩
  obtain rfl : shape = .identifier name := named
  rfl

/-- A member is evaluated in its namespace, its attributes around it, and then it is defined. -/
theorem ends_defineMember_ok_iff {outer inner : Scope} {mode : Mode} {position : Position}
    {target value : Node} {name : String} {attributes : List (String × Node)}
    (named : target.shape = .identifier name) :
    (defineMember outer inner mode position target value false attributes).Ends options host free
        world reached (.ok ()) ↔
      ∃ valued attributed known defined given held,
        (evaluate value inner (.top mode)).Ends options host free world valued (.ok given) ∧
        (evaluateAttributes outer (.top mode) attributes).Ends options host free valued attributed
          (.ok held) ∧
        (nameLiteral inner target value given).Ends options host free attributed known (.ok ()) ∧
        (Edit.declare options inner name (.plain false given)).run.run known = (.ok (), defined) ∧
        reached = (defined.perform options (.decorate inner target given held)).2 := by
  rw [defineMember_identifier named]
  constructor
  · intro ends
    obtain ⟨valued, given, values, ends⟩ := ends_bind_ok_iff.mp ends
    obtain ⟨attributed, held, holds, ends⟩ := ends_bind_ok_iff.mp ends
    obtain ⟨known, ⟨⟩, names, ends⟩ := ends_bind_ok_iff.mp ends
    obtain ⟨defined, ⟨⟩, defines, decorates⟩ := ends_bind_ok_iff.mp ends
    refine ⟨valued, attributed, known, defined, given, held, ends_expectingValue_ok_iff.mp values,
      ends_expectingAttributes_ok_iff.mp holds, names, ?_,
      ends_attempt_decorate_ok_iff.mp decorates⟩
    rw [← define_identifier named]
    exact ends_attempt_define_ok_iff.mp (ends_mapError_ok_iff.mp defines)
  · rintro ⟨valued, attributed, known, defined, given, held, values, holds, names, defines, same⟩
    rw [← define_identifier named] at defines
    refine ends_bind_ok_iff.mpr ⟨valued, given, ends_expectingValue_ok_iff.mpr values, ?_⟩
    refine ends_bind_ok_iff.mpr
      ⟨attributed, held, ends_expectingAttributes_ok_iff.mpr holds, ?_⟩
    refine ends_bind_ok_iff.mpr ⟨known, (), names, ?_⟩
    exact ends_bind_ok_iff.mpr ⟨defined, (),
      ends_mapError_ok_iff.mpr (ends_attempt_define_ok_iff.mpr defines),
      ends_attempt_decorate_ok_iff.mpr same⟩

end Evaluation

end TreeScript
