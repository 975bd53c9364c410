import TreeScript.Proofs.GoalManner
import TreeScript.Proofs.Moments

/-!
# Where errors are located

An error arises in the process of one goal and is handed from frame to frame
until the run ends.  On the way out of the innermost node that was being
evaluated it gets the position of that node and a trace, which has one line for
each call around the node and one for the script; from then on nothing changes
it.  The main theorem is `Moment.errors_are_located`.

Scripts that declare namespaces are left out, because an error in a declaration
may get its position without a trace.
-/

namespace TreeScript

open Rule

variable {options : Options} {host : Host}

/-! ## On the way out -/

theorem Error.locate_of_position {error : Error} (located : error.position ≠ none)
    (position : Position) (calls : List Call) :
    error.locate position calls = error := by
  unfold Error.locate
  cases known : error.position with
  | none => exact (located known).elim
  | some position => rfl

theorem Error.locate_of_isBare {error : Error} (bare : error.IsBare) (position : Position)
    (calls : List Call) :
    error.locate position calls =
      ⟨error.cause, some position, traceLines (some position) calls⟩ := by
  rw [bare]
  rfl

/-- A goal that is no node lets every error through. -/
theorem Goal.failed_of_not_isNode {goal : Goal} (other : ¬goal.IsNode) (error : Error) :
    goal.failed error = error := by
  cases goal with
  | evaluate node scope context => exact (other trivial).elim
  | _ => rfl

/-- No goal changes an error that has a position. -/
theorem Goal.failed_of_position (goal : Goal) {error : Error} (located : error.position ≠ none) :
    goal.failed error = error := by
  cases goal with
  | evaluate node scope context => exact error.locate_of_position located _ _
  | _ => rfl

namespace Undertaking

/-- What becomes of an error that the innermost of some goals gives, after some frames. -/
def relayed : List Undertaking → Nat → Error → Error
  | _, 0, error => error
  | [], _ + 1, error => error
  | _ :: outer, steps + 1, error => relayed outer steps (failed outer error)

/-- Errors that arise in goals have not been located before. -/
theorem exists_of_fails {fails : Error → Prop} {underway : List Undertaking} {error : Error}
    (given : Fails fails underway error) (some : underway ≠ []) :
    ∃ raised : Error, raised.IsBare ∧ error = failed underway raised := by
  cases underway with
  | nil => exact (some rfl).elim
  | cons undertaking outer => exact given

theorem failed_of_position (underway : List Undertaking) {error : Error}
    (located : error.position ≠ none) :
    failed underway error = error := by
  cases underway with
  | nil => rfl
  | cons undertaking outer => exact undertaking.goal.failed_of_position located

theorem relayed_of_position (underway : List Undertaking) (steps : Nat) {error : Error}
    (located : error.position ≠ none) :
    relayed underway steps error = error := by
  induction underway generalizing steps with
  | nil => cases steps <;> rfl
  | cons undertaking outer inductive_step =>
      cases steps with
      | zero => rfl
      | succ steps =>
          rw [relayed, failed_of_position outer located]
          exact inductive_step steps

/-- An error is as it was raised inside of the innermost node, and located from there on. -/
theorem relayed_failed {inner outer : List Undertaking} {node : Node} {scope : Scope}
    {context : Context} {undertaking : Undertaking}
    (evaluates : undertaking.goal = .evaluate node scope context)
    (innermost : ∀ other ∈ inner, ¬other.goal.IsNode) {raised : Error} (bare : raised.IsBare)
    (steps : Nat) :
    relayed (inner ++ undertaking :: outer) steps
        (failed (inner ++ undertaking :: outer) raised) =
      if steps < inner.length then raised else raised.locate node.start context.calls := by
  induction inner generalizing steps with
  | nil =>
      have located : failed (undertaking :: outer) raised =
          raised.locate node.start context.calls := by
        rw [failed, evaluates]
        rfl
      have position : (raised.locate node.start context.calls).position ≠ none := by
        rw [raised.locate_of_isBare bare]
        nofun
      rw [List.nil_append, located, relayed_of_position _ steps position]
      exact (if_neg (Nat.not_lt_zero steps)).symm
  | cons other rest inductive_step =>
      obtain ⟨here, further⟩ := List.forall_mem_cons.mp innermost
      have passed : failed (other :: rest ++ undertaking :: outer) raised = raised :=
        Goal.failed_of_not_isNode here raised
      rw [passed]
      cases steps with
      | zero => rfl
      | succ steps =>
          rw [List.cons_append, relayed, inductive_step further, List.length_cons]
          simp only [Nat.add_lt_add_iff_right]

end Undertaking

/-! ## Unwinding -/

/-- The frames below hand an error on until the run ends, and do nothing else. -/
theorem Frame.Mirror.advance {numbers : Float → Prop} {fails : Error → Prop}
    {within : Option (List Binder)} {stack stack' : List Frame} {underway : List Undertaking}
    (frames : Frame.Mirror numbers fails within stack stack' underway) (world : World)
    (error : Error) {steps : Nat} (within : steps ≤ stack.length) :
    Moment.advance options host steps
        ⟨world, ⟨.done (.answer (.error (.error error))), stack⟩, underway⟩ =
      ⟨world, ⟨.done (.answer (.error (.error (Undertaking.relayed underway steps error)))),
        stack.drop steps⟩, underway.drop steps⟩ := by
  induction frames generalizing error steps with
  | foot =>
      obtain rfl : steps = 0 := Nat.le_zero.mp within
      rfl
  | barrier =>
      cases steps with
      | zero => rfl
      | succ steps =>
          obtain rfl : steps = 0 := Nat.le_zero.mp (Nat.le_of_succ_le_succ within)
          rfl
  | @push _ _ frame _ outer _ undertaking underway _ passes _ _ _ inductive_step =>
      cases steps with
      | zero => rfl
      | succ steps =>
          rw [Moment.advance]
          dsimp only [Task.step]
          rw [(passes error).1]
          exact inductive_step _ (Nat.le_of_succ_le_succ within)

/-- There is a frame for every goal. -/
theorem Frame.Mirror.length_le {numbers : Float → Prop} {fails : Error → Prop}
    {within : Option (List Binder)} {stack stack' : List Frame} {underway : List Undertaking}
    (frames : Frame.Mirror numbers fails within stack stack' underway) :
    underway.length ≤ stack.length := by
  induction frames with
  | foot | barrier => exact Nat.zero_le _
  | push _ _ _ _ _ inductive_step => exact Nat.succ_le_succ inductive_step

/-- The calls around a goal are those that are made by the goals outside of it. -/
theorem Frame.Mirror.callsWithin_eq {numbers : Float → Prop} {fails : Error → Prop}
    {within : Option (List Binder)} {stack stack' : List Frame} {underway : List Undertaking}
    (frames : Frame.Mirror numbers fails within stack stack' underway) :
    Undertaking.callsWithin underway = underway.filterMap Undertaking.call := by
  induction frames with
  | foot | barrier => rfl
  | @push _ _ _ _ _ _ undertaking underway _ _ _ inside _ inductive_step =>
      rw [Undertaking.callsWithin, inside, inductive_step, List.filterMap_cons]
      cases undertaking.call <;> rfl

/-! ## Where an error arises -/

section

variable {root : Scope} {script : List Node} {mode : Mode} {start : World} {moment : Moment}

/-- The script itself raises nothing but the errors of signals that nothing takes. -/
def Error.IsUnexpected (error : Error) : Prop :=
  ∃ signal : Signal, error = signal.unexpected

/-- A script without namespaces is in accord with itself. -/
theorem Evaluation.accords_runScript_self (plain : ∀ node ∈ script, node.kind ≠ .namespaceBlock) :
    Accords (fun _ => True) (Undertaking.terms Error.IsUnexpected []) none
      (Shared (Value.Carries fun _ => True)) (runScript root script mode)
      (runScript root script mode) := by
  refine accords_runScript rfl (fun signal => ⟨signal, rfl⟩) ?_
    (Node.resemble_self (List.forall_mem_nil _) script fun _ _ => trivial)
  rw [collect_eq_pure plain]
  exact accords_same trivial

/-- An error that arises from accord arises in the innermost goal under way. -/
theorem Moment.Mirrors.fails {numbers : Float → Prop} {fails : Error → Prop} {world : World}
    {task : Task} (mirrors : moment.Mirrors numbers fails False options host world task)
    {error : Error} (given : moment.error? = some error) :
    Undertaking.Fails fails moment.underway error := by
  obtain ⟨world₀, ⟨process, stack⟩, underway⟩ := moment
  obtain ⟨process', stack'⟩ := task
  obtain ⟨-, within, processes, -⟩ := mirrors
  dsimp only at processes
  cases processes with
  | called carry => cases given
  | failing relayed => exact relayed.elim
  | works accords =>
      cases accords with
      | done ended =>
          cases ended with
          | again goals inside => cases given
          | answer ended =>
              cases ended with
              | ok result | signal signals => cases given
              | error raised =>
                  cases given
                  exact raised
      | _ => cases given

namespace Moment

variable {meanwhile : World → World → Prop}

theorem advance_succ (steps : Nat) (moment : Moment) :
    moment.advance options host (steps + 1) =
      (moment.advance options host steps).advance options host 1 := by
  induction steps generalizing moment with
  | zero => rfl
  | succ steps inductive_step =>
      cases stepped : moment.task.step options host moment.world with
      | running next after =>
          have goes_on (count : Nat) : moment.advance options host (count + 1) =
              advance options host count ⟨next, after, moment.underwayAfter⟩ := by
            rw [advance, stepped]
          rw [goes_on, goes_on]
          exact inductive_step _
      | _ =>
          have stays (count : Nat) : moment.advance options host (count + 1) = moment := by
            rw [advance, stepped]
          rw [stays, stays]
          exact (stays 0).symm

theorem process_of_error {error : Error} (given : moment.error? = some error) :
    moment.task.process = .done (.answer (.error (.error error))) := by
  unfold error? at given
  split at given
  · rename_i process
    cases given
    exact process
  · cases given

theorem finished_of_error {error : Error} (given : moment.error? = some error)
    (emptied : moment.task.stack = []) :
    moment.task.step options host moment.world =
      .finished moment.world (.error (.error error)) := by
  obtain ⟨world, ⟨process, stack⟩, underway⟩ := moment
  obtain rfl : process = _ := process_of_error given
  obtain rfl : stack = _ := emptied
  rfl

/-- The moment that comes after an error is the next one of the unwinding. -/
theorem Goes.eq_advance {after : Moment} (goes : Goes options host meanwhile moment after)
    {error : Error} (given : moment.error? = some error) :
    after = moment.advance options host 1 ∧ moment.task.stack ≠ [] := by
  obtain ⟨world, ⟨process, stack⟩, underway⟩ := moment
  obtain rfl : process = _ := process_of_error given
  cases stack with
  | nil =>
      cases goes with
      | step running => cases running
      | resume waiting changed => cases waiting
  | cons frame outer =>
      cases goes with
      | step running =>
          cases running
          exact ⟨rfl, List.cons_ne_nil _ _⟩
      | resume waiting changed => cases waiting

/-- The frames below hand an error on as the goals under way make of it. -/
theorem Mirrors.advance_error {numbers : Float → Prop} {fails : Error → Prop} {relays : Prop}
    {world : World} {task : Task}
    (mirrors : moment.Mirrors numbers fails relays options host world task)
    {error : Error} (given : moment.error? = some error) {steps : Nat}
    (within : steps ≤ moment.task.stack.length) :
    moment.advance options host steps =
      ⟨moment.world,
        ⟨.done (.answer (.error (.error (Undertaking.relayed moment.underway steps error)))),
          moment.task.stack.drop steps⟩,
        moment.underway.drop steps⟩ := by
  obtain ⟨world₀, ⟨process, stack⟩, underway⟩ := moment
  obtain rfl : process = _ := process_of_error given
  obtain ⟨-, _, -, frames⟩ := mirrors
  exact frames.advance world₀ error within

/-- A moment at which an error arises: there was none right before it. -/
def Raises (options : Options) (host : Host) (meanwhile : World → World → Prop) (start : World)
    (task : Task) (moment : Moment) : Prop :=
  ∃ before, Reached options host meanwhile start task before ∧ before.error? = none ∧
    Goes options host meanwhile before moment

theorem Raises.reached {task : Task} (raises : Raises options host meanwhile start task moment) :
    Reached options host meanwhile start task moment :=
  have ⟨_, reached, _, goes⟩ := raises
  reached.go goes

end Moment

/-- Among goals under way there is a node; the script asks for nothing else. -/
theorem Undertaking.exists_node {givesUp : Cause → Prop} {underway : List Undertaking}
    (chain : Goal.Chain options givesUp mode (underway.map Undertaking.goal))
    (some : underway ≠ []) :
    ∃ inner undertaking outer node scope context,
      underway = inner ++ undertaking :: outer ∧
        undertaking.goal = .evaluate node scope context ∧
        ∀ other ∈ inner, ¬other.goal.IsNode := by
  induction underway with
  | nil => exact (some rfl).elim
  | cons undertaking outer inductive_step =>
      obtain ⟨goal, call⟩ := undertaking
      by_cases evaluates : goal.IsNode
      · cases goal with
        | evaluate node scope context =>
            exact ⟨[], _, outer, node, scope, context, rfl, rfl, List.forall_mem_nil _⟩
        | _ => exact evaluates.elim
      · rw [List.map_cons] at chain
        cases chain with
        | cons asks chain =>
            have further : outer ≠ [] := by
              rintro rfl
              obtain ⟨node, scope, rfl⟩ := asks
              exact evaluates trivial
            obtain ⟨inner, undertaking, outer, node, scope, context, rfl, same, innermost⟩ :=
              inductive_step chain further
            exact ⟨⟨goal, call⟩ :: inner, undertaking, outer, node, scope, context, rfl, same,
              List.forall_mem_cons.mpr ⟨evaluates, innermost⟩⟩

/-- The calls around each goal are those that are made by the goals outside of it. -/
theorem Frame.Mirror.calls_eq {numbers : Float → Prop} {fails : Error → Prop}
    {within : Option (List Binder)} {stack stack' : List Frame} {inner outer : List Undertaking}
    {undertaking : Undertaking}
    (frames : Frame.Mirror numbers fails within stack stack' (inner ++ undertaking :: outer)) :
    undertaking.goal.context.calls = outer.filterMap Undertaking.call := by
  induction inner generalizing within stack stack' with
  | nil =>
      cases frames with
      | push _ _ _ inside below => exact inside.trans below.callsWithin_eq
  | cons other rest inductive_step =>
      cases frames with
      | push _ _ _ _ below => exact inductive_step below

/-- The lines of a trace pair the name of each call with the position that was reached in it. -/
theorem Error.traceLines_eq_zipWith (reached : Option Position) (calls : List Call) :
    traceLines reached calls =
      List.zipWith traceLine (calls.map Call.name ++ ["<root>"])
        (reached :: calls.map Call.site) := by
  induction calls generalizing reached with
  | nil => rfl
  | cons call outer inductive_step =>
      rw [traceLines, inductive_step]
      rfl

/-! ## The way of an error -/

namespace Moment

variable (hostless : start.store.Hostless) (plain : ∀ node ∈ script, node.kind ≠ .namespaceBlock)

include hostless plain

theorem Reached.mirrors_of_plain
    (reached : Reached options host Task.KeepsFunctions start (Task.ofScript root script mode)
      moment) :
    moment.Mirrors (fun _ => True) Error.IsUnexpected True options host moment.world
      moment.task :=
  reached.mirrors_self ⟨fun _ _ => trivial, fun _ _ => trivial⟩ hostless.hasOnly
    (fun _ _ changed => changed.1.hasOnly) (Evaluation.accords_runScript_self plain)
    fun moment _ => moment.isSpared_of_all

/-- An error that arises does so in the innermost goal under way, or in the script. -/
theorem Raises.fails
    (raises : Raises options host Task.KeepsFunctions start (Task.ofScript root script mode)
      moment)
    {error : Error} (given : moment.error? = some error) :
    Undertaking.Fails Error.IsUnexpected moment.underway error := by
  obtain ⟨before, reached, still, goes⟩ := raises
  have lawful := reached.lawful (fun _ => False) hostless fun _ _ changed => changed.1
  have mirrors := goes.mirrors_self ⟨fun _ _ => trivial, fun _ _ => trivial⟩
    (fun _ _ changed => changed.1.hasOnly) (reached.mirrors_of_plain hostless plain)
    before.isSpared_of_all lawful
  rw [still] at mirrors
  exact (mirrors.weaken nofun).fails given

/-- Every error on its way out has arisen in the script itself, or before some steps. -/
theorem Reached.exists_raises
    (reached : Reached options host Task.KeepsFunctions start (Task.ofScript root script mode)
      moment)
    {error : Error} (given : moment.error? = some error) :
    (moment.underway = [] ∧ error.IsUnexpected) ∨
      ∃ origin, Raises options host Task.KeepsFunctions start (Task.ofScript root script mode)
          origin ∧ origin.underway ≠ [] ∧ origin.error?.isSome ∧
        ∃ steps ≤ origin.task.stack.length, moment = origin.advance options host steps := by
  induction reached generalizing error with
  | start =>
      have mirrors : Mirrors (fun _ => True) Error.IsUnexpected False options host
          ⟨start, Task.ofScript root script mode, []⟩ start (Task.ofScript root script mode) :=
        mirrors_ofScript ⟨rfl, hostless.hasOnly.resembles_self⟩
          (Evaluation.accords_runScript_self plain)
      exact .inl ⟨rfl, mirrors.fails given⟩
  | @go before after reached goes inductive_step =>
      cases known : before.error? with
      | none =>
          have raises : Raises options host Task.KeepsFunctions start
              (Task.ofScript root script mode) after := ⟨before, reached, known, goes⟩
          by_cases script : after.underway = []
          · have fails := raises.fails hostless plain given
            rw [script] at fails
            exact .inl ⟨script, fails⟩
          · exact .inr ⟨after, raises, script, by rw [given]; rfl, 0, Nat.zero_le _, rfl⟩
      | some earlier =>
          have mirrors := reached.mirrors_of_plain hostless plain
          obtain ⟨rfl, running⟩ := goes.eq_advance known
          rcases inductive_step known with
            ⟨script, unexpected⟩ | ⟨origin, raises, some, arose, steps, bound, rfl⟩
          · rw [mirrors.advance_error known (List.length_pos_iff.mpr running),
              script] at given ⊢
            cases given
            exact .inl ⟨rfl, unexpected⟩
          · obtain ⟨raised, arisen⟩ := Option.isSome_iff_exists.mp arose
            have unwound := (raises.reached.mirrors_of_plain hostless plain).advance_error arisen
              bound
            rw [unwound] at running
            refine .inr ⟨origin, raises, some, arose, steps + 1, ?_,
              (advance_succ steps origin).symm⟩
            exact Nat.lt_of_not_le fun short => running (List.drop_eq_nil_of_le short)

/--
An error that ends a script without namespaces is that of a signal that nothing
takes, or it arose at some moment in the evaluation of a node.  It has the
start of the innermost such node for its position, and a trace of one line more
than there are calls around the node: the position that was reached goes with
the innermost call, each site with the call that is next further out, and the
site of the outermost with the script.  On its way out the error stays as it
was raised inside of the node, and as it ends the script from the node on.
-/
theorem errors_are_located {next : World} {error : Error}
    (reached : Reached options host Task.KeepsFunctions start (Task.ofScript root script mode)
      moment)
    (finished : moment.task.step options host moment.world =
      .finished next (.error (.error error))) :
    (∃ signal : Signal, error = signal.unexpected) ∨
      ∃ origin raised inner undertaking outer node scope context,
        Raises options host Task.KeepsFunctions start (Task.ofScript root script mode) origin ∧
        origin.underway = inner ++ undertaking :: outer ∧
        undertaking.goal = .evaluate node scope context ∧
        (∀ other ∈ inner, ¬other.goal.IsNode) ∧
        context.calls = outer.filterMap Undertaking.call ∧
        error.cause = raised.cause ∧
        error.position = some node.start ∧
        error.trace = List.zipWith Error.traceLine (context.calls.map Call.name ++ ["<root>"])
          (some node.start :: context.calls.map Call.site) ∧
        error.trace.length = context.calls.length + 1 ∧
        (∀ steps ≤ origin.task.stack.length,
          (origin.advance options host steps).underway = origin.underway.drop steps ∧
          (origin.advance options host steps).error? =
            some (if steps < inner.length then raised else error)) ∧
        moment = origin.advance options host origin.task.stack.length := by
  obtain ⟨world, task, underway⟩ := moment
  obtain ⟨rfl, rfl⟩ := Task.eq_of_finished finished
  rcases reached.exists_raises hostless plain rfl with
    ⟨-, unexpected⟩ | ⟨origin, raises, some, arose, steps, bound, last⟩
  · exact .inl unexpected
  obtain ⟨given, arisen⟩ := Option.isSome_iff_exists.mp arose
  have mirrors := raises.reached.mirrors_of_plain hostless plain
  have lawful := raises.reached.lawful (fun _ => False) hostless fun _ _ changed => changed.1
  obtain ⟨inner, undertaking, outer, node, scope, context, split, evaluates, innermost⟩ :=
    Undertaking.exists_node lawful.chain some
  obtain ⟨raised, bare, rfl⟩ :=
    Undertaking.exists_of_fails (raises.fails hostless plain arisen) some
  obtain ⟨-, within, -, frames⟩ := id mirrors
  have calls : context.calls = outer.filterMap Undertaking.call := by
    rw [split] at frames
    rw [← frames.calls_eq, evaluates]
    rfl
  -- What becomes of the error, step by step.
  have unwound (steps : Nat) (within : steps ≤ origin.task.stack.length) :
      (origin.advance options host steps).underway = origin.underway.drop steps ∧
        (origin.advance options host steps).error? =
          Option.some (if steps < inner.length then raised
            else raised.locate node.start context.calls) := by
    rw [mirrors.advance_error arisen within, split,
      ← Undertaking.relayed_failed evaluates innermost bare]
    exact ⟨rfl, rfl⟩
  have enough : inner.length < origin.task.stack.length := by
    refine Nat.lt_of_lt_of_le ?_ frames.length_le
    rw [split, List.length_append, List.length_cons]
    omega
  obtain rfl : steps = origin.task.stack.length := by
    have emptied := mirrors.advance_error arisen bound
    rw [← last] at emptied
    exact Nat.le_antisymm bound
      (List.drop_eq_nil_iff.mp (congrArg (fun moment => moment.task.stack) emptied).symm)
  have located : error = raised.locate node.start context.calls := by
    have ended := (unwound _ bound).2
    rw [← last, if_neg (Nat.lt_asymm enough)] at ended
    exact Option.some.inj ended
  refine .inr ⟨origin, raised, inner, undertaking, outer, node, scope, context, raises, split,
    evaluates, innermost, calls, ?_⟩
  rw [← located] at unwound
  rw [raised.locate_of_isBare bare] at located
  refine ⟨by rw [located], by rw [located], ?_, ?_, unwound, last⟩
  · rw [located]
    exact Error.traceLines_eq_zipWith _ _
  · rw [located]
    exact Error.length_traceLines _ _

omit hostless plain

end Moment

end

/-- The script `let f = fn() { boom }; [null].map(f)`, with the places of the name and the call. -/
def unboundCallback : List Node :=
  [.of (.definition (.of (.identifier "f"))
      (.of (.function [] [.mk (.identifier "boom") ⟨⟨1, 16⟩, ⟨1, 20⟩⟩])) false []),
    .mk (.call (.of (.prop (.of (.arr [.of .null])) "map")) [.of (.identifier "f")])
      ⟨⟨2, 1⟩, ⟨2, 14⟩⟩]

/-- A name that a callback does not find is reported inside the callback and its two callers. -/
theorem Moment.errors_are_located_unboundCallback :
    let interpreter := Interpreter.create (.silent 0 0) Host.none [] [] []
    let first : Moment :=
      ⟨interpreter.world, Task.ofScript interpreter.root unboundCallback .synchronous, []⟩
    let last := first.advance interpreter.options interpreter.host 52
    ∃ (error : Error) (origin : Moment) (undertaking : Undertaking) (node : Node) (scope : Scope)
      (context : Context),
      last.task.step interpreter.options interpreter.host last.world =
        .finished last.world (.error (.error error)) ∧
      error.trace =
        ["  at f (Line 1, Column 16)", "  at <native>", "  at <root> (Line 2, Column 1)"] ∧
      undertaking ∈ origin.underway ∧
      undertaking.goal = .evaluate node scope context ∧
      error.position = some node.start ∧
      error.trace.length = context.calls.length + 1 := by
  intro interpreter first last
  have hostless : interpreter.world.store.Hostless := Interpreter.hostless_create _ _ _ _
  have plain : ∀ node ∈ unboundCallback, node.kind ≠ .namespaceBlock := by decide
  have reached : Moment.Reached interpreter.options interpreter.host Task.KeepsFunctions
      interpreter.world (Task.ofScript interpreter.root unboundCallback .synchronous) last :=
    Moment.Reached.start.advance 52
  let error : Error := ⟨.unknownIdentifier "boom" "<anonymous>", some ⟨1, 16⟩,
    ["  at f (Line 1, Column 16)", "  at <native>", "  at <root> (Line 2, Column 1)"]⟩
  have ended : last.error? = some error := by decide +kernel
  have emptied : last.task.stack = [] := List.isEmpty_iff.mp (by decide +kernel)
  clear_value last
  have finished : last.task.step interpreter.options interpreter.host last.world =
      .finished last.world (.error (.error error)) :=
    finished_of_error ended emptied
  rcases errors_are_located hostless plain reached finished with
    ⟨signal, escapes⟩ | ⟨origin, raised, inner, undertaking, outer, node, scope, context, -,
      split, evaluates, -, -, -, position, -, length, -, -⟩
  · cases signal <;> cases congrArg Error.position escapes
  · exact ⟨error, origin, undertaking, node, scope, context, finished, rfl,
      split ▸ List.mem_append_right inner List.mem_cons_self, evaluates, position, length⟩

end TreeScript
