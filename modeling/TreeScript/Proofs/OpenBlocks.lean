import TreeScript.Proofs.ClosedGoals

/-!
# Open blocks

A run of statements tells the host that it is entered, and once more how it is left: with
a value, or by a signal that one of the statements gave.  In between it asks for the
statements, so the process of a goal goes through states in which some blocks of its own
have been entered and not left yet.  `Process.Opens` counts them.  The process of every
goal starts without an open block and ends without one, unless an error takes it there,
which leaves all blocks without a word.

The nodes that give a signal are apart.  They run no statements, and tell the host of the
signal that they give themselves, though not of one that their operand gave
(`Process.Gives`).
-/

namespace TreeScript

open Rule

theorem Signal.mem_blockExits (signal : Signal) : "block:" ++ signal.name ∈ blockExits := by
  cases signal with
  | returning value => exact (by decide : "block:" ++ "return" ∈ blockExits)
  | breaking label value => exact (by decide : "block:" ++ "break" ∈ blockExits)
  | continuing label => exact (by decide : "block:" ++ "continue" ∈ blockExits)

/-- Whether a goal is the evaluation of a node that gives a signal. -/
def Goal.isSignal : Goal → Bool
  | .evaluate node _ _ => node.shape.isSignal
  | _ => false

/-- Whether something has ended with an error. -/
def Rule.HasFailed {α : Type} (result : Except Interrupt α) : Prop :=
  ∃ error : Error, result = .error (.error error)

/-- Whether a goal has ended with an error. -/
def Turn.HasFailed (turn : Turn) : Prop :=
  ∃ error : Error, turn = .answer (.error (.error error))

/-- Whether a goal has ended with a signal. -/
def Turn.IsSignal (turn : Turn) : Prop :=
  ∃ signal : Signal, turn = .answer (.error (.signal signal))

namespace Process

variable {α β : Type}

/--
A process with some blocks of its own open, which it leaves before it ends with anything
but an error.  It need not leave them when a goal that it asks for ends with an error.
-/
inductive Opens (failed : α → Prop) : Nat → Process α → Prop where
  | done (result : α) :
      Opens failed 0 (.done result)
  | failed {result : α} (given : failed result) (blocks : Nat) :
      Opens failed blocks (.done result)
  | enter {blocks : Nat} {scope : Option String} {value : Option Value} {next : Unit → Process α}
      (rest : ∀ reply, Opens failed (blocks + 1) (next reply)) :
      Opens failed blocks (.act (.log "block:enter" scope value) next)
  | leave {blocks : Nat} {name : String} {scope : Option String} {value : Option Value}
      {next : Unit → Process α}
      (leaves : name ∈ blockExits)
      (rest : ∀ reply, Opens failed blocks (next reply)) :
      Opens failed (blocks + 1) (.act (.log name scope value) next)
  | act {blocks : Nat} {action : Action} {next : action.Reply → Process α}
      (noBlock : action.isBlockLog = false)
      (rest : ∀ reply, action.Expected reply → Opens failed blocks (next reply)) :
      Opens failed blocks (.act action next)
  | wait {blocks : Nat} {reason : Wait} {next : Process α}
      (rest : Opens failed blocks next) :
      Opens failed blocks (.wait reason next)
  | call {blocks : Nat} {goal : Goal} {next : Outcome → Process α}
      (rest : ∀ outcome, ¬ HasFailed outcome → Opens failed blocks (next outcome)) :
      Opens failed blocks (.call goal next)
  | drive {blocks : Nat} {goal : Goal} {next : Outcome → Process α}
      (rest : ∀ outcome, ¬ HasFailed outcome → Opens failed blocks (next outcome)) :
      Opens failed blocks (.drive goal next)

theorem Opens.bind {failed : α → Prop} {failedAfter : β → Prop} {blocks : Nat}
    {process : Process α}
    (opens : process.Opens failed blocks)
    {continuation : α → Process β}
    (goesOn : ∀ result, (continuation result).Opens failedAfter 0)
    (fails : ∀ result, failed result →
      ∃ after, failedAfter after ∧ continuation result = .done after) :
    (process.bind continuation).Opens failedAfter blocks := by
  induction opens with
  | done result => exact goesOn result
  | failed given blocks =>
      obtain ⟨after, failure, ends⟩ := fails _ given
      show (continuation _).Opens failedAfter blocks
      rw [ends]
      exact .failed failure blocks
  | enter _ inductive_step => exact .enter inductive_step
  | leave leaves _ inductive_step => exact .leave leaves inductive_step
  | act noBlock _ inductive_step => exact .act noBlock inductive_step
  | wait _ inductive_step => exact .wait inductive_step
  | call _ inductive_step => exact .call inductive_step
  | drive _ inductive_step => exact .drive inductive_step

end Process

/-! ## Rules that leave what they enter -/

/-- A rule that leaves every block that it enters, unless an error ends it. -/
def Rule.Balanced {α : Type} (rule : Rule α) : Prop :=
  rule.run.Opens HasFailed 0

namespace Rule

variable {α β : Type}

theorem Balanced.bind {rule : Rule α} (balanced : rule.Balanced) {continuation : α → Rule β}
    (goesOn : ∀ result, (continuation result).Balanced) :
    (rule >>= continuation).Balanced := by
  refine Process.Opens.bind balanced (fun result => ?_) ?_
  · cases result with
    | error interrupt => exact .done _
    | ok result => exact goesOn result
  · rintro _ ⟨error, rfl⟩
    exact ⟨_, ⟨error, rfl⟩, rfl⟩

theorem Balanced.outcome_bind {rule : Rule α} (balanced : rule.Balanced)
    {continuation : Except Interrupt α → Rule β}
    (goesOn : ∀ result, (continuation result).Balanced)
    (relays : ∀ error : Error, ∃ later : Error, later.cause = error.cause ∧
      continuation (.error (.error error)) = fail later) :
    (rule.outcome >>= continuation).Balanced := by
  unfold Balanced
  rw [run_outcome_bind]
  refine Process.Opens.bind balanced goesOn ?_
  rintro _ ⟨error, rfl⟩
  obtain ⟨later, -, ends⟩ := relays error
  exact ⟨_, ⟨later, rfl⟩, congrArg ExceptT.run ends⟩

theorem balanced_perform {action : Action} (noBlock : action.isBlockLog = false) :
    (perform action).Balanced :=
  .act noBlock fun _ _ => .done _

/-- A look at the store finds no function of the host. -/
theorem balanced_look_bind (view : Store → α) {continuation : α → Rule β}
    (goesOn : ∀ store : Store, store.Hostless → (continuation (view store)).Balanced) :
    (look view >>= continuation).Balanced :=
  .act rfl goesOn

theorem balanced_wait (reason : Wait) : (wait reason).Balanced :=
  .wait (.done _)

/-- Rules that leave what they enter may follow each other. -/
theorem sequential_balanced : Sequential fun _ rule => rule.Balanced where
  pure _ := .done _
  throw _ := .done _
  bind first := first.bind
  outcome first := first.outcome_bind

/-- To leave what was entered is kept by the operations that rules are written with. -/
theorem compositional_balanced (mode : Mode) :
    Compositional mode fun _ rule => rule.Balanced :=
  sequential_balanced.compositional (fun _ _ => balanced_perform)
    (fun _ => .call fun _ _ => .done _) fun _ _ => .drive fun _ _ => .done _

end Rule

namespace Evaluation

/-- What is left of some statements has one block open, and leaves it in whatever way it ends. -/
theorem opens_runFrom (scope : Scope) (context : Context) (last : Value)
    (statements : List Node) :
    (runFrom scope context last statements).run.Opens HasFailed 1 := by
  induction statements generalizing last with
  | nil => exact .leave (by decide) fun _ => .done _
  | cons statement rest inductive_step =>
      refine .call fun outcome fine => ?_
      rcases outcome with (signal | error) | value
      · exact .leave signal.mem_blockExits fun _ => .done _
      · exact (fine ⟨error, rfl⟩).elim
      · exact inductive_step value

theorem closed_balanced (mode : Mode) : Closed mode fun _ rule => rule.Balanced where
  toCompositional := compositional_balanced mode
  runAll scope context _ statements := .enter fun _ => opens_runFrom scope context .null statements

/-- A call of a function that the host did not supply. -/
theorem balanced_apply (options : Options) (host : Host) (function : FunctionId)
    (arguments : List Value) (context : Context) (site : Option Position) :
    (apply options host function arguments context site).Balanced := by
  have closed := closed_balanced context.mode
  refine balanced_look_bind _ fun store hostless => ?_
  split
  · exact closed_applyClosure closed options _ _ _ _ _ arguments site
  · rename_i found
    refine closed_nativeForms closed _ arguments site ?_
    rintro name forms rfl
    exact (hostless function _ found).elim
  · exact closed_fail closed _

theorem balanced_gate (irq : Irq) : (gate irq).Balanced :=
  closed_gate (closed_balanced .asynchronous) (balanced_perform rfl) (balanced_perform rfl)
    (balanced_perform rfl) balanced_wait irq

theorem opens_process {rule : Rule Turn} (balanced : rule.Balanced) :
    (process rule).Opens Turn.HasFailed 0 := by
  refine Process.Opens.bind balanced (fun _ => .done _) ?_
  rintro _ ⟨error, rfl⟩
  exact ⟨_, ⟨error, rfl⟩, rfl⟩

/-- The process of every goal leaves what it enters, apart from the nodes that give a signal. -/
theorem opens_ofGoal (options : Options) (host : Host) {mode : Mode} {goal : Goal}
    (runs : goal.RunsIn mode)
    (noSignal : goal.isSignal = false) :
    (ofGoal options host goal).Opens Turn.HasFailed 0 := by
  refine opens_process (closed_turn (closed_balanced mode) (balanced_perform rfl)
    (fun _ => balanced_gate options.irq) ?_ ?_ ?_ runs)
  · exact fun function arguments context site _ =>
      balanced_apply options host function arguments context site
  · exact fun node scope context _ =>
      closed_definition (closed_balanced context.mode) (fun _ _ => balanced_perform rfl) node.start
  · rintro node scope context rfl signals
    cases signals.symm.trans noSignal

/-- So does the process of a script. -/
theorem opens_script (root : Scope) (script : List Node) (mode : Mode) :
    (process (answering (runScript root script mode))).Opens Turn.HasFailed 0 :=
  opens_process (Rule.Balanced.bind (closed_runScript (closed_balanced mode)
    (fun _ _ => balanced_perform rfl) root script) fun _ => .done _)

end Evaluation

/-! ## Nodes that give a signal -/

/--
A process that ends with a signal only right after it has told the host of it, or because
a goal that it has asked for did.  It has not ended with a signal yet.
-/
inductive Process.Gives : Process Turn → Prop where
  | done {turn : Turn} (noSignal : ¬ turn.IsSignal) :
      Gives (.done turn)
  | act {action : Action} {next : action.Reply → Process Turn}
      (noBlock : action.isBlockLog = false)
      (rest : ∀ reply, Gives (next reply)) :
      Gives (.act action next)
  | give {name : String} {scope : Option String} {value : Option Value}
      {next : Unit → Process Turn}
      (leaves : name ∈ blockExits)
      (given : ∃ turn, turn.IsSignal ∧ next () = .done turn) :
      Gives (.act (.log name scope value) next)
  | wait {reason : Wait} {next : Process Turn}
      (rest : Gives next) :
      Gives (.wait reason next)
  | call {goal : Goal} {next : Outcome → Process Turn}
      (rest : ∀ outcome, (∀ signal : Signal, outcome ≠ .error (.signal signal)) →
        Gives (next outcome))
      (relays : ∀ signal : Signal, ∃ turn, turn.IsSignal ∧
        next (.error (.signal signal)) = .done turn) :
      Gives (.call goal next)

namespace Evaluation

/-- The process of the rest of a node, whose errors are located at the node. -/
def located (node : Node) (context : Context) (rule : Rule Value) : Process Turn :=
  process (answering (rule.mapError fun error => error.locate node.start context.calls))

section Located

variable {node : Node} {context : Context}

theorem gives_null : (located node context (pure .null)).Gives :=
  .done fun ⟨_, same⟩ => nomatch same

theorem gives_fail (error : Error) : (located node context (fail error)).Gives :=
  .done fun ⟨_, same⟩ => nomatch same

theorem gives_perform (action : Action) (noBlock : action.isBlockLog = false)
    {rest : action.Reply → Rule Value}
    (gives : ∀ reply, (located node context (rest reply)).Gives) :
    (located node context (perform action >>= rest)).Gives :=
  .act noBlock gives

theorem gives_wait (reason : Wait) {rest : Rule Value} (gives : (located node context rest).Gives) :
    (located node context (wait reason >>= fun _ => rest)).Gives :=
  .wait gives

/-- Telling the host of a signal and giving it. -/
theorem gives_throw {event : String} (leaves : "block:" ++ event ∈ blockExits) (scope : Scope)
    (value : Option Value) (signal : Signal) :
    (located node context (logBlock event scope value >>= fun _ => throw (.signal signal))).Gives :=
  .give leaves ⟨_, ⟨signal, rfl⟩, rfl⟩

/-- An operand that ends with a signal or an error ends the node as well. -/
theorem gives_evaluate (operand : Node) (scope : Scope) {rest : Value → Rule Value}
    (gives : ∀ value, (located node context (rest value)).Gives) :
    (located node context (evaluate operand scope context >>= rest)).Gives := by
  refine .call (fun outcome noSignal => ?_) fun signal => ⟨_, ⟨signal, rfl⟩, rfl⟩
  rcases outcome with (signal | error) | value
  · exact (noSignal signal rfl).elim
  · exact .done fun ⟨_, same⟩ => nomatch same
  · exact gives value

/-- The gate in front of a node gives no signal. -/
theorem gives_gate (irq : Irq) {rest : Rule Value} (gives : (located node context rest).Gives) :
    (located node context (gate irq >>= fun _ => rest)).Gives := by
  have yielding : (located node context (yieldNow irq.sleep >>= fun _ => rest)).Gives := by
    unfold yieldNow
    cases irq.sleep with
    | timed => exact gives_wait .nextPoll gives
    | custom suspends =>
        refine gives_perform .yielded rfl fun _ => ?_
        cases suspends with
        | true => exact gives_wait .nextPoll gives
        | false => exact gives
  have resumed : (located node context ((do
      if irq.isDue (← perform .steps) then
        yieldNow irq.sleep) >>= fun _ => rest)).Gives := by
    refine gives_perform .steps rfl fun steps => ?_
    show (located node context ((if irq.isDue steps then yieldNow irq.sleep else pure ()) >>=
      fun _ => rest)).Gives
    split
    · exact yielding
    · exact gives
  refine gives_perform .pause rfl fun pause => ?_
  cases pause with
  | none => exact resumed
  | some pause => exact gives_wait (.resumed pause) resumed

theorem gives_construct (scope : Scope) (start : Position) {shape : Shape}
    (signals : shape.isSignal = true) :
    (located node context (construct scope context start shape)).Gives := by
  cases shape with
  | returning operand =>
      exact gives_evaluate operand scope fun value =>
        gives_throw (Signal.returning value).mem_blockExits scope (some value) _
  | breaking label operand =>
      cases operand with
      | none =>
          exact gives_throw (Signal.breaking label none).mem_blockExits scope none _
      | some operand =>
          exact gives_evaluate operand scope fun value =>
            gives_throw (Signal.breaking label (some value)).mem_blockExits scope _ _
  | continuing label =>
      exact gives_throw (Signal.continuing label).mem_blockExits scope none _
  | _ => cases signals

end Located

/-- The process of a node that gives a signal tells the host of it first. -/
theorem gives_ofGoal (options : Options) (host : Host) {node : Node} (scope : Scope)
    (context : Context) (signals : node.shape.isSignal = true) :
    (ofGoal options host (.evaluate node scope context)).Gives := by
  have ticked : (located node context (do
      if ← perform .tick then
        construct scope context node.start node.shape
      else fail (.of .stepLimit))).Gives := by
    refine gives_perform .tick rfl fun within => ?_
    cases within with
    | true => exact gives_construct scope node.start signals
    | false => exact gives_fail _
  have started : (located node context (enterNode options node scope context)).Gives := by
    refine gives_perform .isStopped rfl fun stopped => ?_
    cases stopped with
    | true => exact gives_null
    | false =>
        rcases context with ⟨calls, mode⟩
        cases mode with
        | asynchronous => exact gives_gate options.irq ticked
        | synchronous => exact ticked
  exact started

end Evaluation

end TreeScript
